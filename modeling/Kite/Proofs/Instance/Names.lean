/-
The names of types and functions, and the labels they are the segments of. In the tables that
programs have, a type is known by its tree; so a readable name tells the handles of the arguments
too, and tables that grow change no name.
-/
import Kite.Proofs.Instance.Label

namespace Kite

open List TypeTable Bool Program

variable {id : TypeId} {p : Program} {xs ys args : List TypeId}

/-! ## Trees and handles -/

/-- Whether a shape is one that a program makes: named after its declaration, no empty tuple. -/
def Program.isRegular (p : Program) : TypeShape → Bool
  | .named decl name _ => name == p.defName decl
  | .tuple items => !items.isEmpty
  | _ => true

def Program.Regular (p : Program) (table : TypeTable) : Prop := ∀ shape ∈ table.shapes, p.isRegular shape

namespace TypeTable

variable {table : TypeTable}

lemma isRegular_shape (hreg : p.Regular table) (id : TypeId) : p.isRegular (table.shape id) := by
  unfold shape
  rw [Array.getD_eq_getD_getElem?]
  cases hget : table.shapes[id.index]? with
  | none => rfl
  | some shape => exact hreg shape (Array.mem_of_getElem? hget)

lemma treeOf_of_regular {shape : TypeShape} (hreg : p.isRegular shape)
    (hparam : ∀ param name, shape ≠ .param param name) :
    table.treeOf shape = .node shape.head (shape.parts.map table.tree) := by
  cases shape with
  | param param name => exact absurd rfl (hparam param name)
  | tuple items =>
    cases items with
    | nil => cases hreg
    | cons _ _ => rfl
  | _ => rfl

lemma shape_eq_of_head_eq {a b : TypeShape} (ha : p.isRegular a) (hb : p.isRegular b)
    (herror : a.head ≠ .error) (hhead : a.head = b.head) (hparts : a.parts = b.parts) : a = b := by
  cases a <;> cases b <;> simp_all [TypeShape.head, isRegular]

lemma ne_param_of_concrete (h : Concrete p table id) (param : ParamId) (name : String) :
    table.shape id ≠ .param param name := by
  intro hshape
  unfold Concrete at h
  rw [tree_eq, hshape] at h
  cases h

lemma tree_of_concrete (hreg : p.Regular table) (h : Concrete p table id) :
    table.tree id = .node (table.shape id).head ((table.shape id).parts.map table.tree) := by
  rw [tree_eq, treeOf_of_regular (isRegular_shape hreg id) (ne_param_of_concrete h)]

lemma head_ne_error (hreg : p.Regular table) (h : Concrete p table id) : (table.shape id).head ≠ .error := by
  intro herror
  unfold Concrete at h
  rw [tree_of_concrete hreg h, herror, Ty.proper] at h
  cases h

lemma map_tree_inj (hinj : ∀ x ∈ xs, ∀ y ∈ ys, table.tree x = table.tree y → x = y)
    (h : xs.map table.tree = ys.map table.tree) : xs = ys := by
  induction xs generalizing ys with
  | nil => exact (map_eq_nil_iff.1 h.symm).symm
  | cons x xs ih =>
    cases ys with
    | nil => cases h
    | cons y ys =>
      obtain ⟨hhead, htail⟩ := List.cons.inj h
      have hrest := ih (fun a ha b hb => hinj a (.tail _ ha) b (.tail _ hb)) htail
      rw [hinj x (.head _) y (.head _) hhead, hrest]

lemma eq_of_tree_eq (hreg : p.Regular table) {x y : TypeId} (hx : Concrete p table x)
    (hy : Concrete p table y) (h : table.tree x = table.tree y) : x = y := by
  rw [tree_of_concrete hreg hx, tree_of_concrete hreg hy] at h
  obtain ⟨hhead, hparts⟩ := Ty.node.inj h
  refine eq_of_shape_eq hx.holds hy.holds (shape_eq_of_head_eq (isRegular_shape hreg x)
    (isRegular_shape hreg y) (head_ne_error hreg hx) hhead ?_)
  refine map_tree_inj (fun a ha b hb hab => ?_) hparts
  have hlt := table.parts_shape_lt ha
  exact eq_of_tree_eq hreg (hx.part ha) (hy.part hb) hab
termination_by x.index

end TypeTable

/-! ## The parameters of a tree -/

namespace Ty

mutual

def params : Ty → List ParamId
  | .param id => [id]
  | .node _ parts => paramsAll parts

def paramsAll : List Ty → List ParamId
  | [] => []
  | t :: ts => t.params ++ paramsAll ts

end

lemma mem_paramsAll {id : ParamId} : id ∈ paramsAll ts ↔ ∃ t ∈ ts, id ∈ t.params := by
  induction ts with
  | nil => simp [paramsAll]
  | cons t ts ih => simp [paramsAll, ih]

mutual

theorem mem_of_mem_params : ∀ {t : Ty}, t.proper p ids → ∀ id ∈ t.params, id ∈ ids
  | .param _, h, _, hid => by
    rw [mem_singleton.1 hid]
    exact contains_iff_mem.1 h
  | .node _ _, h, id, hid => by
    rw [proper, and_eq_true] at h
    exact mem_of_mem_paramsAll h.2 id hid

theorem mem_of_mem_paramsAll : ∀ {ts}, properAll p ids ts → ∀ id ∈ paramsAll ts, id ∈ ids
  | [], _, _, hid => absurd hid not_mem_nil
  | _ :: _, h, id, hid => by
    rw [properAll, and_eq_true] at h
    rcases mem_append.1 hid with hid | hid
    · exact mem_of_mem_params h.1 id hid
    · exact mem_of_mem_paramsAll h.2 id hid

end

mutual

theorem eq_of_subst_eq : ∀ {t : Ty}, t.subst s = t.subst r → ∀ id ∈ t.params, s id = r id
  | .param _, h, _, hid => by
    rw [mem_singleton.1 hid]
    exact h
  | .node _ _, h, id, hid => eq_of_substAll_eq (Ty.node.inj h).2 id hid

theorem eq_of_substAll_eq : ∀ {ts}, substAll s ts = substAll r ts → ∀ id ∈ paramsAll ts, s id = r id
  | [], _, _, hid => absurd hid not_mem_nil
  | _ :: _, h, id, hid => by
    obtain ⟨hhead, htail⟩ := List.cons.inj h
    rcases mem_append.1 hid with hid | hid
    · exact eq_of_subst_eq hhead id hid
    · exact eq_of_substAll_eq htail id hid

end

mutual

theorem formed_subst (hs : ∀ id, (s id).formed) : ∀ {t : Ty}, t.formed → (t.subst s).formed
  | .param id, _ => hs id
  | .node head parts, h => by
    rw [formed, and_eq_true] at h
    rw [subst, formed, and_eq_true, substAll_eq_map, length_map, ← substAll_eq_map]
    exact ⟨h.1, formedAll_subst hs h.2⟩

theorem formedAll_subst (hs : ∀ id, (s id).formed) : ∀ {ts}, formedAll ts → formedAll (substAll s ts)
  | [], _ => rfl
  | t :: ts, h => by
    rw [formedAll, and_eq_true] at h
    rw [substAll, formedAll, and_eq_true]
    exact ⟨formed_subst hs h.1, formedAll_subst hs h.2⟩

end

mutual

/-- Whether two types differ whatever their parameters stand for. -/
def clash : Ty → Ty → Bool
  | .node a ts, .node b us => a != b || clashAny ts us
  | _, _ => false

def clashAny : List Ty → List Ty → Bool
  | t :: ts, u :: us => t.clash u || clashAny ts us
  | [], [] => false
  | _, _ => true

end

mutual

theorem subst_ne_of_clash : ∀ {t u : Ty}, t.clash u → t.subst s ≠ u.subst r
  | .param _, .param _, h, _ | .param _, .node _ _, h, _ | .node _ _, .param _, h, _ => by cases h
  | .node a ts, .node b us, h, heq => by
    obtain ⟨hhead, hparts⟩ := Ty.node.inj heq
    rw [clash, hhead, bne_self_eq_false, Bool.false_or] at h
    exact substAll_ne_of_clash h hparts

theorem substAll_ne_of_clash : ∀ {ts us}, clashAny ts us → substAll s ts ≠ substAll r us
  | [], [], h, _ => by cases h
  | [], _ :: _, _, heq | _ :: _, [], _, heq => by cases heq
  | _ :: _, _ :: _, h, heq => by
    obtain ⟨hhead, htail⟩ := List.cons.inj heq
    rw [clashAny, or_eq_true] at h
    rcases h with h | h
    · exact subst_ne_of_clash h hhead
    · exact substAll_ne_of_clash h htail

end

end Ty

lemma TypeTable.formed_tree (table : TypeTable) (id : TypeId) : (table.tree id).formed := by
  have hparts : ∀ part ∈ (table.shape id).parts, (table.tree part).formed := by
    intro part hpart
    have hlt := table.parts_shape_lt hpart
    exact formed_tree table part
  rw [tree_eq]
  unfold treeOf
  split
  · rfl
  · rfl
  · rename_i hparam htuple
    rw [Ty.formed, and_eq_true, Ty.formedAll_iff, length_map]
    refine ⟨?_, fun t ht => ?_⟩
    · cases hshape : table.shape id with
      | param param name => exact absurd hshape (hparam param name)
      | tuple items =>
        cases items with
        | nil => exact absurd hshape htuple
        | cons _ _ => rfl
      | function params result => simp [TypeShape.head, TyHead.takes]
      | _ => rfl
    · obtain ⟨part, hpart, rfl⟩ := mem_map.1 ht
      exact hparts part hpart
termination_by id.index

lemma Concrete.ground (h : Concrete p table id) : (table.tree id).Ground p := ⟨h, table.formed_tree id⟩

/-! ## Spellings -/

namespace Naming

variable {n : Naming} {table : TypeTable}

lemma spellings_eq_flatMap (ts : List Ty) : n.spellings p ts = ts.flatMap (n.spelling p) := by
  induction ts with
  | nil => rw [spellings]; rfl
  | cons t ts ih => rw [spellings, ih, flatMap_cons]

lemma gap_map (head : TyHead) (f : Ty → Ty) : gap head (ts.map f) = gap head ts := by
  match ts with
  | [] | [_] | _ :: _ :: _ => cases head <;> rfl

lemma display_of_leaf (hparts : (table.shape id).parts = [])
    (hparam : ∀ param name, table.shape id ≠ .param param name)
    (hnamed : ∀ decl name args, table.shape id ≠ .named decl name args)
    (htuple : ∀ items, table.shape id ≠ .tuple items) : table.display id = (table.shape id).head.word := by
  unfold TypeTable.display
  rw [TypeTable.displayFrom, TypeTable.displayStep]
  cases hshape : table.shape id with
  | param param name => exact absurd hshape (hparam param name)
  | named decl name args => exact absurd hshape (hnamed decl name args)
  | tuple items => exact absurd hshape (htuple items)
  | vector _ | array _ _ | optional _ | view _ _ | raw _ =>
    rw [hshape] at hparts
    cases hparts
  | function params result => simp [hshape] at hparts
  | _ => rfl

lemma segments_fragmentFrom (hreg : p.Regular table) {param : ParamId → String → String} :
    ∀ k id, id.index < k →
    (∀ q ∈ (table.tree id).params, ∀ name, segments (param q name) = n.spelling p (s q)) →
      segments (n.fragmentFrom (p.withTypes table) param k id) = n.spelling p ((table.tree id).subst s)
  | k + 1, id, hk, hparam => by
    have hparts : ∀ part ∈ (table.shape id).parts,
        segments (n.fragmentFrom (p.withTypes table) param k part) = n.spelling p ((table.tree part).subst s) := by
      intro part hpart
      have hlt := table.parts_shape_lt hpart
      refine segments_fragmentFrom hreg k part (by omega) fun q hq name => hparam q ?_ name
      rw [table.tree_eq id, treeOf_eq_node (ne_nil_of_mem hpart)]
      exact Ty.mem_paramsAll.2 ⟨_, mem_map_of_mem hpart, hq⟩
    have hregular := isRegular_shape hreg id
    have hspell (hno : ∀ q name, table.shape id ≠ .param q name) :
        n.spelling p ((table.tree id).subst s) = n.opening p (table.shape id).head ++
          if (table.shape id).parts.isEmpty then []
          else gap (table.shape id).head ((table.shape id).parts.map table.tree) ++
            ((table.shape id).parts.flatMap (fun part =>
              segments (n.fragmentFrom (p.withTypes table) param k part)) ++ [[]]) := by
      rw [table.tree_eq, treeOf_of_regular hregular hno, Ty.subst_node, spelling, gap_map,
        spellings_eq_flatMap, flatMap_map, flatMap_map, isEmpty_map, isEmpty_map,
        flatMap_def, flatMap_def, map_congr_left hparts]
    have hone (head : TyHead) (part : TypeId) (hgap : gap head [table.tree part] = [])
        (hopening : n.opening p head = [head.word.toList]) (hhead : (table.shape id).head = head)
        (hpart : (table.shape id).parts = [part]) :
        segments (head.word ++ "_" ++ n.fragmentFrom (p.withTypes table) param k part ++ "_") =
          n.spelling p ((table.tree id).subst s) := by
      have hno : ∀ q name, table.shape id ≠ .param q name := by
        intro q name hshape
        rw [hshape] at hpart
        cases hpart
      rw [hspell hno, hhead, hpart, hopening, segments_closed, segments_joined,
        TyHead.segments_word, map_singleton, hgap, flatMap_singleton, append_assoc]
      rfl
    have htypes : (p.withTypes table).types.shape id = table.shape id := rfl
    rw [fragmentFrom, htypes]
    cases hshape : table.shape id with
    | param q name =>
      have htree : table.tree id = .param q := by rw [table.tree_eq, hshape]; rfl
      rw [htree] at hparam ⊢
      exact hparam q (.head _) name
    | named decl name args =>
      rw [hspell (by simp [hshape]), hshape]
      cases args with
      | nil => exact (append_nil _).symm
      | cons arg args =>
        show segments (n.base p decl ++ "_" ++ _ ++ "_") = _
        rw [segments_closed, segments_joined, segments_intercalate (by simp), flatMap_map, append_assoc]
        rfl
    | vector element =>
      show segments (TyHead.vector.word ++ "_" ++ _ ++ "_") = _
      exact hone .vector element rfl rfl (hshape ▸ rfl) (hshape ▸ rfl)
    | optional inner =>
      show segments (TyHead.optional.word ++ "_" ++ _ ++ "_") = _
      exact hone .optional inner rfl rfl (hshape ▸ rfl) (hshape ▸ rfl)
    | raw inner => exact hone .raw inner rfl rfl (hshape ▸ rfl) (hshape ▸ rfl)
    | view isMut inner =>
      have hword : segments ((if isMut then "mut_" else "ref_") ++
          n.fragmentFrom (p.withTypes table) param k inner ++ "_") =
          segments ((TyHead.view isMut).word ++ "_" ++ n.fragmentFrom (p.withTypes table) param k inner ++ "_") := by
        cases isMut <;> rfl
      exact hword.trans (hone (.view isMut) inner rfl rfl (hshape ▸ rfl) (hshape ▸ rfl))
    | array element length =>
      rw [hspell (by simp [hshape]), hshape]
      show segments (TyHead.array.word ++ "_" ++ _ ++ "_" ++ _ ++ "_") = _
      rw [segments_closed, segments_joined, segments_joined, TyHead.segments_word]
      simp [TypeShape.head, opening, gap]
    | tuple items =>
      rw [hshape] at hregular
      rw [hspell (by simp [hshape]), hshape]
      cases items with
      | nil => cases hregular
      | cons item items =>
        show segments (TyHead.tuple.word ++ "_" ++ _ ++ "_") = _
        rw [segments_closed, segments_joined, TyHead.segments_word, segments_intercalate (by simp), flatMap_map]
        rfl
    | function params result =>
      rw [hspell (by simp [hshape]), hshape]
      show segments (TyHead.function.word ++ "_" ++ _ ++ "_" ++ _ ++ "_") = _
      rw [segments_closed, segments_joined, segments_joined, TyHead.segments_word]
      cases params with
      | nil =>
        have hnone : segments "" = [[]] := rfl
        simp [TypeShape.head, opening, gap, hnone]
      | cons first params =>
        have hgap : gap .function ((TypeShape.function (first :: params) result).parts.map table.tree) = [] := by
          cases params <;> rfl
        show _ = _ ++ (gap .function _ ++ _)
        rw [hgap, segments_intercalate (by simp), flatMap_map]
        simp [TypeShape.head, opening]
    | _ =>
      rw [hspell (by simp [hshape]), hshape]
      show segments (table.display id) = _
      rw [display_of_leaf (hshape ▸ rfl) (by simp [hshape]) (by simp [hshape])
        (by simp [hshape]), TyHead.segments_word, hshape]
      rfl

lemma segments_fragment (hreg : p.Regular table) (h : Concrete p table id) :
    segments (n.fragment (p.withTypes table) id) = n.spelling p (table.tree id) := by
  have hclosed : ∀ q ∈ (table.tree id).params, ∀ name : String, segments name = n.spelling p (.param q) :=
    fun q hq => absurd (Ty.mem_of_mem_params h q hq) not_mem_nil
  have hspell := segments_fragmentFrom hreg (id.index + 1) id (Nat.lt_succ_self _) hclosed
  rw [Ty.subst_param] at hspell
  exact hspell

lemma segments_fragmentWith (hreg : p.Regular table) {s : Subst}
    (hs : ∀ q ∈ (table.tree id).params, ∃ arg, s.get? q = some arg ∧ Concrete p table arg) :
    segments (n.fragmentWith (p.withTypes table) s id) = n.spelling p ((table.tree id).subst (s.trees table)) := by
  refine segments_fragmentFrom hreg (id.index + 1) id (Nat.lt_succ_self _) fun q hq name => ?_
  obtain ⟨arg, hget, harg⟩ := hs q hq
  unfold Subst.trees
  rw [hget]
  exact segments_fragment hreg harg

end Naming

/-! ## Names -/

def Program.owner? (p : Program) (decl : DefId) : Option ImplDef :=
  (p.function? decl).bind fun f => f.owner.bind (p.impls[·]?)

/-- What the name of a function is made of. A method has the type it belongs to, with the arguments
of its implementation in place, and the other arguments. -/
def Program.functionLabel (p : Program) (decl : DefId) (args : List Ty) : Label :=
  match p.owner? decl with
  | some impl => .method ((p.types.tree impl.target).subst (.bindOpen impl.generics args))
      (p.types.shape impl.target).isNamed (p.defName decl) (args.drop impl.generics.length)
  | none => .declared decl args

namespace Naming

variable {n : Naming} {table : TypeTable}

lemma flatMap_eq_tagged {name : TypeId → String} {tree : TypeId → Ty} : ∀ {ids : List TypeId},
    (∀ id ∈ ids, segments (name id) = n.spelling p (tree id)) →
      (ids.map name).flatMap ([] :: segments ·) = n.tagged p (ids.map tree)
  | [], _ => rfl
  | id :: ids, h => by
    rw [map_cons, map_cons, flatMap_cons, tagged_cons, h id (.head _),
      flatMap_eq_tagged fun id hid => h id (.tail _ hid)]
    rfl

lemma segments_typeNameWith (hreg : p.Regular table) {s : Subst}
    (hs : ∀ q ∈ (table.tree id).params, ∃ arg, s.get? q = some arg ∧ Concrete p table arg) :
    segments (n.typeNameWith (p.withTypes table) s id) =
      n.receiverSegments p (table.shape id).isNamed ((table.tree id).subst (s.trees table)) := by
  have htypes : (p.withTypes table).types.shape id = table.shape id := rfl
  unfold typeNameWith
  rw [htypes]
  cases hshape : table.shape id with
  | named decl name args =>
    have htree : table.tree id = .node (.named decl) (args.map table.tree) := by
      rw [table.tree_eq, hshape]
      rfl
    have hargs : ∀ arg ∈ args, segments (n.fragmentWith (p.withTypes table) s arg) =
        n.spelling p ((table.tree arg).subst (s.trees table)) := by
      intro arg harg
      refine segments_fragmentWith hreg fun q hq => hs q ?_
      rw [htree]
      exact Ty.mem_paramsAll.2 ⟨_, mem_map_of_mem harg, hq⟩
    rw [htree, Ty.subst_node, map_map]
    dsimp only
    rw [segments_withArgs, flatMap_eq_tagged hargs]
    rfl
  | _ =>
    rw [show TypeShape.isNamed _ = false from rfl, ← spelling_eq_receiverSegments]
    exact segments_fragmentWith hreg hs

lemma exists_binding (hlen : generics.length ≤ args.length)
    (hargs : ∀ arg ∈ args, Concrete p table arg) (hq : q ∈ generics.map (·.id)) : ∃ arg,
    (bindings generics args).get? q = some arg ∧ Concrete p table arg := by
  obtain ⟨g, hg, rfl⟩ := mem_map.1 hq
  have hsome : (generic? generics g.id).isSome := find?_isSome.2 ⟨g, hg, beq_self_eq_true _⟩
  obtain ⟨found, hfound⟩ := Option.isSome_iff_exists.1 hsome
  have htake : bindings generics args = bindings generics (args.take generics.length) := by
    unfold bindings
    rw [zip_eq_zip_take_min, Nat.min_eq_left hlen, take_length]
  have hlen' : (args.take generics.length).length = generics.length := by rw [length_take, Nat.min_eq_left hlen]
  obtain ⟨arg, hget, hmem⟩ := get?_bindings hlen' hfound
  rw [htake]
  exact ⟨arg, hget, hargs arg (mem_of_mem_take (of_mem_zip hmem).2)⟩

lemma segments_functionName (hreg : p.Regular table) (hle : p.types ≤ table) (hf : p.function? decl = some f)
    (hforeign : f.isForeign = false) (hargs : ∀ arg ∈ args, Concrete p table arg) (howner : ∀ impl, p.owner? decl =
    some impl → p.isProper impl.generics impl.target ∧ impl.generics.length ≤ args.length) : segments
    (n.functionName (p.withTypes table) decl args) = n.labelSegments p (p.functionLabel decl (args.map table.tree)) :=
    by
  have hf' : (p.withTypes table).function? decl = some f := hf
  have howner' : p.owner? decl = f.owner.bind (p.impls[·]?) := by
    unfold owner?
    rw [hf]
    rfl
  have hdrop (k : Nat) : ((args.drop k).map (n.fragment (p.withTypes table))).flatMap
      ([] :: segments ·) = n.tagged p ((args.map table.tree).drop k) := by
    rw [← map_drop]
    exact flatMap_eq_tagged fun arg harg => segments_fragment hreg (hargs arg (mem_of_mem_drop harg))
  unfold functionName functionLabel
  rw [hf']
  dsimp only
  rw [hforeign, if_neg Bool.false_ne_true]
  show segments (match f.owner.bind (p.impls[·]?) with | some impl => _ | none => _) = _
  rw [← howner']
  cases hown : p.owner? decl with
  | some impl =>
    obtain ⟨hproper, hlen⟩ := howner impl hown
    have hheld := holds_of_proper hproper
    have htarget : ∀ q ∈ (table.tree impl.target).params,
        ∃ arg, (bindings impl.generics args).get? q = some arg ∧ Concrete p table arg := by
      rw [tree_eq_of_le hle _ hheld]
      intro q hq
      exact exists_binding hlen hargs (Ty.mem_of_mem_params hproper q hq)
    show segments (withArgs (n.typeNameWith (p.withTypes table) _ impl.target ++ "_" ++ p.defName decl) _) = _
    rw [segments_withArgs, segments_joined, segments_typeNameWith hreg htarget, hdrop,
      append_assoc, tree_eq_of_le hle _ hheld, shape_eq_of_le hle hheld,
      trees_bindings]
    rfl
  | none =>
    have hall := hdrop 0
    rw [drop_zero, drop_zero] at hall
    rw [segments_withArgs, hall]
    rfl

end Naming

end Kite
