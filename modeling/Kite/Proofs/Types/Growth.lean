/-
A type table only grows. What a handle stands for is a tree that later types do not change: making
a shape gives a handle of that shape, and binding generics in a type gives a handle of the tree with
the parameters replaced.
-/
import Mathlib.Order.Basic
import Kite.Proofs.Typing.Ty

namespace Kite

open List TypeTable

variable {now : TypeTable} {shape : TypeShape} {ids : List TypeId} {n : Nat} {s : Subst} {table : TypeTable}
  {σ α β : Type}

namespace TypeTable

/-- A later table has all the shapes of an earlier one, under their handles. -/
instance : LE TypeTable := ⟨fun a b => a.shapes.toList <+: b.shapes.toList⟩

def Holds (table : TypeTable) (id : TypeId) : Prop := id.index < table.size

instance (table : TypeTable) (id : TypeId) : Decidable (table.Holds id) := inferInstanceAs (Decidable (_ < _))

variable {a b : TypeTable} {id : TypeId}

instance : Preorder TypeTable where
  le_refl a := prefix_refl a.shapes.toList
  le_trans _ _ _ := List.IsPrefix.trans

lemma Holds.mono (hab : a ≤ b) (h : a.Holds id) : b.Holds id := Nat.lt_of_lt_of_le h (List.IsPrefix.length_le hab)

lemma shape_eq_of_le (hab : a ≤ b) (h : a.Holds id) : b.shape id = a.shape id := by
  obtain ⟨later, hlater⟩ := hab
  unfold shape
  rw [Array.getD_eq_getD_getElem?, Array.getD_eq_getD_getElem?, ← Array.getElem?_toList,
    ← Array.getElem?_toList, ← hlater, getElem?_append_left (by rw [Array.length_toList]; exact h)]

lemma shape_of_not_holds (h : ¬ a.Holds id) : a.shape id = .error := by
  unfold Holds size at h
  unfold shape
  rw [Array.getD_eq_getD_getElem?, Array.getElem?_eq_none (by omega), Option.getD_none]

lemma holds_of_shape (h : a.shape id ≠ .error) : a.Holds id :=
  Decidable.byContradiction fun hno => h (shape_of_not_holds hno)

lemma Holds.part {part : TypeId} (h : a.Holds id) (hpart : part ∈ (a.shape id).parts) : a.Holds part :=
  Nat.lt_trans (a.parts_shape_lt hpart) h

/-! ## Trees -/

def treeFrom (table : TypeTable) : Nat → TypeId → Ty
  | 0, _ => .error
  | n + 1, id =>
    match table.shape id with
    | .param param _ => .param param
    | .tuple [] => .void
    | shape => .node shape.head (shape.parts.map (table.treeFrom n))

/-- What a handle stands for, views included. The empty tuple is `void`. -/
def tree (table : TypeTable) (id : TypeId) : Ty := table.treeFrom (id.index + 1) id

def treeOf (table : TypeTable) : TypeShape → Ty
  | .param param _ => .param param
  | .tuple [] => .void
  | shape => .node shape.head (shape.parts.map table.tree)

lemma tree_eq (table : TypeTable) (id : TypeId) : table.tree id = table.treeOf (table.shape id) := by
  refine .symm (@descends_of_bounded _ (fun rec id => match table.shape id with
      | .param param _ => .param param
      | .tuple [] => .void
      | shape => .node shape.head (shape.parts.map rec)) table.treeFrom (fun _ _ => rfl) (fun id rec rec' h => ?_) id _
    fun _ _ => rfl)
  split
  · rfl
  · rfl
  · rw [map_congr_left fun part hpart => h part (table.parts_shape_lt hpart)]

lemma treeOf_congr (h : ∀ part ∈ shape.parts, a.tree part = b.tree part) : a.treeOf shape = b.treeOf shape := by
  unfold treeOf
  split
  · rfl
  · rfl
  · rw [map_congr_left h]

lemma tree_eq_of_le (hab : a ≤ b) (id : TypeId) (h : a.Holds id) : b.tree id = a.tree id := by
  rw [tree_eq, tree_eq, shape_eq_of_le hab h]
  refine treeOf_congr fun part hpart => ?_
  have hlt := a.parts_shape_lt hpart
  exact tree_eq_of_le hab part (h.part hpart)
termination_by id.index

/-! ## Making a shape -/

lemma holds_error : a.Holds .error := by
  have hpos : 0 < TypeShape.fixed.length := by decide
  exact Nat.lt_of_lt_of_le hpos a.fixed_first.length_le

lemma holds_void : a.Holds .void := by
  have hpos : 1 < TypeShape.fixed.length := by decide
  exact Nat.lt_of_lt_of_le hpos a.fixed_first.length_le

lemma shape_fixed (h : i < TypeShape.fixed.length) : a.shape ⟨i⟩ = TypeShape.fixed[i] := by
  obtain ⟨later, hlater⟩ := a.fixed_first
  unfold shape
  rw [Array.getD_eq_getD_getElem?, ← Array.getElem?_toList, ← hlater, getElem?_append_left h,
    getElem?_eq_getElem h, Option.getD_some]

lemma shape_error : a.shape .error = .error := shape_fixed (i := 0) (by decide)

lemma tree_void : a.tree .void = .void := by
  have hshape : a.shape .void = .void := shape_fixed (i := 1) (by decide)
  rw [tree_eq, hshape]
  rfl

lemma getElem?_shapes (h : a.Holds id) : a.shapes[id.index]? = some (a.shape id) := by
  unfold shape
  rw [Array.getD_eq_getD_getElem?, Array.getElem?_eq_getElem h, Option.getD_some]

/-- Looking up a shape and looking at a handle are inverse to each other. -/
lemma find?_eq_some_iff : a.find? shape = some id ↔ a.Holds id ∧ a.shape id = shape := by
  constructor
  · intro h
    obtain ⟨before, after, hcache, -⟩ := lookup_eq_some_iff.1 h
    have hshape := a.sound (shape, id) (by simp [hcache])
    have hholds : a.Holds id := (Array.getElem?_eq_some_iff.1 hshape).1
    exact ⟨hholds, Option.some.inj ((getElem?_shapes hholds).symm.trans hshape)⟩
  · rintro ⟨hholds, rfl⟩
    have hget := Option.some.inj ((Array.getElem?_eq_getElem hholds).symm.trans (getElem?_shapes hholds))
    exact hget ▸ a.cached id.index hholds

lemma intern_spec (shape : TypeShape) (table : TypeTable) : table ≤ (table.intern shape).2 ∧
    (table.intern shape).2.Holds (table.intern shape).1 ∧ ((∀ part ∈ shape.parts, table.Holds part) →
    (table.intern shape).2.shape (table.intern shape).1 = shape) := by
  unfold intern
  split
  · rename_i id hfind
    obtain ⟨hholds, hshape⟩ := find?_eq_some_iff.1 hfind
    exact ⟨le_rfl, hholds, fun _ => hshape⟩
  · split
    · refine ⟨?_, ?_, fun _ => ?_⟩
      · show _ <+: (table.shapes.push shape).toList
        rw [Array.toList_push]
        exact prefix_append _ _
      · show _ < (table.shapes.push shape).size
        rw [Array.size_push]
        exact Nat.lt_succ_self _
      · show (table.shapes.push shape).getD table.shapes.size .error = shape
        rw [Array.getD_eq_getD_getElem?, Array.getElem?_push_size, Option.getD_some]
    · rename_i hparts
      exact ⟨le_rfl, holds_error, fun h => absurd h hparts⟩

end TypeTable

lemma get_bind (f : σ → StateM σ α) (s : σ) : (get >>= f) s = f s s := rfl

lemma run_bind (x : StateM σ α) (f : α → StateM σ β) (s : σ) : (x >>= f) s = f (x s).1 (x s).2 := rfl

/-! ## Binding generics -/

variable {ids : List TypeId}

namespace TypeShape

/-- A shape with other parts. -/
def withParts : TypeShape → List TypeId → TypeShape
  | .named decl name _, parts => .named decl name parts
  | .vector _, parts => .vector (parts.headD .error)
  | .optional _, parts => .optional (parts.headD .error)
  | .view isMut _, parts => .view isMut (parts.headD .error)
  | .raw _, parts => .raw (parts.headD .error)
  | .array _ _, parts => .array (parts.headD .error) (parts.getD 1 .error)
  | .tuple _, parts => .tuple parts
  | .function _ _, parts => .function parts.dropLast (parts.getLast?.getD .error)
  | shape, _ => shape

lemma mapParts_eq {m : Type → Type} [Monad m] [LawfulMonad m] (f : TypeId → m TypeId) :
    shape.mapParts f = do return shape.withParts (← shape.parts.mapM f) := by
  cases shape <;> simp [mapParts, withParts, parts]

lemma parts_withParts (h : ids.length = shape.parts.length) : (shape.withParts ids).parts = ids := by
  cases shape with
  | vector _ | optional _ | view _ _ | raw _ =>
    obtain ⟨id, rfl⟩ := length_eq_one_iff.1 h
    rfl
  | array _ _ =>
    match ids, h with
    | [_, _], _ => rfl
  | function params result =>
    have hne : ids ≠ [] := by
      rintro rfl
      simp [parts] at h
    simp [withParts, parts, getLast?_eq_some_getLast hne, dropLast_concat_getLast hne]
  | named _ _ _ | tuple _ => rfl
  | _ =>
    rw [length_eq_zero_iff.1 h]
    rfl

lemma parts_withParts_ne_nil (h : ids.length = shape.parts.length) (hne : shape.parts ≠ []) :
    (shape.withParts ids).parts ≠ [] := by
  rw [parts_withParts h]
  rintro rfl
  exact hne (length_eq_zero_iff.1 h.symm)

lemma head_withParts : (shape.withParts ids).head = shape.head := by cases shape <;> rfl

end TypeShape

lemma TypeTable.treeOf_eq_node (h : shape.parts ≠ []) :
    table.treeOf shape = .node shape.head (shape.parts.map table.tree) := by
  cases shape with
  | param _ _ => exact absurd rfl h
  | tuple items =>
    cases items with
    | nil => exact absurd rfl h
    | cons _ _ => rfl
  | _ => rfl

lemma TypeTable.treeOf_eq_leaf (h : shape.parts = []) (hparam : ∀ param name, shape ≠ .param param name) : ∃ head,
    table.treeOf shape = .node head [] := by
  cases shape with
  | param param name => exact absurd rfl (hparam param name)
  | tuple items =>
    rw [show items = [] from h]
    exact ⟨_, rfl⟩
  | named decl name args =>
    rw [show args = [] from h]
    exact ⟨_, rfl⟩
  | function params result => simp at h
  | vector _ | optional _ | view _ _ | raw _ | array _ _ => cases h
  | _ => exact ⟨_, rfl⟩

def Subst.trees (s : Subst) (table : TypeTable) : ParamId → Ty := fun param =>
  match s.get? param with
  | some id => table.tree id
  | none => .param param

def Subst.Held (s : Subst) (table : TypeTable) : Prop := ∀ param id, s.get? param = some id → table.Holds id

lemma Subst.get?_cons {param other : ParamId} {id : TypeId} :
    Subst.get? ((param, id) :: s) other = if other = param then some id else s.get? other := by
  unfold Subst.get?
  rw [lookup_cons]
  split <;> simp_all

/-- All bound types are in `K`. -/
def Subst.In (s : Subst) (K : TypeId → Prop) : Prop := ∀ param id, s.get? param = some id → K id

lemma Subst.In.cons {K : TypeId → Prop} {param : ParamId} {id : TypeId} (h : s.In K) (hid : K id) :
    Subst.In ((param, id) :: s) K := by
  intro other bound hget
  rw [Subst.get?_cons] at hget
  split at hget
  · cases hget
    exact hid
  · exact h other bound hget

variable {f : TypeId → TypeM TypeId}

namespace TypeM

/-- In every later table the computation gives a handle of a tree and only adds types. -/
def Makes (table : TypeTable) (x : TypeM TypeId) (t : Ty) : Prop :=
  ∀ now, table ≤ now → now ≤ (x now).2 ∧ (x now).2.Holds (x now).1 ∧ (x now).2.tree (x now).1 = t

/-- The same for one handle after the other. -/
def MakesAll (table : TypeTable) (x : TypeM (List TypeId)) (ts : List Ty) : Prop :=
  ∀ now, table ≤ now → now ≤ (x now).2 ∧ (∀ id ∈ (x now).1, (x now).2.Holds id) ∧ (x now).1.map (x now).2.tree = ts

variable {table : TypeTable}

lemma mapM_makes {t : TypeId → Ty} : ∀ {ids : List TypeId},
    (∀ id ∈ ids, Makes table (f id) (t id)) → MakesAll table (ids.mapM f) (ids.map t)
  | [], _ => fun _ _ => ⟨le_rfl, forall_mem_nil _, rfl⟩
  | id :: ids, h => by
    intro now hnow
    obtain ⟨hle, hholds, htree⟩ := h id (by simp) now hnow
    have hrest : ∀ id ∈ ids, Makes table (f id) (t id) := fun id hid => h id (by simp [hid])
    obtain ⟨hle', hholds', htrees⟩ := mapM_makes hrest (f id now).2 (hnow.trans hle)
    rw [mapM_cons]
    refine ⟨hle.trans hle', ?_, ?_⟩
    · exact forall_mem_cons.2 ⟨hholds.mono hle', hholds'⟩
    · rw [map_cons, ← htrees, ← htree, ← tree_eq_of_le hle' _ hholds]
      rfl

lemma isEmpty_mapM (f : TypeId → TypeM TypeId) : (ids.mapM f now).1.isEmpty = ids.isEmpty := by
  cases ids with
  | nil => rfl
  | cons id ids => rw [mapM_cons]; rfl

lemma substFrom_of_parts {id : TypeId} (h : (now.shape id).parts ≠ []) :
    substFrom s (n + 1) id now =
      (do intern ((now.shape id).withParts (← (now.shape id).parts.mapM (substFrom s n)))) now := by
  have hmade (shape : TypeShape) (h : shape.parts ≠ []) :
      (if shape.parts.isEmpty then pure id else do intern (← shape.mapParts (substFrom s n)) : TypeM TypeId) now =
      (do intern (shape.withParts (← shape.parts.mapM (substFrom s n)))) now := by
    rw [if_neg (by simpa using h), TypeShape.mapParts_eq]
    rfl
  rw [substFrom, bindStep, get_bind]
  cases hshape : now.shape id with
  | param _ _ => exact absurd (hshape ▸ rfl) h
  | tuple items =>
    rw [hshape] at h
    have hempty : (items.mapM (substFrom s n) now).1.isEmpty = false := by
      rw [isEmpty_mapM]
      simpa using h
    show (if (items.mapM (substFrom s n) now).1.isEmpty then pure _ else intern _) _ = _
    rw [hempty]
    rfl
  | _ => exact hmade _ (hshape ▸ h)

lemma substFrom_param {id : TypeId} {param : ParamId} (h : now.shape id = .param param name) :
    substFrom s (n + 1) id now = ((s.get? param).getD id, now) := by
  rw [substFrom, bindStep, get_bind, h]
  rfl

lemma substFrom_unit {id : TypeId} (h : now.shape id = .tuple []) : substFrom s (n + 1) id now = (.void, now) := by
  rw [substFrom, bindStep, get_bind, h]
  rfl

lemma substFrom_of_parts_eq_nil {id : TypeId}
    (h : (now.shape id).parts = []) (hparam : ∀ param name, now.shape id ≠ .param param name)
    (hunit : now.shape id ≠ .tuple []) : substFrom s (n + 1) id now = (id, now) := by
  rw [substFrom, bindStep, get_bind]
  cases hshape : now.shape id with
  | param param name => exact absurd hshape (hparam param name)
  | tuple items =>
    rw [hshape] at h
    exact absurd (by rw [hshape, show items = [] from h]) hunit
  | _ =>
    rw [hshape] at h
    dsimp only
    rw [if_pos (by rw [h]; rfl)]
    rfl

end TypeM

/-- `r` is `t` with types in the place of parameters. -/
inductive TypeTable.Puts (table : TypeTable) (g : ParamId → Option TypeId) : TypeId → TypeId → Prop where
  | param {name : String} (h : table.shape t = .param param name) :
    Puts table g t ((g param).getD t)
  | unit (h : table.shape t = .tuple []) : Puts table g t .void
  | leaf (h : (table.shape t).parts = []) (hparam : ∀ param name, table.shape t ≠ .param param name)
    (hunit : table.shape t ≠ .tuple []) : Puts table g t t
  | parts {t r : TypeId} {ids : List TypeId} (hne : (table.shape t).parts ≠ []) (hr : table.Holds r)
    (hshape : table.shape r = (table.shape t).withParts ids) (hlen : ids.length = (table.shape t).parts.length)
    (h : ∀ i, Puts table g ((table.shape t).parts.getD i .error) (ids.getD i .error)) : Puts table g t r

variable {table : TypeTable} {g : ParamId → Option TypeId}

namespace TypeTable.Puts

lemma error : table.Puts g .error .error :=
  .leaf (by rw [shape_error]; rfl) (by simp [shape_error]) (by simp [shape_error])

lemma tree {t r : TypeId} (h : table.Puts s.get? t r) : table.tree r = (table.tree t).subst (s.trees table) := by
  induction h with
  | @param t param name h =>
    have ht : table.tree t = .param param := by rw [tree_eq, h]; rfl
    rw [ht]
    show _ = s.trees table param
    unfold Subst.trees
    cases s.get? param with
    | none => exact ht
    | some bound => rfl
  | unit h =>
    rw [tree_void, tree_eq, h]
    rfl
  | leaf h hparam =>
    obtain ⟨head, hleaf⟩ := treeOf_eq_leaf h hparam
    rw [tree_eq, hleaf, Ty.subst_node, map_nil]
  | @parts t r ids hne _ hshape hlen _ ih =>
    rw [tree_eq, tree_eq, hshape, treeOf_eq_node (TypeShape.parts_withParts_ne_nil hlen hne), treeOf_eq_node hne,
      Ty.subst_node, TypeShape.head_withParts, TypeShape.parts_withParts hlen]
    congr 1
    refine ext_getElem (by simp [hlen]) fun i h h' => ?_
    simp only [length_map] at h h'
    simpa [-TypeShape.parts, h, h'] using ih i

end TypeTable.Puts

namespace TypeM

lemma mapM_puts : ∀ (ids : List TypeId) (now : TypeTable),
    (∀ id ∈ ids, ∀ later, now ≤ later → later ≤ (f id later).2 ∧ (f id later).2.Holds (f id later).1 ∧
      ∀ last, (f id later).2 ≤ last → last.Puts g id (f id later).1) →
    now ≤ (ids.mapM f now).2 ∧ (∀ id ∈ (ids.mapM f now).1, (ids.mapM f now).2.Holds id) ∧
      (ids.mapM f now).1.length = ids.length ∧
      ∀ last, (ids.mapM f now).2 ≤ last → ∀ i, last.Puts g (ids.getD i .error) ((ids.mapM f now).1.getD i .error)
  | [], _, _ => ⟨le_rfl, forall_mem_nil _, rfl, fun _ _ _ => .error⟩
  | id :: ids, now, h => by
    obtain ⟨hle, hholds, hputs⟩ := h id (.head _) now le_rfl
    obtain ⟨hle', hholds', hlen, hputs'⟩ := mapM_puts ids (f id now).2 fun id hid later hlater =>
      h id (.tail _ hid) later (hle.trans hlater)
    rw [mapM_cons]
    refine ⟨hle.trans hle', forall_mem_cons.2 ⟨hholds.mono hle', hholds'⟩,
      congrArg (· + 1) hlen, fun last hlast i => ?_⟩
    cases i with
    | zero => exact hputs last (hle'.trans hlast)
    | succ i => exact hputs' last hlast i

lemma substFrom_puts : ∀ (n : Nat) (id : TypeId) (now : TypeTable), id.index < n →
    now.Holds id → s.Held now → now ≤ (substFrom s n id now).2 ∧
      (substFrom s n id now).2.Holds (substFrom s n id now).1 ∧
      ∀ last, (substFrom s n id now).2 ≤ last → last.Puts s.get? id (substFrom s n id now).1
  | n + 1, id, now, hn, hid, hheld => by
    have hshape {last : TypeTable} (hlast : now ≤ last) : last.shape id = now.shape id :=
      shape_eq_of_le hlast hid
    by_cases hne : (now.shape id).parts = []
    · by_cases hparam : ∃ param name, now.shape id = .param param name
      · obtain ⟨param, name, hkind⟩ := hparam
        rw [substFrom_param hkind]
        refine ⟨le_rfl, ?_, fun last hlast => .param ((hshape hlast).trans hkind)⟩
        cases hget : s.get? param with
        | none => exact hid
        | some bound => exact hheld param bound hget
      · have hparam' := fun param name h => hparam ⟨param, name, h⟩
        by_cases hunit : now.shape id = .tuple []
        · rw [substFrom_unit hunit]
          exact ⟨le_rfl, holds_void, fun last hlast => .unit ((hshape hlast).trans hunit)⟩
        · rw [substFrom_of_parts_eq_nil hne hparam' hunit]
          refine ⟨le_rfl, hid, fun last hlast => ?_⟩
          rw [← hshape hlast] at hne hparam' hunit
          exact .leaf hne hparam' hunit
    · rw [substFrom_of_parts hne]
      obtain ⟨hle, hholds, hlen, hputs⟩ := mapM_puts _ now fun part hpart later hlater =>
        have hlt := now.parts_shape_lt hpart
        substFrom_puts n part later (by omega) ((hid.part hpart).mono hlater)
          fun param bound hget => (hheld param bound hget).mono hlater
      obtain ⟨hle', hholds', hmade⟩ := intern_spec
        ((now.shape id).withParts ((now.shape id).parts.mapM (substFrom s n) now).1)
        ((now.shape id).parts.mapM (substFrom s n) now).2
      rw [TypeShape.parts_withParts hlen] at hmade
      refine ⟨hle.trans hle', hholds', fun last hlast => ?_⟩
      have hlast' := hle'.trans hlast
      have hid' := hshape (hle.trans hlast')
      refine .parts (by rwa [hid']) (hholds'.mono hlast) ?_ (by rw [hid', hlen]) (hid'.symm ▸ hputs last hlast')
      rw [hid']
      exact (shape_eq_of_le hlast hholds').trans (hmade hholds)

lemma subst_makes (hs : s.Held table) {id : TypeId} (hid : table.Holds id) :
    Makes table (TypeM.subst s id) ((table.tree id).subst (s.trees table)) := by
  intro now hnow
  unfold subst
  split
  · rename_i hempty
    rw [List.isEmpty_iff.1 hempty]
    refine ⟨le_rfl, hid.mono hnow, ?_⟩
    show now.tree id = (table.tree id).subst .param
    rw [Ty.subst_param, tree_eq_of_le hnow id hid]
  · obtain ⟨hle, hholds, hputs⟩ := substFrom_puts _ id now (Nat.lt_succ_self _)
      (hid.mono hnow) fun param bound hget => (hs param bound hget).mono hnow
    have hlater := hnow.trans hle
    refine ⟨hle, hholds, (hputs _ le_rfl).tree.trans ?_⟩
    have htrees : s.trees (substFrom s (id.index + 1) id now).2 = s.trees table := by
      funext param
      unfold Subst.trees
      split
      · exact tree_eq_of_le hlater _ (hs _ _ ‹_›)
      · rfl
    rw [htrees, tree_eq_of_le hlater id hid]

end TypeM

namespace TypeM

lemma mapM_le {f : α → TypeM β} (hf : ∀ a now, now ≤ (f a now).2) :
    ∀ (l : List α) (now : TypeTable), now ≤ (l.mapM f now).2
  | [], _ => le_rfl
  | a :: l, now => by
    rw [mapM_cons]
    exact (hf a now).trans (mapM_le hf l (f a now).2)

lemma substFrom_table_of_parts_eq_nil {id : TypeId}
    (h : (now.shape id).parts = []) : (substFrom s (n + 1) id now).2 = now := by
  by_cases hparam : ∃ param name, now.shape id = .param param name
  · obtain ⟨param, name, hshape⟩ := hparam
    rw [substFrom_param hshape]
  · by_cases hunit : now.shape id = .tuple []
    · rw [substFrom_unit hunit]
    · rw [substFrom_of_parts_eq_nil h (fun param name h => hparam ⟨param, name, h⟩) hunit]

lemma substFrom_le : ∀ n id now, now ≤ (substFrom s n id now).2
  | 0, _, _ => le_rfl
  | n + 1, id, now => by
    by_cases hne : (now.shape id).parts = []
    · rw [substFrom_table_of_parts_eq_nil hne]
    · rw [substFrom_of_parts hne]
      exact (mapM_le (substFrom_le n) _ now).trans (intern_spec _ _).1

lemma subst_le (s : Subst) (id : TypeId) (now : TypeTable) : now ≤ (subst s id now).2 := by
  unfold subst
  split
  · exact le_rfl
  · exact substFrom_le _ id now

end TypeM

/-! ## What all shapes of a table have -/

/-- A property that a shape keeps with other parts, if there are some where there were some. -/
def TypeShape.Stable (Q : TypeShape → Prop) : Prop :=
  ∀ shape ids, Q shape → ids.isEmpty = shape.parts.isEmpty → Q (shape.withParts ids)

def TypeTable.All (Q : TypeShape → Prop) (table : TypeTable) : Prop := ∀ shape ∈ table.shapes, Q shape

lemma TypeTable.All.intern {Q : TypeShape → Prop} {table : TypeTable} (h : table.All Q) (hshape : Q shape) :
    (table.intern shape).2.All Q := by
  unfold TypeTable.intern
  split
  · exact h
  · split
    · intro other hother
      rcases Array.mem_push.1 hother with hother | rfl
      · exact h other hother
      · exact hshape
    · exact h

namespace TypeM

variable {Q : TypeShape → Prop}

lemma mapM_all {f : TypeId → TypeM TypeId} (hf : ∀ id now, now.All Q → (f id now).2.All Q) :
    ∀ (ids : List TypeId) (now : TypeTable), now.All Q → (ids.mapM f now).2.All Q
  | [], _, h => h
  | id :: ids, now, h => by
    rw [mapM_cons]
    exact mapM_all hf ids (f id now).2 (hf id now h)

lemma substFrom_all (hstable : TypeShape.Stable Q) : ∀ n id (now : TypeTable),
    now.All Q → (substFrom s n id now).2.All Q
  | 0, _, _, h => h
  | n + 1, id, now, h => by
    by_cases hne : (now.shape id).parts = []
    · rw [substFrom_table_of_parts_eq_nil hne]
      exact h
    · have hid : now.Holds id := holds_of_shape fun herror => hne (by rw [herror]; rfl)
      rw [substFrom_of_parts hne]
      exact (mapM_all (substFrom_all hstable n) _ now h).intern
        (hstable _ _ (h _ (Array.mem_of_getElem? (getElem?_shapes hid))) (isEmpty_mapM _))

lemma subst_all (hstable : TypeShape.Stable Q) (s : Subst) (id : TypeId) (now : TypeTable) (h : now.All Q) :
    (subst s id now).2.All Q := by
  unfold subst
  split
  · exact h
  · exact substFrom_all hstable _ id now h

end TypeM

/-! ## Types that bindings do not change -/

namespace TypeTable

/-- Whether binding generics leaves the type as it is: no parameter occurs in it, and no empty
tuple, which is made anew as `void`. -/
def isFixed (table : TypeTable) (id : TypeId) : Bool := !table.any (fun | .param .. | .tuple [] => true | _ => false) id

lemma any_congr_of_mem {f g : TypeId → Bool} (h : ∀ id ∈ ids, f id = g id) : ids.any f = ids.any g := by
  rw [Bool.eq_iff_iff, any_eq_true, any_eq_true]
  exact exists_congr fun id => and_congr_right fun hid => by rw [h id hid]

/-- Whether a shape with the property occurs in a type, given whether one does in its parts. -/
def anyStep (table : TypeTable) (p : TypeShape → Bool) (rec : TypeId → Bool) (id : TypeId) : Bool :=
  p (table.shape id) || (table.shape id).parts.any rec

lemma descends_any (table : TypeTable) (p : TypeShape → Bool) : Descends (table.anyStep p) (table.any p) :=
  descends_of_bounded (table.anyFrom p) (fun _ _ => rfl) fun id rec rec' h => by
    unfold anyStep
    rw [any_congr_of_mem fun part hpart => h part (table.parts_shape_lt hpart)]

lemma any_eq (table : TypeTable) (f : TypeShape → Bool) (id : TypeId) :
    table.any f id = (f (table.shape id) || (table.shape id).parts.any (table.any f)) :=
  (table.descends_any f id _ fun _ _ => rfl).symm

lemma any_part {f : TypeShape → Bool} {id part : TypeId} (h : table.any f id = false)
    (hpart : part ∈ (table.shape id).parts) : table.any f part = false := by
  rw [any_eq, Bool.or_eq_false_iff, any_eq_false] at h
  simpa using h.2 part hpart

lemma any_mono {f g : TypeShape → Bool} (h : ∀ shape, f shape → g shape) {id : TypeId} (hf : table.any f id) :
    table.any g id := by
  rw [any_eq, Bool.or_eq_true, any_eq_true] at hf ⊢
  refine hf.imp (h _) fun ⟨part, hpart, hfound⟩ => ⟨part, hpart, ?_⟩
  have := table.parts_shape_lt hpart
  exact any_mono h hfound
termination_by id.index

lemma mentions_iff {id : ParamId} {t : TypeId} : table.mentions [id] t ↔
    (∃ name, table.shape t = .param id name) ∨ ∃ x ∈ (table.shape t).parts, table.mentions [id] x := by
  rw [mentions, any_eq, Bool.or_eq_true, any_eq_true]
  refine or_congr_left ⟨fun h => ?_, fun ⟨name, h⟩ => by simp [h]⟩
  split at h
  · rename_i p name hshape
    rw [contains_iff_mem, mem_singleton] at h
    exact ⟨name, by rw [hshape, h]⟩
  · cases h

lemma isFixed_error : table.isFixed .error := by
  unfold isFixed
  rw [any_eq, shape_error]
  rfl

lemma eq_of_shape_eq {x y : TypeId} (hx : table.Holds x) (hy : table.Holds y)
    (h : table.shape x = table.shape y) : x = y :=
  Option.some.inj ((find?_eq_some_iff.2 ⟨hx, h⟩).symm.trans (find?_eq_some_iff.2 ⟨hy, rfl⟩))

lemma intern_shape {id : TypeId} (h : table.Holds id) : table.intern (table.shape id) = (id, table) := by
  have hfound := find?_eq_some_iff.2 ⟨h, rfl⟩
  unfold intern
  split
  · rename_i found hfind
    rw [Option.some.inj (hfind.symm.trans hfound)]
  · rename_i hfind
    cases hfind.symm.trans hfound

end TypeTable

lemma TypeShape.withParts_parts : shape.withParts shape.parts = shape := by cases shape <;> simp [withParts, parts]

namespace TypeM

lemma mapM_settled : ∀ {ids made : List TypeId}, made.length = ids.length →
    (∀ i, i < ids.length → f (ids.getD i .error) now = (made.getD i .error, now)) → ids.mapM f now = (made, now)
  | [], [], _, _ => rfl
  | id :: ids, made :: all, hlen, h => by
    have hrest : ids.mapM f now = (all, now) :=
      mapM_settled (Nat.succ.inj hlen) fun i hi => h (i + 1) (Nat.succ_lt_succ hi)
    have hfirst : f id now = (made, now) := h 0 (Nat.succ_pos _)
    rw [mapM_cons]
    show ((f id now).1 :: (ids.mapM f (f id now).2).1, (ids.mapM f (f id now).2).2) = _
    rw [hfirst, hrest]

lemma substFrom_of_puts : ∀ (n : Nat) {id r : TypeId}, id.index < n → now.Puts s.get? id r →
    substFrom s n id now = (r, now)
  | n + 1, id, r, hn, h => by
    cases h with
    | param h => exact substFrom_param h
    | unit h => exact substFrom_unit h
    | leaf h hparam hunit => exact substFrom_of_parts_eq_nil h hparam hunit
    | @parts _ _ ids hne hr hshape hlen h =>
      have hparts := mapM_settled hlen fun i hi => by
        have hlt := now.parts_shape_lt (getElem_mem hi)
        exact substFrom_of_puts n (by simp only [List.getD, getElem?_eq_getElem hi, Option.getD_some]; omega) (h i)
      rw [substFrom_of_parts hne, run_bind, hparts, ← hshape]
      exact intern_shape hr

end TypeM

lemma TypeTable.puts_self {id : TypeId} (hid : now.Holds id)
    (hfree : ∀ param, now.mentions [param] id → g param = none) (hunit : now.any (· == .tuple []) id = false) :
    now.Puts g id id := by
  by_cases hne : (now.shape id).parts = []
  · by_cases hparam : ∃ param name, now.shape id = .param param name
    · obtain ⟨param, name, hshape⟩ := hparam
      have hputs := Puts.param (g := g) hshape
      rwa [hfree param (mentions_iff.2 (.inl ⟨name, hshape⟩))] at hputs
    · refine .leaf hne (fun param name h => hparam ⟨param, name, h⟩) fun h => ?_
      simp [any_eq, h] at hunit
  · refine .parts hne hid TypeShape.withParts_parts.symm rfl fun i => ?_
    by_cases hi : i < (now.shape id).parts.length
    · have hpart := getElem_mem hi
      have hlt := now.parts_shape_lt hpart
      rw [List.getD, getElem?_eq_getElem hi, Option.getD_some]
      exact puts_self (hid.part hpart) (fun param h => hfree param (mentions_iff.2 (.inr ⟨_, hpart, h⟩))) (any_part hunit hpart)
    · rw [List.getD, getElem?_eq_none (by omega), Option.getD_none]
      exact .error
termination_by id.index

namespace TypeM

lemma subst_self {id : TypeId} (hid : now.Holds id) (hfree : ∀ param, now.mentions [param] id → s.get? param = none)
    (hunit : now.any (· == .tuple []) id = false) : subst s id now = (id, now) := by
  unfold subst
  split
  · rfl
  · exact substFrom_of_puts _ (Nat.lt_succ_self _) (puts_self hid hfree hunit)

lemma subst_of_isFixed {id : TypeId} (hid : now.Holds id) (hfixed : now.isFixed id) : subst s id now = (id, now) := by
  rw [isFixed, Bool.not_eq_true', ← Bool.not_eq_true] at hfixed
  refine subst_self hid (fun param h => absurd (any_mono (fun shape h => ?_) h) hfixed)
    (Bool.eq_false_iff.2 fun h => hfixed (any_mono (fun shape h => ?_) h))
  · cases shape <;> first | rfl | cases h
  · rw [eq_of_beq h]

end TypeM

/-! ## Looking at types in a later table -/

namespace TypeTable

variable {a b : TypeTable} {id : TypeId}

lemma optionalInner?_eq_of_le (hab : a ≤ b) (h : a.Holds id) : b.optionalInner? id = a.optionalInner? id := by
  unfold optionalInner?
  rw [shape_eq_of_le hab h]

lemma any_eq_of_le (hab : a ≤ b) (f : TypeShape → Bool) (id : TypeId) (h : a.Holds id) : b.any f id = a.any f id := by
  rw [any_eq, any_eq, shape_eq_of_le hab h]
  congr 1
  refine any_congr_of_mem fun part hpart => ?_
  have hlt := a.parts_shape_lt hpart
  exact any_eq_of_le hab f part (h.part hpart)
termination_by id.index

lemma isFixed_of_le (hab : a ≤ b) (h : a.Holds id) (hfixed : a.isFixed id) : b.isFixed id := by
  unfold isFixed at hfixed ⊢
  rwa [any_eq_of_le hab _ id h]

lemma stripViewsFrom_eq_of_le (hab : a ≤ b) : ∀ n id, a.Holds id →
    b.stripViewsFrom n id = a.stripViewsFrom n id ∧ a.Holds (a.stripViewsFrom n id)
  | 0, _, h => ⟨rfl, h⟩
  | n + 1, id, h => by
    unfold stripViewsFrom
    rw [shape_eq_of_le hab h]
    split
    · rename_i inner hshape
      exact stripViewsFrom_eq_of_le hab n inner (h.part (by simp [hshape]))
    · exact ⟨rfl, h⟩

lemma Holds.stripViews (h : a.Holds id) : a.Holds (a.stripViews id) := (stripViewsFrom_eq_of_le le_rfl _ id h).2

lemma coercesFrom_eq_of_le (hab : a ≤ b) : ∀ n source target,
    a.Holds source → a.Holds target → b.coercesFrom n source target = a.coercesFrom n source target
  | 0, _, _, _, _ => rfl
  | n + 1, source, target, hsource, htarget => by
    have hdown : ∀ x ∈ (a.shape source).parts, ∀ y ∈ (a.shape target).parts,
        b.coercesFrom n x y = a.coercesFrom n x y := fun x hx y hy =>
      coercesFrom_eq_of_le hab n x y (hsource.part hx) (htarget.part hy)
    have hright : ∀ y ∈ (a.shape target).parts, b.coercesFrom n source y = a.coercesFrom n source y := fun y hy =>
      coercesFrom_eq_of_le hab n source y hsource (htarget.part hy)
    unfold coercesFrom coercesStep
    rw [shape_eq_of_le hab hsource, shape_eq_of_le hab htarget]
    congr 1
    split <;> simp_all

lemma coerces_eq_of_le (hab : a ≤ b) {source target : TypeId} (hsource : a.Holds source)
    (htarget : a.Holds target) : b.coerces source target = a.coerces source target :=
  coercesFrom_eq_of_le hab _ source target hsource htarget

/-- Two matchings do the same from bindings in `K`, and bind what is in `K`. -/
def Agree (K : TypeId → Prop) (x y : StateM Subst Bool) : Prop := ∀ s : Subst, s.In K → x s = y s ∧ Subst.In (y s).2 K

variable {pattern actual : TypeId}

section

variable {K : TypeId → Prop}

lemma Agree.pure (v : Bool) : Agree K (Pure.pure v) (Pure.pure v) := fun _ hs => ⟨rfl, hs⟩

lemma Agree.andThen (h : Agree K x y) (h' : Agree K x' y') :
    Agree K (do if ← x then x' else return false) (do if ← y then y' else return false) := by
  intro s hs
  obtain ⟨heq, hheld⟩ := h s hs
  show (if (x s).1 then x' else Pure.pure false) (x s).2 = (if (y s).1 then y' else Pure.pure false) (y s).2 ∧
    Subst.In ((if (y s).1 then y' else Pure.pure false) (y s).2).2 K
  rw [heq]
  split
  · exact h' _ hheld
  · exact ⟨rfl, hheld⟩

lemma Agree.allM {f g : TypeId → TypeId → StateM Subst Bool} : ∀ {xs ys},
    (∀ x ∈ xs, ∀ y ∈ ys, Agree K (f x y) (g x y)) → Agree K (allM f xs ys) (allM g xs ys)
  | [], _, _ | _ :: _, [], _ => fun _ hs => ⟨rfl, hs⟩
  | x :: xs, y :: ys, h => by
    have hrest : ∀ x' ∈ xs, ∀ y' ∈ ys, Agree K (f x' y') (g x' y') :=
      fun x' hx y' hy => h x' (by simp [hx]) y' (by simp [hy])
    exact (h x (by simp) y (by simp)).andThen (.allM hrest)

/-- Matching in a later table with a type in `K`, which has the parts of what is in it. -/
lemma matchesFrom_agree (hab : a ≤ b) (hK : ∀ id, K id → a.Holds id ∧ ∀ part ∈ (a.shape id).parts, K part) :
    ∀ n pattern actual, a.Holds pattern ∨ b = a → K actual →
      Agree K (b.matchesFrom n pattern actual) (a.matchesFrom n pattern actual)
  | 0, _, _, _, _ => .pure _
  | n + 1, pattern, actual, hpattern, hactual => by
    have hparts : ∀ x ∈ (a.shape pattern).parts, ∀ y ∈ (a.shape actual).parts,
        Agree K (b.matchesFrom n x y) (a.matchesFrom n x y) := fun x hx y hy =>
      matchesFrom_agree hab hK n x y (hpattern.imp_left (·.part hx)) ((hK _ hactual).2 y hy)
    have hinner : ∀ x ∈ (a.shape pattern).parts,
        Agree K (b.matchesFrom n x actual) (a.matchesFrom n x actual) := fun x hx =>
      matchesFrom_agree hab hK n x actual (hpattern.imp_left (·.part hx)) hactual
    have hheld := (hK _ hactual).1
    have hsame : b.shape pattern = a.shape pattern ∧ b.coerces actual pattern = a.coerces actual pattern := by
      rcases hpattern with hpattern | rfl
      · exact ⟨shape_eq_of_le hab hpattern, coerces_eq_of_le hab hheld hpattern⟩
      · exact ⟨rfl, rfl⟩
    unfold matchesFrom matchStep
    rw [hsame.1, hsame.2, shape_eq_of_le hab hheld]
    split
    · exact .pure _
    · split
      · rename_i param _ _
        intro s hs
        rw [get_bind, get_bind]
        cases hget : s.get? param with
        | some bound =>
          dsimp only
          rw [coerces_eq_of_le hab hheld (hK _ (hs param bound hget)).1]
          exact ⟨rfl, hs⟩
        | none => exact ⟨rfl, hs.cons hactual⟩
      all_goals rename_i hp ht
      · rw [hp, ht] at hparts
        split
        · exact .allM hparts
        · exact .pure _
      iterate 2
        · exact hparts _ (by simp [hp]) _ (by simp [ht])
      · exact hinner _ (by simp [hp])
      · exact hparts _ (by simp [hp]) _ (by simp [ht])
      · split
        · exact hparts _ (by simp [hp]) _ (by simp [ht])
        · exact .pure _
      · exact (hparts _ (by simp [hp]) _ (by simp [ht])).andThen
          (hparts _ (by simp [hp]) _ (by simp [ht]))
      · rw [hp, ht] at hparts
        split
        · exact .allM hparts
        · exact .pure _
      · split
        · refine (Agree.allM fun x hx y hy => hparts x ?_ y ?_).andThen (hparts _ ?_ _ ?_) <;>
            simp_all
        · exact .pure _
      · exact .pure _

lemma matchTypes_in (hK : ∀ id, K id → a.Holds id ∧ ∀ part ∈ (a.shape id).parts, K part)
    (hactual : K actual) (hs : s.In K) : Subst.In ((a.matchTypes pattern actual).run s).2 K :=
  (matchesFrom_agree le_rfl hK _ pattern actual (.inr rfl) hactual s hs).2

end

lemma match?_eq_of_le (hab : a ≤ b) (hpattern : a.Holds pattern)
    (hactual : a.Holds actual) : b.match? pattern actual = a.match? pattern actual := by
  have hempty : Subst.In [] a.Holds := fun _ _ h => nomatch h
  have hrun := (matchesFrom_agree hab (fun _ h => ⟨h, fun _ => h.part⟩) (pattern.index + 1) pattern actual (.inl hpattern)
    hactual [] hempty).1
  unfold match? matchTypes StateT.run
  rw [hrun]

end TypeTable

end Kite
