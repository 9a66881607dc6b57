/-
No two emitted declarations have the same name: functions at their arguments, types and globals. That
takes names that can be read back, since a `_` may stand in a declared name as well as between the
parts of an emitted one: a function `S_get` has the name of the method `get` of `S`.
-/
import Kite.Proofs.Emission.Success
import Kite.Proofs.Instance.Recorded

namespace Kite

open Naming List TypeTable Bool Program

variable {decl : DefId} {args : List TypeId} {i : Instance}

inductive Emitted where
  | function (i : Instance)
  | type (id : TypeId)
  | global (decl : DefId)
  deriving DecidableEq

def Instances.emitted (instances : Instances) : List Emitted :=
  instances.functions.map .function ++ instances.types.map .type ++ instances.globals.map .global

def Emitted.name (n : Naming) (q : Program) : Emitted → String
  | .function i => i.name
  | .type id => n.typeName q id
  | .global decl => n.base q decl

/-! ## Plain names -/

/-- A method whose name tells the arguments of its implementation. -/
@[mk_iff]
structure PlainMethod (p : Program) (decl : DefId) (impl : ImplDef) : Prop where
  target : p.isProper impl.generics impl.target
  /-- The generics of the implementation are the first ones of the method. -/
  generics : impl.generics.length ≤ (p.genericsOf decl).length
  nodup : (impl.generics.map (·.id)).Nodup
  bound : ∀ g ∈ impl.generics, g.id ∈ (p.types.tree impl.target).params
  /-- No `_` stands at an end of the name or next to another one. -/
  name : [] ∉ segments (p.defName decl)

/-- The declarations that names begin with: types, functions that are no methods, globals. -/
def Program.declared (p : Program) (functions : List Instance) (globals : List DefId) : List DefId :=
  p.typeDecls ++ (functions.map (·.decl)).filter (fun decl => (p.owner? decl).isNone) ++ globals

/-- What makes the names of functions, types and globals differ. -/
@[mk_iff]
structure PlainNames (p : Program) (n : Naming) (functions : List Instance) (globals : List DefId) :
    Prop where
  regular : ∀ shape ∈ p.types.shapes, p.isRegular shape
  readable : Readable n p (p.declared functions globals)
  globals : ∀ decl ∈ globals, (p.global? decl).isSome
  methods : ∀ i ∈ functions, ∀ impl ∈ p.owner? i.decl, PlainMethod p i.decl impl
  /-- Methods of the same name are for types that differ. -/
  overlaps : ∀ i ∈ functions, ∀ j ∈ functions, i.decl ≠ j.decl →
    p.defName i.decl = p.defName j.decl → ∀ a ∈ p.owner? i.decl, ∀ b ∈ p.owner? j.decl,
      (p.types.tree a.target).clash (p.types.tree b.target)

instance (p : Program) (decl : DefId) (impl : ImplDef) : Decidable (PlainMethod p decl impl) :=
  decidable_of_iff' _ (plainMethod_iff p decl impl)

instance (n : Naming) (p : Program) (declared : List DefId) : Decidable (Readable n p declared) :=
  decidable_of_iff' _ (readable_iff n p declared)

instance (p : Program) (n : Naming) (functions : List Instance) (globals : List DefId) :
    Decidable (PlainNames p n functions globals) :=
  decidable_of_iff' _ (plainNames_iff p n functions globals)

/-! ## What is emitted has its name -/

structure Instances.Named (instances : Instances) (p : Program) (n : Naming) (q : Program) : Prop where
  regular : p.Regular q.types
  types : ∀ id ∈ instances.types, (q.types.shape id).isNamed
  functions : ∀ i ∈ instances.functions, ∃ table f, table ≤ q.types ∧ Instance.NamedAt p n table i f

variable {instances : Instances}

open Instance in
lemma collectInstances_named {entry : UnitId}
    (hrun : collectInstances p entry = some (instances, q)) (htargets : p.TargetsHeld) (hreg : p.Regular p.types)
    (hfunctions : ∀ i ∈ instances.functions, p.emittableFunction i.decl)
    (htypes : ∀ id ∈ instances.types, p.emittableType (q.types.shape id))
    (hglobals : ∀ decl ∈ instances.globals, p.emittableGlobal decl) : instances.Named p { entry } q := by
  obtain ⟨bound, _, rfl, -, rfl, rfl, hchecked⟩ := checked_collectInstances hrun hfunctions htypes hglobals
  have hrecorded := recorded_search htargets hreg hchecked
  exact ⟨hrecorded.regular, fun id hid => hrecorded.sound.types id (Search.mem_types.1 hid),
    fun i hi => hrecorded.functions i (Search.mem_functions.1 hi)⟩

section Labels

variable {p : Program} {n : Naming} {table : TypeTable} {functions : List Instance} {globals : List DefId}

variable {generics : List Generic}

lemma FitsAll.concrete (h : FitsAll p table generics args) : ∀ arg ∈ args, Concrete p table arg := by
  intro arg harg
  obtain ⟨k, hk, rfl⟩ := mem_iff_getElem.1 harg
  have hk' : k < generics.length := h.length ▸ hk
  have hmem : (generics[k], args[k]) ∈ generics.zip args :=
    mem_iff_getElem.2 ⟨k, by rw [length_zip]; omega, getElem_zip⟩
  exact (h.each _ _ hmem).concrete

lemma genericsOf_of_function (h : p.function? decl = some f) : p.genericsOf decl = f.generics := by
  unfold function? at h
  unfold genericsOf
  split at h
  · rename_i g hkind
    cases h
    rw [hkind]
  · cases h

structure IsInstance (p : Program) (table : TypeTable) (functions : List Instance) (i : Instance) :
    Prop where
  mem : i ∈ functions
  function : (p.function? i.decl).isSome
  args : ∀ arg ∈ i.args, Concrete p table arg
  length : i.args.length = (p.genericsOf i.decl).length

lemma isReceiver_subst {impl : ImplDef} (hproper : p.isProper impl.generics impl.target)
    (hlen : impl.generics.length ≤ args.length) (hargs : ∀ arg ∈ args, Concrete p table arg) :
    IsReceiver p (p.types.shape impl.target).isNamed
      ((p.types.tree impl.target).subst (.bindOpen impl.generics (args.map table.tree))) := by
  rw [← trees_bindings]
  refine ⟨⟨Ty.proper_subst (fun id hid => ?_) hproper, Ty.formed_subst (fun id => ?_)
    (p.types.formed_tree _)⟩, fun hnamed => ?_⟩
  · obtain ⟨arg, hget, harg⟩ := exists_binding hlen hargs hid
    unfold Subst.trees
    rw [hget]
    exact harg
  · unfold Subst.trees
    split
    · exact table.formed_tree _
    · rfl
  · cases hshape : p.types.shape impl.target with
    | named decl name parts =>
      rw [p.types.tree_eq, hshape]
      exact ⟨decl, _, Ty.subst_node _ _ _⟩
    | _ =>
      rw [hshape] at hnamed
      cases hnamed

lemma valid_functionLabel (hplain : PlainNames p n functions globals) (hi : IsInstance p table functions i) :
    (p.functionLabel i.decl (i.args.map table.tree)).Valid p (p.declared functions globals) := by
  have hground : ∀ t ∈ i.args.map table.tree, t.Ground p := by
    intro t ht
    obtain ⟨arg, harg, rfl⟩ := mem_map.1 ht
    exact (hi.args arg harg).ground
  unfold functionLabel
  cases howner : p.owner? i.decl with
  | some impl =>
    have hmethod := hplain.methods i hi.mem impl howner
    have hlen := hi.length ▸ hmethod.generics
    exact ⟨isReceiver_subst hmethod.target hlen hi.args, hmethod.name, fun t ht => hground t (mem_of_mem_drop ht)⟩
  | none =>
    refine ⟨?_, hground⟩
    refine mem_append_left _ (mem_append_right _ (mem_filter.2 ⟨?_, ?_⟩))
    · exact mem_map_of_mem hi.mem
    · rw [howner]
      rfl

lemma map_bindOpen (hnodup : (generics.map (·.id)).Nodup) {args : List Ty} (hlen : generics.length ≤ args.length) :
    generics.map (fun g => Ty.bindOpen generics args g.id) = args.take generics.length := by
  induction generics generalizing args with
  | nil => rfl
  | cons g generics ih =>
    cases args with
    | nil => cases hlen
    | cons arg args =>
      rw [map_cons, nodup_cons] at hnodup
      have hrest : ∀ h ∈ generics, Ty.bindOpen (g :: generics) (arg :: args) h.id = Ty.bindOpen generics args h.id := by
        intro h hh
        have hne : (h.id == g.id) = false := by
          rw [beq_eq_false_iff_ne]
          exact fun heq => hnodup.1 (heq ▸ mem_map_of_mem hh)
        unfold Ty.bindOpen
        rw [map_cons, zip_cons_cons, lookup_cons, hne]
      rw [map_cons, map_congr_left hrest, ih hnodup.2 (Nat.le_of_succ_le_succ hlen)]
      unfold Ty.bindOpen
      rw [map_cons, zip_cons_cons, lookup_cons, beq_self_eq_true]
      rfl

lemma args_eq_of_receiver_eq (hmethod : PlainMethod p decl impl) (ha : as.length = (p.genericsOf decl).length)
    (hb : bs.length = (p.genericsOf decl).length)
    (hreceiver : (p.types.tree impl.target).subst (.bindOpen impl.generics as) =
      (p.types.tree impl.target).subst (.bindOpen impl.generics bs))
    (hrest : as.drop impl.generics.length = bs.drop impl.generics.length) : as = bs := by
  have htake : as.take impl.generics.length = bs.take impl.generics.length := by
    rw [← map_bindOpen hmethod.nodup (ha ▸ hmethod.generics), ← map_bindOpen hmethod.nodup (hb ▸ hmethod.generics)]
    exact map_congr_left fun g hg => Ty.eq_of_subst_eq hreceiver g.id (hmethod.bound g hg)
  rw [← take_append_drop impl.generics.length as, htake, hrest, take_append_drop]

lemma eq_of_functionLabel_same (hplain : PlainNames p n functions globals) (hreg : p.Regular table)
    (hi : IsInstance p table functions i) (hj : IsInstance p table functions j)
    (h : (p.functionLabel i.decl (i.args.map table.tree)).Same (p.functionLabel j.decl (j.args.map table.tree))) :
    i.decl = j.decl ∧ i.args = j.args := by
  have hargs (hmap : i.args.map table.tree = j.args.map table.tree) : i.args = j.args :=
    map_tree_inj (fun a ha b hb => eq_of_tree_eq hreg (hi.args a ha) (hj.args b hb)) hmap
  unfold functionLabel at h
  cases howner : p.owner? i.decl with
  | none =>
    rw [howner] at h
    cases howner' : p.owner? j.decl with
    | none =>
      rw [howner'] at h
      exact ⟨h.1, hargs h.2⟩
    | some impl =>
      rw [howner'] at h
      exact h.elim
  | some impl =>
    rw [howner] at h
    cases howner' : p.owner? j.decl with
    | none =>
      rw [howner'] at h
      exact h.elim
    | some other =>
      rw [howner'] at h
      obtain ⟨hreceiver, hname, hrest⟩ := h
      by_cases hdecl : i.decl = j.decl
      · rw [hdecl, howner'] at howner
        cases howner
        refine ⟨hdecl, hargs (args_eq_of_receiver_eq (hplain.methods j hj.mem impl howner') ?_ ?_ hreceiver hrest)⟩
        · rw [length_map, hi.length, hdecl]
        · rw [length_map, hj.length]
      · have hclash := hplain.overlaps i hi.mem j hj.mem hdecl hname impl howner other howner'
        exact absurd hreceiver (Ty.subst_ne_of_clash hclash)

lemma segments_instanceName (hplain : PlainNames p n functions globals) {now : TypeTable}
    (hi : i ∈ functions) (hnamed : Instance.NamedAt p n now i f) (hle : now ≤ table) : segments i.name =
    n.labelSegments p (p.functionLabel i.decl (i.args.map table.tree)) := by
  have hargs := hnamed.args.concrete
  have htrees := map_congr_left fun arg harg => tree_eq_of_le hle arg (hargs arg harg).holds
  rw [htrees, hnamed.name]
  refine segments_functionName hnamed.regular hnamed.le hnamed.function hnamed.isForeign hargs fun impl himpl => ?_
  have hmethod := hplain.methods i hi impl himpl
  refine ⟨hmethod.target, ?_⟩
  rw [hnamed.args.length, ← genericsOf_of_function hnamed.function]
  exact hmethod.generics

/-- A declaration that is emitted, and what its name is made of. -/
inductive Labelled (p : Program) (table : TypeTable) (functions : List Instance) :
    Emitted → Label → Prop
  | function {i : Instance} (isInstance : IsInstance p table functions i) :
      Labelled p table functions (.function i) (p.functionLabel i.decl (i.args.map table.tree))
  | type {id : TypeId} {decl : DefId} {name : String} {args : List TypeId}
      (concrete : Concrete p table id) (shape : table.shape id = .named decl name args) :
      Labelled p table functions (.type id) (.declared decl (args.map table.tree))
  | global {decl : DefId} (global : (p.global? decl).isSome) :
      Labelled p table functions (.global decl) (.declared decl [])

lemma tree_of_named {id : TypeId} {name : String} (h : table.shape id = .named decl name args) :
    table.tree id = .node (.named decl) (args.map table.tree) := by
  rw [table.tree_eq, h]
  rfl

lemma not_function_of_global (h : (p.global? decl).isSome) :
    (p.function? decl).isSome = false ∧ p.declaresType decl = false := by
  unfold global? at h
  unfold function? declaresType
  cases hkind : (p.getDef decl).kind <;> simp_all

lemma not_function_of_type (h : p.declaresType decl) : (p.function? decl).isSome = false := by
  unfold declaresType at h
  unfold function?
  cases hkind : (p.getDef decl).kind <;> simp_all

namespace Labelled

variable {a b : Emitted} {la lb : Label}

lemma declaresType {id : TypeId} {name : String} (hid : Concrete p table id)
    (hshape : table.shape id = .named decl name args) : p.declaresType decl := by
  have hmakes := hid.makesType hshape
  rw [makesType_named, and_eq_true] at hmakes
  exact hmakes.1

lemma not_same_of_not_function (hi : IsInstance p table functions i) {args : List Ty}
    (h : (p.function? decl).isSome = false) :
    ¬ (p.functionLabel i.decl (i.args.map table.tree)).Same (.declared decl args) ∧
    ¬ (Label.declared decl args).Same (p.functionLabel i.decl (i.args.map table.tree)) := by
  have hdecl : i.decl ≠ decl := by
    intro heq
    rw [← heq, hi.function] at h
    cases h
  unfold functionLabel
  cases p.owner? i.decl with
  | none => exact ⟨fun hsame => hdecl hsame.1, fun hsame => hdecl hsame.1.symm⟩
  | some impl => exact ⟨fun hsame => hsame, fun hsame => hsame⟩

lemma eq_of_same (hplain : PlainNames p n functions globals) (hreg : p.Regular table)
    (ha : Labelled p table functions a la) (hb : Labelled p table functions b lb)
    (hname : a.name n q = b.name n q) (h : la.Same lb) : a = b := by
  cases ha with
  | @function i hi =>
    cases hb with
    | @function j hj =>
      obtain ⟨hdecl, hargs⟩ := eq_of_functionLabel_same hplain hreg hi hj h
      have hij : i = j := by
        cases i
        cases j
        cases hdecl
        cases hargs
        cases hname
        rfl
      rw [hij]
    | type hid hshape => exact absurd h (not_same_of_not_function hi (not_function_of_type (declaresType hid hshape))).1
    | global hglobal => exact absurd h (not_same_of_not_function hi (not_function_of_global hglobal).1).1
  | @type id decl _ _ hid hshape =>
    cases hb with
    | function hj => exact absurd h (not_same_of_not_function hj (not_function_of_type (declaresType hid hshape))).2
    | type hid' hshape' =>
      refine congrArg Emitted.type (eq_of_tree_eq hreg hid hid' ?_)
      rw [tree_of_named hshape, tree_of_named hshape', h.1, h.2]
    | global hglobal =>
      have hkind := (not_function_of_global hglobal).2
      rw [← h.1, declaresType hid hshape] at hkind
      cases hkind
  | global hglobal =>
    cases hb with
    | function hj => exact absurd h (not_same_of_not_function hj (not_function_of_global hglobal).1).2
    | type hid hshape =>
      have hkind := (not_function_of_global hglobal).2
      rw [h.1, declaresType hid hshape] at hkind
      cases hkind
    | global hglobal' => rw [h.1]

end Labelled

end Labels

lemma exists_labelled (hclosed : instances.Closed p q) (hnamed : instances.Named p n q)
    (hplain : PlainNames p n instances.functions instances.globals) (he : e ∈ instances.emitted) : ∃ label,
    Labelled p q.types instances.functions e label ∧ label.Valid p (p.declared instances.functions instances.globals) ∧
    segments (e.name n q) = n.labelSegments p label := by
  unfold Instances.emitted at he
  rw [mem_append, mem_append, mem_map, mem_map, mem_map] at he
  rcases he with (⟨i, hi, rfl⟩ | ⟨id, hid, rfl⟩) | ⟨decl, hdecl, rfl⟩
  · obtain ⟨table, f, hle, hat⟩ := hnamed.functions i hi
    have hinstance : IsInstance p q.types instances.functions i := by
      refine ⟨hi, by rw [hat.function]; rfl, fun arg harg => (hat.args.concrete arg harg).mono hle, ?_⟩
      rw [hat.args.length, genericsOf_of_function hat.function]
    exact ⟨_, .function hinstance, valid_functionLabel hplain hinstance, segments_instanceName hplain hi hat hle⟩
  · have hconcrete := hclosed.types id hid
    have hshape := hnamed.types id hid
    cases hnameShape : q.types.shape id with
    | named decl name args =>
      have htree := tree_of_named hnameShape
      have hground := hconcrete.ground
      rw [htree] at hground
      refine ⟨_, .type hconcrete hnameShape, ⟨?_, fun t ht => hground.part ht⟩, ?_⟩
      · exact mem_append_left _ (mem_append_left _ (mem_typeDecls (Labelled.declaresType hconcrete hnameShape)))
      · have hnone : ∀ t ∈ (q.types.tree id).params, ∃ arg, Subst.get? [] t = some arg ∧ Concrete p q.types arg :=
          fun t ht => absurd (Ty.mem_of_mem_params hconcrete t ht) not_mem_nil
        have hseg := segments_typeNameWith hnamed.regular hnone (n := n)
        rw [← hclosed.program] at hseg
        show segments (n.typeNameWith q [] id) = _
        rw [hseg, hnameShape]
        show n.receiverSegments p true ((q.types.tree id).subst .param) = _
        rw [Ty.subst_param, htree]
        rfl
    | _ =>
      rw [hnameShape] at hshape
      cases hshape
  · refine ⟨_, .global (hplain.globals decl hdecl), ⟨mem_append_right _ hdecl, by simp⟩, ?_⟩
    show segments (n.base q decl) = segments (n.base p decl) ++ []
    rw [append_nil, hclosed.program]
    rfl

/-- In a program that can be emitted and has plain names, no two of the functions, types and globals
in the output have the same name. -/
theorem emitted_names_distinct {p q : Program} {entry : UnitId} {instances : Instances}
    (hrun : collectInstances p entry = some (instances, q)) (hemittable : p.emittable entry = true)
    (hplain : PlainNames p { entry } instances.functions instances.globals) :
    ∀ a ∈ instances.emitted, ∀ b ∈ instances.emitted, a.name { entry } q = b.name { entry } q → a = b := by
  unfold Program.emittable at hemittable
  rw [hrun] at hemittable
  simp only [and_eq_true, all_eq_true] at hemittable
  obtain ⟨⟨⟨⟨hfunctions, htypes⟩, -⟩, hglobals⟩, htargets⟩ := hemittable
  have hheld := targetsHeld_of_emittable htargets
  have hclosed := collectInstances_closed hrun hfunctions htypes hglobals hheld
  have hnamed := collectInstances_named hrun hheld hplain.regular hfunctions htypes hglobals
  intro a ha b hb hname
  obtain ⟨la, hla, hvalid, hseg⟩ := exists_labelled hclosed hnamed hplain ha
  obtain ⟨lb, hlb, hvalid', hseg'⟩ := exists_labelled hclosed hnamed hplain hb
  have hsame := Label.same_of_segments_eq hplain.readable hvalid hvalid' (by rw [← hseg, ← hseg', hname])
  exact hla.eq_of_same hplain hnamed.regular hlb hname hsame

/-! ## Programs -/

lemma PlainNames.of_subset {globals globals' : List DefId} (h : PlainNames p n functions globals)
    (hfunctions : ∀ i ∈ functions', i ∈ functions) (hglobals : ∀ d ∈ globals', d ∈ globals) :
    PlainNames p n functions' globals' := by
  have hdeclared : ∀ d ∈ p.declared functions' globals', d ∈ p.declared functions globals := by
    intro d hd
    unfold declared at hd ⊢
    simp only [mem_append, mem_filter, mem_map] at hd ⊢
    rcases hd with (hd | ⟨⟨i, hi, rfl⟩, howner⟩) | hd
    · exact .inl (.inl hd)
    · exact .inl (.inr ⟨⟨i, hfunctions i hi, rfl⟩, howner⟩)
    · exact .inr (hglobals d hd)
  have hread := h.readable
  refine ⟨h.regular, ⟨fun t ht => ?_, fun d hd => hread.words d (hdeclared d hd),
    fun t ht d hd => hread.types_apart t ht d (hdeclared d hd), hread.types_open,
    fun d hd e he => hread.apart d (hdeclared d hd) e (hdeclared e he),
    fun d hd e he => hread.args_apart d (hdeclared d hd) e (hdeclared e he)⟩,
    fun d hd => h.globals d (hglobals d hd), fun i hi => h.methods i (hfunctions i hi),
    fun i hi j hj => h.overlaps i (hfunctions i hi) j (hfunctions j hj)⟩
  exact mem_append_left _ (mem_append_left _ ht)

lemma exists_collectInstances {entry : UnitId}
    (h : (firstSearch p entry).emittable p) : ∃ instances q, collectInstances p entry = some (instances, q) ∧
      (∀ i, i ∈ instances.functions ↔ i ∈ (firstSearch p entry).functions.toList) ∧
      ∀ d, d ∈ instances.globals ↔ d ∈ (firstSearch p entry).globals := by
  unfold Instance.Search.emittable at h
  simp only [and_eq_true, not_eq_true'] at h
  exact ⟨_, _, collectInstances_of_first h.1.1.1.1.1, fun i => mem_mergeSort, fun d => Instance.mem_sortByName⟩

def finds (test : Program → UnitId → List Instance → List DefId → Bool) : Except ToolError (Program × UnitId) → Bool
  | .ok (p, entry) =>
    let s := firstSearch p entry
    s.emittable p && test p entry s.functions.toList s.globals
  | .error _ => false

lemma exists_of_finds (h : finds test r) : ∃ p entry functions globals instances q, r = .ok (p, entry) ∧
    p.emittable entry ∧ collectInstances p entry = some (instances, q) ∧ test p entry functions globals ∧
    (∀ i, i ∈ instances.functions ↔ i ∈ functions) ∧ ∀ d, d ∈ instances.globals ↔ d ∈ globals := by
  unfold finds at h
  split at h
  · rename_i p entry
    rw [and_eq_true] at h
    obtain ⟨instances, q, hrun, hfunctions, hglobals⟩ := exists_collectInstances h.1
    exact ⟨p, entry, _, _, instances, q, rfl, emittable_of_search h.1, hrun, h.2, hfunctions, hglobals⟩
  · cases h

/-- Two methods of the same name, and a function whose name goes on like another one. -/
def methodsSource : String :=
  "struct P<A> \x7b a: A, function f<C>(this, c: C) -> C => c; \x7d " ++
  "struct Q \x7b function f(this) \x7b \x7d \x7d const N: i64 = 3; " ++
  "function g<A>(x: A) -> A => x; function g_f() \x7b \x7d " ++
  "function main() \x7b g(P(N).f((1, true))); \x7d"

set_option maxRecDepth 100000

lemma finds_methodsSource : finds (fun p entry functions globals =>
    decide (PlainNames p { entry } functions globals) && functions.any (·.name == "P__i64_f__tup_i64_bool_"))
    (checkedEntry [⟨"main", methodsSource⟩] "main" { library := .none }) := by
  decide +kernel

theorem emitted_names_distinct_methods : ∃ p entry instances q,
    checkedEntry [⟨"main", methodsSource⟩] "main" { library := .none } = .ok (p, entry) ∧
      collectInstances p entry = some (instances, q) ∧
      (∃ i ∈ instances.functions, i.name = "P__i64_f__tup_i64_bool_") ∧
      ∀ a ∈ instances.emitted, ∀ b ∈ instances.emitted, a.name { entry } q = b.name { entry } q → a = b := by
  obtain ⟨p, entry, functions, globals, instances, q, hchecked, hemittable, hrun, htest, hfunctions,
    hglobals⟩ := exists_of_finds finds_methodsSource
  simp only [and_eq_true, decide_eq_true_eq, any_eq_true, beq_iff_eq] at htest
  obtain ⟨hplain, i, hi, hname⟩ := htest
  refine ⟨p, entry, instances, q, hchecked, hrun, ⟨i, (hfunctions i).2 hi, hname⟩, ?_⟩
  exact emitted_names_distinct hrun hemittable
    (hplain.of_subset (fun i hi => (hfunctions i).1 hi) fun d hd => (hglobals d).1 hd)

def namesakeSource : String :=
  "struct S \x7b x: i64, function get(this) -> i64 => 1; \x7d " ++
  "function S_get() -> i64 => 2; function main() \x7b \x7d"

lemma finds_namesakeSource :
    (compile [⟨"main", namesakeSource⟩] "main" { library := .none }).toOption.any (fun c => !hasErrors c.diagnostics) ∧
    finds (fun _ _ functions _ => functions.any fun i => functions.any fun j =>
      i != j && i.name == j.name)
      (checkedEntry [⟨"main", namesakeSource⟩] "main" { library := .none }) := by
  decide +kernel

/-- Without plain names, two functions of a program without errors can have one name. -/
theorem method_and_function_share_name :
    (compile [⟨"main", namesakeSource⟩] "main" { library := .none }).toOption.any
        (fun c => !hasErrors c.diagnostics) = true ∧
      ∃ p entry instances q,
        checkedEntry [⟨"main", namesakeSource⟩] "main" { library := .none } = .ok (p, entry) ∧
        collectInstances p entry = some (instances, q) ∧
        ∃ a ∈ instances.emitted, ∃ b ∈ instances.emitted, a ≠ b ∧ a.name { entry } q = b.name { entry } q := by
  refine ⟨finds_namesakeSource.1, ?_⟩
  obtain ⟨p, entry, functions, globals, instances, q, hchecked, -, hrun, htest, hfunctions, -⟩ :=
    exists_of_finds finds_namesakeSource.2
  simp only [and_eq_true, any_eq_true, bne_iff_ne, beq_iff_eq] at htest
  obtain ⟨i, hi, j, hj, hne, hname⟩ := htest
  have hmem {i : Instance} (hi : i ∈ functions) : .function i ∈ instances.emitted :=
    mem_append_left _ (mem_append_left _ (mem_map_of_mem ((hfunctions i).2 hi)))
  refine ⟨p, entry, instances, q, hchecked, hrun, .function i, hmem hi, .function j, hmem hj, ?_, hname⟩
  intro heq
  exact hne (Emitted.function.inj heq)

end Kite
