/-
The instances of a program are closed: when every declaration that the search meets passes its own
check, the arguments of each collected function leave nothing open, whichever calls led to it, and
each collected type can be written down. The search is followed step by step; a step only adds
types to the table, and what was closed before it is closed after it.
-/
import Kite.Proofs.Emission.Emittable

namespace Kite

open List TypeTable TypeM Bool Program

variable {g : Generic} {now : TypeTable} {args : List TypeId} {id : TypeId}

/-! ## Proper types -/

namespace Ty

variable {p : Program} {params : List ParamId}

lemma properAll_iff : properAll p params ts ↔ ∀ t ∈ ts, t.proper p params := by
  induction ts with
  | nil => simp [properAll]
  | cons t ts ih => rw [properAll, and_eq_true, ih, forall_mem_cons]

mutual

theorem proper_subst
    (hr : ∀ id ∈ params, (r id).proper p others) : ∀ {t : Ty}, t.proper p params → (t.subst r).proper p others
  | .param id, h => hr id (contains_iff_mem.1 h)
  | .node head parts, h => by
    rw [proper, and_eq_true] at h
    rw [subst, proper, and_eq_true, substAll_eq_map, length_map, ← substAll_eq_map]
    exact ⟨h.1, properAll_subst hr h.2⟩

theorem properAll_subst (hr : ∀ id ∈ params, (r id).proper p others) : ∀ {ts},
      properAll p params ts → properAll p others (substAll r ts)
  | [], _ => rfl
  | t :: ts, h => by
    rw [properAll, and_eq_true] at h
    rw [substAll, properAll, and_eq_true]
    exact ⟨proper_subst hr h.1, properAll_subst hr h.2⟩

end

end Ty

def TypeShape.isNamed : TypeShape → Bool
  | .named .. => true
  | _ => false

def Concrete (p : Program) (table : TypeTable) (id : TypeId) : Prop := (table.tree id).proper p []

lemma Concrete.makesType (hid : Concrete p table id) (hshape : table.shape id = .named decl name args) :
    p.makesType (.named decl) args.length := by
  unfold Concrete at hid
  rw [table.tree_eq, hshape] at hid
  simpa [TypeShape.head] using (Bool.and_eq_true_iff.1 hid).1

namespace TypeTable

variable {p : Program} {params : List ParamId} {a b : TypeTable}

lemma holds_of_proper (h : (a.tree id).proper p params) : a.Holds id := by
  refine Decidable.byContradiction fun hno => ?_
  rw [tree_eq, shape_of_not_holds hno] at h
  exact absurd h Bool.false_ne_true

lemma proper_of_le (hab : a ≤ b) (h : (a.tree id).proper p params) : (b.tree id).proper p params := by
  rwa [tree_eq_of_le hab id (holds_of_proper h)]

end TypeTable

namespace Concrete

variable {p : Program} {a b : TypeTable}

lemma holds (h : Concrete p a id) : a.Holds id := holds_of_proper h

lemma mono (hab : a ≤ b) (h : Concrete p a id) : Concrete p b id := proper_of_le hab h

lemma part {part : TypeId} (h : Concrete p a id) (hpart : part ∈ (a.shape id).parts) : Concrete p a part := by
  have hne : (a.shape id).parts ≠ [] := ne_nil_of_mem hpart
  unfold Concrete at h
  rw [a.tree_eq, treeOf_eq_node hne, Ty.proper, and_eq_true, Ty.properAll_iff] at h
  exact h.2 _ (mem_map_of_mem hpart)

end Concrete

/-! ## Arguments -/

/-- An argument that leaves nothing of a generic open. The methods of its bounds are found in the
program as it was checked. -/
structure Fits (p : Program) (table : TypeTable) (g : Generic) (arg : TypeId) : Prop where
  concrete : Concrete p table arg
  number : g.constType.isSome → ∃ n, table.shape arg = .const n
  bounds : ∀ traitDef ∈ g.bounds, ∀ method ∈ p.traitMethodNames traitDef,
    p.types.Holds arg ∧ p.provides traitDef arg method

lemma Fits.mono {arg : TypeId} (hab : a ≤ b) (h : Fits p a g arg) : Fits p b g arg where
  concrete := h.concrete.mono hab
  number := by rw [shape_eq_of_le hab h.concrete.holds]; exact h.number
  bounds := h.bounds

structure FitsAll (p : Program) (table : TypeTable) (generics : List Generic) (args : List TypeId) :
    Prop where
  length : args.length = generics.length
  each : ∀ g arg, (g, arg) ∈ generics.zip args → Fits p table g arg

variable {generics : List Generic}

lemma FitsAll.mono (hab : a ≤ b) (h : FitsAll p a generics args) : FitsAll p b generics args :=
  ⟨h.length, fun g arg hmem => (h.each g arg hmem).mono hab⟩

lemma get?_bindings {id : ParamId} : ∀ {generics args},
    args.length = generics.length → generic? generics id = some g →
      ∃ arg, (bindings generics args).get? id = some arg ∧ (g, arg) ∈ generics.zip args
  | [], _, _, h => nomatch h
  | _ :: _, [], hlen, _ => nomatch hlen
  | first :: generics, arg :: args, hlen, h => by
    unfold generic? at h
    rw [find?_cons] at h
    unfold Subst.get? bindings
    rw [zip_cons_cons, map_cons, lookup_cons]
    split at h
    · rename_i hid
      cases h
      have hid' : (id == g.id) = true := by rw [eq_of_beq hid]; exact beq_self_eq_true _
      exact ⟨arg, by rw [hid'], by simp⟩
    · rename_i hid
      have hid' : (id == first.id) = false := by
        rw [beq_eq_false_iff_ne] at hid ⊢
        exact Ne.symm hid
      obtain ⟨found, hget, hmem⟩ := get?_bindings (by simpa using hlen) h
      exact ⟨found, by rw [hid']; exact hget, by simp [hmem]⟩

lemma mem_zip_of_get?_bindings {id : ParamId} {arg : TypeId} (h : (bindings generics args).get? id = some arg) :
    ∃ g, (g, arg) ∈ generics.zip args := by
  unfold Subst.get? at h
  rw [lookup_eq_some_iff] at h
  obtain ⟨before, after, heq, -⟩ := h
  have hmem : (id, arg) ∈ bindings generics args := by
    rw [heq]
    simp
  obtain ⟨⟨g, found⟩, hzip, hpair⟩ := mem_map.1 hmem
  cases hpair
  exact ⟨g, hzip⟩

/-! ## Bindings as trees -/

lemma lookup_bindings (id : ParamId) : ∀ generics args,
    (bindings generics args).get? id = ((generics.map (·.id)).zip args).lookup id
  | [], _ => rfl
  | _ :: _, [] => rfl
  | g :: generics, arg :: args => by
    have hrest := lookup_bindings id generics args
    unfold bindings Subst.get? at hrest ⊢
    rw [zip_cons_cons, map_cons, map_cons, zip_cons_cons, lookup_cons, lookup_cons, hrest]

lemma trees_bindings (generics : List Generic) (args : List TypeId) (table : TypeTable) :
    (bindings generics args).trees table = Ty.bindOpen generics (args.map table.tree) := by
  funext id
  unfold Subst.trees Ty.bindOpen
  rw [lookup_bindings, Ty.lookup_zip_map]
  cases ((generics.map (·.id)).zip args).lookup id <;> rfl

/-! ## Under the bindings of an instance -/

section Bindings

variable {p : Program} {table : TypeTable} {generics : List Generic}

lemma held_bindings (hargs : ∀ g arg, (g, arg) ∈ generics.zip args → Concrete p table arg) :
    (bindings generics args).Held table := by
  intro id arg hget
  obtain ⟨g, hmem⟩ := mem_zip_of_get?_bindings hget
  exact (hargs g arg hmem).holds

lemma proper_bindings (hlen : args.length = generics.length)
    (hargs : ∀ g arg, (g, arg) ∈ generics.zip args → Concrete p table arg) {t : Ty}
    (h : t.proper p (generics.map (·.id))) : (t.subst ((bindings generics args).trees table)).proper p [] := by
  refine Ty.proper_subst (fun param hparam => ?_) h
  obtain ⟨g, hg, rfl⟩ := mem_map.1 hparam
  have hsome : (generic? generics g.id).isSome := find?_isSome.2 ⟨g, hg, beq_self_eq_true _⟩
  obtain ⟨found, hfound⟩ := Option.isSome_iff_exists.1 hsome
  obtain ⟨arg, hget, hmem⟩ := get?_bindings hlen hfound
  unfold Subst.trees
  rw [hget]
  exact hargs found arg hmem

lemma concrete_subst (hlen : args.length = generics.length)
    (hargs : ∀ g arg, (g, arg) ∈ generics.zip args → Concrete p table arg) (hle : p.types ≤ table)
    (h : p.isProper generics id) (hnow : table ≤ now) :
    Concrete p (TypeM.subst (bindings generics args) id now).2
      (TypeM.subst (bindings generics args) id now).1 := by
  have hid := proper_of_le hle h
  obtain ⟨-, -, htree⟩ := subst_makes (held_bindings hargs) (holds_of_proper hid) now hnow
  unfold Concrete
  rw [htree]
  exact proper_bindings hlen hargs hid

lemma FitsAll.subst_concrete (hargs : FitsAll p table generics args) (hle : p.types ≤ table)
    (h : p.isProper generics id) (hnow : table ≤ now) :
    Concrete p (TypeM.subst (bindings generics args) id now).2
      (TypeM.subst (bindings generics args) id now).1 :=
  concrete_subst hargs.length (fun g arg hmem => (hargs.each g arg hmem).concrete) hle h hnow

lemma FitsAll.subst_param (hargs : FitsAll p table generics args) {param : ParamId}
    (hg : generic? generics param = some g) : ∃ arg, Fits p table g arg ∧ ∀ id name (now : TypeTable),
    now.shape id = .param param name → TypeM.subst (bindings generics args) id now = (arg, now) := by
  obtain ⟨arg, hget, hmem⟩ := get?_bindings hargs.length hg
  refine ⟨arg, hargs.each g arg hmem, fun id name now hshape => ?_⟩
  unfold TypeM.subst
  split
  · rename_i hempty
    rw [List.isEmpty_iff.1 hempty] at hget
    cases hget
  · rw [substFrom_param hshape, hget]
    rfl

lemma FitsAll.get?_number (hargs : FitsAll p table generics args) {param : ParamId}
    (h : (generic? generics param).any (·.constType.isSome)) : ∃ arg n,
    (bindings generics args).get? param = some arg ∧ table.Holds arg ∧ table.shape arg = .const n := by
  obtain ⟨g, hg, hconst⟩ := (Option.any_eq_true _ _).1 h
  obtain ⟨arg, hget, hmem⟩ := get?_bindings hargs.length hg
  have hfits := hargs.each g arg hmem
  obtain ⟨n, hshape⟩ := hfits.number hconst
  exact ⟨arg, n, hget, hfits.concrete.holds, hshape⟩

lemma FitsAll.subst_fits (hargs : FitsAll p table generics args) (hle : p.types ≤ table)
    (h : p.fitsGeneric generics g id) (hnow : table ≤ now) :
    Fits p (TypeM.subst (bindings generics args) id now).2 g
      (TypeM.subst (bindings generics args) id now).1 := by
  unfold fitsGeneric at h
  rw [and_eq_true, and_eq_true] at h
  obtain ⟨⟨hproper, hnumber⟩, hbounds⟩ := h
  have hconcrete := hargs.subst_concrete hle hproper hnow
  have hid : p.types.Holds id := holds_of_proper hproper
  have hshape : now.shape id = p.types.shape id := shape_eq_of_le (hle.trans hnow) hid
  refine ⟨hconcrete, ?_, ?_⟩
  · intro hconst
    have hisNumber : p.isNumber generics id := by
      rcases or_eq_true_iff.1 hnumber with hnone | hnum
      · rw [Option.isNone_iff_eq_none] at hnone
        rw [hnone] at hconst
        cases hconst
      · exact hnum
    unfold isNumber at hisNumber
    split at hisNumber
    · rename_i n hkind
      have hfixed : now.isFixed id := by
        unfold TypeTable.isFixed
        rw [TypeTable.any_eq, hshape, hkind]
        rfl
      rw [subst_of_isFixed (hid.mono (hle.trans hnow)) hfixed]
      exact ⟨n, hshape.trans hkind⟩
    · rename_i param name hkind
      obtain ⟨g', hg', hconst'⟩ := (Option.any_eq_true _ _).1 hisNumber
      obtain ⟨arg, hfits, hrun⟩ := hargs.subst_param hg'
      obtain ⟨n, hn⟩ := hfits.number hconst'
      rw [hrun id name now (hshape.trans hkind)]
      exact ⟨n, (shape_eq_of_le hnow hfits.concrete.holds).trans hn⟩
    · cases hisNumber
  · intro traitDef htrait method hmethod
    have hmeets := all_eq_true.1 hbounds traitDef htrait
    unfold meetsBound at hmeets
    split at hmeets
    · rename_i param name hkind
      obtain ⟨g', hg', hbound⟩ := (Option.any_eq_true _ _).1 hmeets
      obtain ⟨arg, hfits, hrun⟩ := hargs.subst_param hg'
      rw [hrun id name now (hshape.trans hkind)]
      exact hfits.bounds traitDef (contains_iff_mem.1 hbound) method hmethod
    · rw [and_eq_true] at hmeets
      have hfixed := isFixed_of_le (hle.trans hnow) hid hmeets.1
      rw [subst_of_isFixed (hid.mono (hle.trans hnow)) hfixed]
      exact ⟨hid, all_eq_true.1 hmeets.2 method hmethod⟩

lemma FitsAll.mapM_fits (hargs : FitsAll p table generics args) (hle : p.types ≤ table) :
    ∀ {others ids}, ids.length = others.length →
      (∀ g id, (g, id) ∈ others.zip ids → p.fitsGeneric generics g id) →
      ∀ {now}, table ≤ now →
        FitsAll p (ids.mapM (TypeM.subst (bindings generics args)) now).2 others
          (ids.mapM (TypeM.subst (bindings generics args)) now).1
  | [], [], _, _, _, _ => ⟨rfl, fun _ _ h => nomatch h⟩
  | g :: others, id :: ids, hlen, h, now, hnow => by
    have hfits := hargs.subst_fits hle (h g id (by simp)) hnow
    have hgrow := subst_le (bindings generics args) id now
    have hrest : ids.length = others.length := by simpa using hlen
    have hall := hargs.mapM_fits hle hrest (fun g' id' hmem => h g' id' (by simp [hmem])) (hnow.trans hgrow)
    rw [mapM_cons]
    refine ⟨congrArg Nat.succ hall.length, fun g' arg hmem => ?_⟩
    rcases mem_cons.1 hmem with heq | hmem
    · cases heq
      exact hfits.mono (mapM_le (subst_le _) ids _)
    · exact hall.each g' arg hmem

end Bindings

/-! ## Dispatch -/

def Program.withTypes (p : Program) (table : TypeTable) : Program := { p with types := table }

section Dispatch

variable {p : Program} {table : TypeTable} {traitDef : DefId} {method : String} {type : TypeId}

def Program.TargetsHeld (p : Program) : Prop := ∀ impl ∈ p.impls.toList, p.types.Holds impl.target

lemma traitBindings?_withTypes (hle : p.types ≤ table) {impl : ImplDef}
    (himpl : p.types.Holds impl.target) (htype : p.types.Holds type) :
    (p.withTypes table).traitBindings? traitDef type impl = p.traitBindings? traitDef type impl := by
  unfold traitBindings?
  show (if _ then _ else if (table.optionalInner? _).isSome && (table.optionalInner? _).isNone then _
    else table.match? _ _) = _
  rw [optionalInner?_eq_of_le hle himpl, optionalInner?_eq_of_le hle htype, match?_eq_of_le hle himpl htype]

lemma findSome?_congr_of_mem {α β : Type} {f g : α → Option β} : ∀ {l : List α},
    (∀ a ∈ l, f a = g a) → l.findSome? f = l.findSome? g
  | [], _ => rfl
  | a :: l, h => by
    rw [findSome?_cons, findSome?_cons, h a (by simp), findSome?_congr_of_mem fun b hb => h b (by simp [hb])]

lemma traitMethod?_withTypes (hle : p.types ≤ table) (htargets : p.TargetsHeld) (htype : p.types.Holds type) :
    (p.withTypes table).traitMethod? traitDef method type = p.traitMethod? traitDef method type := by
  have hstrip : (p.withTypes table).types.stripViews type = p.types.stripViews type :=
    (stripViewsFrom_eq_of_le hle _ type htype).1
  unfold traitMethod?
  rw [hstrip]
  have hfind : ∀ impl ∈ p.impls.toList,
      ((p.withTypes table).traitBindings? traitDef (p.types.stripViews type) impl).map (fun s => (impl, s)) =
        (p.traitBindings? traitDef (p.types.stripViews type) impl).map (fun s => (impl, s)) := by
    intro impl himpl
    rw [traitBindings?_withTypes hle (htargets impl himpl) htype.stripViews]
  have := findSome?_congr_of_mem hfind
  show (List.findSome? _ p.impls.toList >>= _) = _
  rw [this]
  rfl

lemma length_of_traitMethod? (h : p.traitMethod? traitDef method type = some (decl, args))
    (hf : p.function? decl = some f) : args.length = f.generics.length := by
  unfold traitMethod? at h
  simp only [Option.bind_eq_bind, Option.bind_eq_some_iff, Option.pure_def, Option.some.injEq, Prod.mk.injEq] at h
  obtain ⟨_, -, _, -, found, hfound, rfl, rfl⟩ := h
  rw [hf] at hfound
  cases hfound
  rw [length_map]

lemma exists_of_provides (h : p.provides traitDef type method) : ∃ decl args,
    p.traitMethod? traitDef method type = some (decl, args) ∧ ∀ f, p.function? decl = some f →
    FitsAll p p.types f.generics args := by
  unfold provides at h
  split at h
  · rename_i decl args hfound
    refine ⟨decl, args, hfound, fun f hf => ?_⟩
    unfold isClosedCall at h
    rw [hf] at h
    refine ⟨length_of_traitMethod? hfound hf, fun g arg hmem => ?_⟩
    have hclosed := all_eq_true.1 h (g, arg) hmem
    simp only [and_eq_true, or_eq_true, List.isEmpty_iff] at hclosed
    obtain ⟨⟨hproper, hnumber⟩, hbounds⟩ := hclosed
    refine ⟨hproper, fun hconst => ?_, fun traitDef htrait => ?_⟩
    · rcases hnumber with hnone | hnumber
      · simp [Option.isNone_iff_eq_none.1 hnone] at hconst
      · unfold isNumber at hnumber
        split at hnumber
        · exact ⟨_, ‹_›⟩
        · cases hnumber
        · cases hnumber
    · rw [hbounds] at htrait
      cases htrait
  · cases h

end Dispatch

end Kite
