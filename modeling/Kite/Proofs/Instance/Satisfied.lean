/-
Bounds that are satisfied and the methods that are called through them. The check of a bound looks
for any implementation that matches the type; a call takes the first one that matches and is not for
an optional when the type is none. So a method is found for every type that satisfies a bound if no
implementation of the trait that matches the type is for more than it, and with arguments for its
generics if they all occur in the target: this is `traitMethod?_of_satisfies`.
-/
import Kite.Proofs.Instance.Dispatch
import Kite.Proofs.Types.Matching

namespace Kite

open List Program Bool

namespace Program

variable {p q : Program} {name : String} {impl : ImplDef}

lemma methodOf?_congr (h : ∀ decl, q.defName decl = p.defName decl) : q.methodOf? impl name = p.methodOf? impl name := by
  unfold methodOf?
  simp only [h]

end Program

/-! ## Methods that are asked for -/

namespace Check

lemma present_of_checkRequiredAll : ∀ {required c},
    (checkRequiredAll traitName impl required c).1 = [] → ∀ r ∈ required, (c.program.methodOf? impl r.name).isSome
  | [], _, _ => nofun
  | first :: rest, c, h => by
    rw [checkRequiredAll, run_bind, run_program] at h
    cases hfirst : c.program.methodOf? impl first.name with
    | none =>
      rw [hfirst] at h
      cases h
    | some method =>
      rw [hfirst] at h
      have hrest := present_of_checkRequiredAll (c := (checkRequired traitName first method c).2) h
      refine forall_mem_cons.2 ⟨by rw [hfirst]; rfl, fun r hr => ?_⟩
      rw [← methodOf?_congr (settling_checkRequired c).stays.names]
      exact hrest r hr

lemma present_of_checkImpl
    (hclean : hasErrors (checkImpl index impl traitDef c).2.diagnostics.toList = false)
    (htrait : c.program.trait? traitDef = some decl) : ∀ r ∈ decl.methods, (c.program.methodOf? impl r.name).isSome := by
  have hextra (c₁ : Checker) : Settles c₁ ((do
      for method in impl.methods do
        let m ← getDef method
        if !decl.methods.any (·.name == m.name) then
          report m.span (.notInTrait m.name (c.program.defName traitDef)) : CheckM Unit) c₁).2 :=
    Settling.bind (.forIn fun _ _ => .bind (.getDef _) <| .ite (.bind .report .pure) .pure) .pure c₁
  rw [checkImpl, run_bind, run_program] at hclean
  rw [htrait] at hclean
  generalize (c.program.impls.toList.take index).find? _ = conflict at hclean
  cases conflict
  all_goals
    dsimp only at hclean
    rw [run_bind] at hclean
  case' some => rw [run_bind] at hclean
  all_goals
    split at hclean
    · have hreported := hasErrors_of_earlier (hextra _).stays.reports hclean
      rw [hasErrors, Array.toList_push, any_append, or_eq_false_iff] at hreported
      exact nomatch hreported.2
    · rename_i hmissing
      simp only [not_eq_true, not_eq_false', List.isEmpty_iff] at hmissing
      have hpresent := present_of_checkRequiredAll hmissing
      exact hpresent

def conforms (c : Checker) (traitDef : DefId) : Bool :=
  c.program.impls.toList.zipIdx.all fun (impl, index) =>
    impl.traitDef != some traitDef || !hasErrors (checkImpl index impl traitDef c).2.diagnostics.toList

end Check

/-! ## The method that is called -/

namespace Program

variable {p : Program} {traitDef : DefId} {type : TypeId} {impl : ImplDef}

/-- Whether an implementation can be called for a type that it matches: it is for an optional only
if the type is one, and the generics of its methods occur in its target. -/
def suits (p : Program) (type : TypeId) (impl : ImplDef) : Bool :=
  ((p.types.optionalInner? impl.target).isNone || (p.types.optionalInner? type).isSome) &&
    impl.methods.all fun m => (p.function? m).any fun f => f.generics.all fun g => p.types.mentions [g.id] impl.target

def dispatches (p : Program) (traitDef : DefId) (type : TypeId) : Bool :=
  p.impls.toList.all fun impl => impl.traitDef != some traitDef || (p.types.match? impl.target type).isNone || p.suits type impl

lemma traitBindings?_of_suits (htrait : impl.traitDef = some traitDef) (hsuits : p.suits type impl) :
    p.traitBindings? traitDef type impl = p.types.match? impl.target type := by
  unfold suits at hsuits
  unfold traitBindings?
  rw [if_neg (by simp [htrait]), if_neg]
  simp only [and_eq_true, or_eq_true, Option.isNone_iff_eq_none] at hsuits ⊢
  rintro ⟨htarget, htype⟩
  rcases hsuits.1 with h | h
  · simp [h] at htarget
  · simp [htype] at h

lemma match?_of_traitBindings? (h : p.traitBindings? traitDef type impl = some s) :
    impl.traitDef = some traitDef ∧ p.types.match? impl.target type = some s := by
  unfold traitBindings? at h
  split at h
  · cases h
  · rename_i htrait
    split at h
    · cases h
    · exact ⟨by simpa using htrait, h⟩

end Program

namespace Check

/-- The implementation that satisfies a bound is found when a method is called through it. -/
lemma found_of_satisfies
    (hknown : p.types.isKnown (p.types.stripViews type)) (hsatisfies : satisfies p generics type traitDef)
    (hdispatches : p.dispatches traitDef (p.types.stripViews type)) :
    ∃ impl ∈ p.impls.toList, ∃ s, p.types.match? impl.target (p.types.stripViews type) = some s ∧
      impl.traitDef = some traitDef ∧ p.suits (p.types.stripViews type) impl ∧
      p.impls.toList.findSome? (fun impl =>
        (p.traitBindings? traitDef (p.types.stripViews type) impl).map fun s => (impl, s)) = some (impl, s) := by
  generalize hview : p.types.stripViews type = view at *
  have hsuits : ∀ impl ∈ p.impls.toList, impl.traitDef = some traitDef → (p.types.match? impl.target view).isSome →
      p.suits view impl := by
    intro impl himpl htrait hmatch
    have h := all_eq_true.1 hdispatches impl himpl
    simpa [htrait, Option.isSome_iff_ne_none.1 hmatch] using h
  have himplements : p.implements view traitDef := by
    unfold satisfies at hsatisfies
    rw [hview] at hsatisfies
    rw [if_neg (by simp [TypeTable.containsError_of_isKnown hknown])] at hsatisfies
    split at hsatisfies
    · rename_i hshape
      simp [TypeTable.isKnown, TypeTable.any_eq, hshape] at hknown
    · exact hsatisfies
  rw [Program.implements, ← Array.any_toList, any_eq_true] at himplements
  obtain ⟨impl, himpl, hmatches⟩ := himplements
  rw [and_eq_true, beq_iff_eq] at hmatches
  have hany : (p.impls.toList.findSome? fun impl => (p.traitBindings? traitDef view impl).map fun s => (impl, s)).isSome := by
    refine findSome?_isSome_iff.2 ⟨impl, himpl, ?_⟩
    rw [Option.isSome_map, traitBindings?_of_suits hmatches.1 (hsuits impl himpl hmatches.1 hmatches.2)]
    exact hmatches.2
  obtain ⟨⟨first, s⟩, hfound⟩ := Option.isSome_iff_exists.1 hany
  obtain ⟨other, hother, hpair⟩ := exists_of_findSome?_eq_some hfound
  obtain ⟨_, hbindings, hpair⟩ := Option.map_eq_some_iff.1 hpair
  cases hpair
  obtain ⟨htrait, hmatch⟩ := Program.match?_of_traitBindings? hbindings
  exact ⟨first, hother, s, hmatch, htrait, hsuits first hother htrait (by simp [hmatch]), hfound⟩

theorem traitMethod?_of_satisfies {c : Checker} {generics : List Generic} {type : TypeId} {traitDef : DefId} {decl : TraitDef}
    (htrait : c.program.trait? traitDef = some decl) (hconforms : conforms c traitDef)
    (hknown : c.program.types.isKnown (c.program.types.stripViews type))
    (hsatisfies : satisfies c.program generics type traitDef)
    (hdispatches : c.program.dispatches traitDef (c.program.types.stripViews type)) :
    ∀ required ∈ decl.methods, ∃ method args, c.program.traitMethod? traitDef required.name type = some (method, args) ∧
      ∀ arg ∈ args, c.program.types.hasParams arg = false := by
  intro required hrequired
  obtain ⟨impl, himpl, s, hmatch, himplTrait, hsuits, hfound⟩ := found_of_satisfies hknown hsatisfies hdispatches
  obtain ⟨hplain, hbound⟩ := TypeTable.match?_binds hknown hmatch
  obtain ⟨index, hindex⟩ := mem_iff_getElem?.1 himpl
  have hclean := all_eq_true.1 hconforms (impl, index) (mem_zipIdx_iff_getElem?.2 hindex)
  simp only [himplTrait, bne_self_eq_false, Bool.false_or, not_eq_true'] at hclean
  obtain ⟨method, hmethod⟩ := Option.isSome_iff_exists.1 (present_of_checkImpl hclean htrait required hrequired)
  rw [Program.suits, and_eq_true, all_eq_true] at hsuits
  obtain ⟨f, hf, hgenerics⟩ := (Option.any_eq_true _ _).1 (hsuits.2 method (mem_of_find?_eq_some hmethod))
  refine ⟨method, f.generics.map fun g => (s.get? g.id).getD g.type, ?_, ?_⟩
  · unfold Program.traitMethod?
    simp [hfound, hmethod, hf]
  · intro arg harg
    obtain ⟨g, hg, rfl⟩ := mem_map.1 harg
    obtain ⟨bound, hget⟩ := Option.isSome_iff_exists.1 (hbound g.id (all_eq_true.1 hgenerics g hg))
    rw [hget]
    exact hplain g.id bound hget

end Check

def vectorBound : Check.Checker :=
  checkedAlone <| "trait Size \x7b function size(this) -> i64; \x7d "
    ++ "impl<T> Size for [T] \x7b function size(this) -> i64 => 1; \x7d "
    ++ "function f<U: Size>(x: U) -> i64 => x.size(); function g(x: [bool]) -> i64 => f(x);"

set_option maxRecDepth 100000

lemma vectorBound_checked : vectorBound.diagnostics.size = 0 ∧
      ((vectorBound.program.trait? ⟨0⟩).map fun t => t.methods.map (·.name)) = some ["size"] ∧
      Check.conforms vectorBound ⟨0⟩ ∧
      vectorBound.program.types.shape ⟨20⟩ = .vector .bool ∧
      vectorBound.program.types.stripViews ⟨20⟩ = ⟨20⟩ ∧
      vectorBound.program.types.isKnown ⟨20⟩ ∧
      Check.satisfies vectorBound.program [] ⟨20⟩ ⟨0⟩ ∧
      vectorBound.program.dispatches ⟨0⟩ ⟨20⟩ := by
  decide +kernel

theorem traitMethod?_of_satisfies_vector :
    vectorBound.program.types.shape ⟨20⟩ = .vector .bool ∧
      ∃ method args, vectorBound.program.traitMethod? ⟨0⟩ "size" ⟨20⟩ = some (method, args) ∧
        ∀ arg ∈ args, vectorBound.program.types.hasParams arg = false := by
  obtain ⟨-, htrait, hconforms, hshape, hstrip, hknown, hsatisfies, hdispatches⟩ := vectorBound_checked
  obtain ⟨decl, hdecl, hmethods⟩ := Option.map_eq_some_iff.1 htrait
  obtain ⟨required, hrequired, hname⟩ : ∃ r ∈ decl.methods, r.name = "size" := mem_map.1 (by simp [hmethods])
  have h := Check.traitMethod?_of_satisfies hdecl hconforms (hstrip.symm ▸ hknown) hsatisfies (hstrip.symm ▸ hdispatches)
    required hrequired
  exact ⟨hshape, hname ▸ h⟩

def optionalBound : Check.Checker :=
  checkedAlone <| "trait Show \x7b function show(this) -> i64; \x7d impl Show for i64? \x7b function show(this) -> i64 => 1; \x7d "
    ++ "function f<T: Show>(x: T) -> i64 => x.show(); function main() \x7b f(3); \x7d"

/-- The bound is satisfied, but there is no method to call. -/
theorem satisfies_without_method :
    optionalBound.diagnostics.size = 0 ∧
      ((optionalBound.program.trait? ⟨0⟩).map fun t => t.methods.map (·.name)) = some ["show"] ∧
      optionalBound.program.types.hasParams .i64 = false ∧
      Check.satisfies optionalBound.program [] .i64 ⟨0⟩ = true ∧
      optionalBound.program.traitMethod? ⟨0⟩ "show" .i64 = none := by
  decide +kernel

end Kite
