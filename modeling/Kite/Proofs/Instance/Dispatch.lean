/-
Calls of a method through the bound of a parameter. While compiling, the method is found by its name
among all implementations for the type; what is emitted calls the method of the trait. The two are
the same function with the same arguments if no implementation outside of the trait has a method of
that name for the type and the method is not generic: this is `callTraitMethod_eq`. In
`calls_the_rival` another trait has a method of the same name.
-/
import Kite.Instance.Dispatch
import Kite.Proofs.Check.Units

namespace Kite

open List Bool TypeM

namespace Program

variable {p : Program} {traitDef : DefId} {name : String} {type : TypeId}

/-- Whether an implementation leaves a method of a trait undisputed at a type. One of the trait has
the method, without generics, if it is for the type; another one that is for the type has no method
of that name. -/
def concedes (p : Program) (traitDef : DefId) (name : String) (type : TypeId) (impl : ImplDef) : Bool :=
  if impl.traitDef == some traitDef then
    impl.target != .error &&
      ((p.traitBindings? traitDef type impl).isNone ||
        (p.methodOf? impl name).any fun m => (p.function? m).any (·.generics.isEmpty))
  else (p.implBindings? type impl).isNone || (p.methodOf? impl name).isNone

/-- Whether a method of a trait is the only one of its name for a type that is no view. -/
def undisputed (p : Program) (traitDef : DefId) (name : String) (type : TypeId) : Bool :=
  p.types.stripViews type == type && p.impls.toList.all (p.concedes traitDef name type)

def offer? (p : Program) (name : String) (type : TypeId) (impl : ImplDef) : Option (DefId × Subst) := do
  let s ← p.implBindings? type impl
  let m ← p.methodOf? impl name
  return (m, s)

lemma findMethod?_eq : p.findMethod? type name =
    ((p.impls.toList.filter (·.traitDef.isNone)).findSome? (p.offer? name type)).or
      ((p.impls.toList.filter (·.traitDef.isSome)).findSome? (p.offer? name type)) := rfl

/-- The method, without generics, of an implementation that is for a type. -/
def chosen? (p : Program) (name : String) (found : ImplDef × Subst) : Option (DefId × List TypeId) := do
  let method ← p.methodOf? found.1 name
  let f ← p.function? method
  return (method, f.generics.map fun g => (found.2.get? g.id).getD g.type)

lemma traitMethod?_eq (h : p.types.stripViews type = type) : p.traitMethod? traitDef name type =
    (p.impls.toList.findSome? fun impl => (p.traitBindings? traitDef type impl).map fun s => (impl, s)).bind
      (p.chosen? name) := by
  unfold traitMethod?
  rw [h]
  rfl

lemma implBindings?_of_trait (htrait : impl.traitDef = some traitDef) (htarget : impl.target ≠ .error) :
    p.implBindings? type impl = p.traitBindings? traitDef type impl := by
  have hother : ¬ (impl.traitDef != some traitDef) = true := by simp [htrait]
  have herror : ¬ (impl.target == .error) = true := by simpa using htarget
  unfold implBindings? traitBindings?
  rw [if_neg hother, if_neg herror]

lemma offer?_of_concedes (h : p.concedes traitDef name type impl) : p.offer? name type impl = none ∧
    p.traitBindings? traitDef type impl = none ∨ ∃ m s, p.offer? name type impl = some (m, s) ∧
    impl.traitDef = some traitDef ∧ p.traitBindings? traitDef type impl = some s ∧
    p.chosen? name (impl, s) = some (m, []) := by
  unfold concedes at h
  split at h
  · rename_i hof
    have htrait : impl.traitDef = some traitDef := by simpa using hof
    simp only [and_eq_true, bne_iff_ne, or_eq_true, Option.isNone_iff_eq_none, Option.any_eq_true] at h
    obtain ⟨htarget, h⟩ := h
    unfold offer? chosen?
    rw [implBindings?_of_trait htrait htarget]
    cases hbound : p.traitBindings? traitDef type impl with
    | none => exact .inl ⟨rfl, rfl⟩
    | some s =>
      rw [hbound] at h
      obtain ⟨m, hm, f, hf, hgenerics⟩ := h.resolve_left (by simp)
      refine .inr ⟨m, s, ?_, htrait, rfl, ?_⟩
      · rw [hm]
        rfl
      · simp [hm, hf, List.isEmpty_iff.1 hgenerics]
  · rename_i hother
    have hnone : p.traitBindings? traitDef type impl = none := by
      unfold traitBindings?
      rw [if_pos (by simpa using hother)]
    refine .inl ⟨?_, hnone⟩
    simp only [or_eq_true, Option.isNone_iff_eq_none] at h
    unfold offer?
    rcases h with h | h
    · rw [h]
      rfl
    · cases p.implBindings? type impl <;> rw [h] <;> rfl

lemma findSome?_of_concedes : ∀ {impls : List ImplDef}, (∀ impl ∈ impls, p.concedes traitDef name type impl) →
    (impls.filter (·.traitDef.isNone)).findSome? (p.offer? name type) = none ∧
      ((impls.filter (·.traitDef.isSome)).findSome? (p.offer? name type)).map (fun found => (found.1, [])) =
        (impls.findSome? fun impl => (p.traitBindings? traitDef type impl).map fun s => (impl, s)).bind (p.chosen? name)
  | [], _ => ⟨rfl, rfl⟩
  | impl :: impls, h => by
    obtain ⟨hown, htraits⟩ := findSome?_of_concedes fun impl himpl => h impl (.tail _ himpl)
    rcases offer?_of_concedes (h impl (.head _)) with ⟨hoffer, hbound⟩ | ⟨m, s, hoffer, htrait, hbound, hchosen⟩
    · rw [findSome?_cons, hbound, Option.map_none]
      constructor
      · rw [filter_cons]
        split
        · rw [findSome?_cons, hoffer]
          exact hown
        · exact hown
      · rw [filter_cons]
        split
        · rw [findSome?_cons, hoffer]
          exact htraits
        · exact htraits
    · rw [findSome?_cons, hbound, Option.map_some, filter_cons_of_neg (by simp [htrait]),
        filter_cons_of_pos (by simp [htrait]), findSome?_cons, hoffer]
      exact ⟨hown, hchosen.symm⟩

lemma findMethod?_of_undisputed (h : p.undisputed traitDef name type) :
    (p.findMethod? type name).map (fun found => (found.1, [])) = p.traitMethod? traitDef name type := by
  unfold undisputed at h
  rw [and_eq_true, beq_iff_eq, all_eq_true] at h
  obtain ⟨hown, htraits⟩ := findSome?_of_concedes h.2
  rw [findMethod?_eq, traitMethod?_eq h.1, hown, Option.none_or, htraits]

end Program

namespace Eval

/-- Evaluating a call through the bound of a parameter is invoking, at the same arguments, the
function that is emitted for the call, when both are under the bindings of the running call. -/
theorem callTraitMethod_eq {σ : Type} (env : Env σ) (m : Machine σ) (traitDef : DefId) (name : String)
    (selfType : TypeId) (args : EvalM σ (List Value)) (span : Span) {param : ParamId} {paramName : String}
    (hself : (env.host.program m.host).types.shape selfType = .param param paramName)
    (hsole : (env.host.program m.host).undisputed traitDef name
      (TypeM.subst m.frame.bindings selfType (env.host.program m.host).types).1) :
    (callTraitMethod env name selfType args span).run m =
      (match (env.host.program m.host).traitMethod? traitDef name
          (TypeM.subst m.frame.bindings selfType (env.host.program m.host).types).1 with
        | some (decl, generics) => do env.invoke decl generics (← args) span
        | none => fail (.notConstant "this trait method call") span : EvalM σ Value).run m := by
  have hconcrete : (TypeM.subst m.frame.bindings selfType (env.host.program m.host).types).1 =
      resolveParam (env.host.program m.host) m.frame.bindings selfType := by
    unfold TypeM.subst resolveParam
    rw [hself]
    split
    · rename_i hempty
      rw [List.isEmpty_iff.1 hempty]
      rfl
    · rw [TypeM.substFrom_param hself]
  rw [hconcrete] at hsole ⊢
  rw [← Program.findMethod?_of_undisputed hsole]
  have hprogram (f : Program → EvalM σ Value) : (env.program >>= f).run m = (f (env.host.program m.host)).run m := rfl
  have hget (f : Machine σ → EvalM σ Value) : (get >>= f : EvalM σ Value).run m = (f m).run m := rfl
  rw [callTraitMethod, hprogram, hget]
  dsimp only
  cases (env.host.program m.host).findMethod? (resolveParam (env.host.program m.host) m.frame.bindings selfType) name <;> rfl

end Eval

/-! ## One trait and two -/

/-- A method that is called through a bound on the type that has it. -/
def boundCall : Check.Checker :=
  checkedAlone <| "trait B \x7b function get(this) -> i64; \x7d impl B for bool \x7b comptime function get(this) -> i64 => 2; \x7d "
    ++ "comptime function call<T: B>(v: T) -> i64 => v.get();"

/-- Calls are evaluated over a program, one inside the other at most. -/
def callEnv (p : Program) : Eval.Env Unit where
  host := .stored p
  limits := {}
  invoke := Eval.invoke (.stored p) {} 1

/-- A call with its parameter bound to `bool`. -/
def boundCallMachine : Eval.Machine Unit where
  frame := { locals := #[some (.bool true)], bindings := [(⟨0⟩, .bool)] }
  steps := 0
  host := ()

set_option maxRecDepth 100000

lemma boundCall_found : boundCall.diagnostics.size = 0 ∧
      boundCall.program.types.shape ⟨17⟩ = .param ⟨0⟩ "T" ∧
      (subst [(⟨0⟩, .bool)] ⟨17⟩ boundCall.program.types).1 = .bool ∧
      boundCall.program.undisputed ⟨0⟩ "get" .bool ∧
      boundCall.program.traitMethod? ⟨0⟩ "get" .bool = some (⟨2⟩, []) := by
  decide +kernel

theorem callTraitMethod_eq_boundCall :
    boundCall.diagnostics.size = 0 ∧
      (Eval.callTraitMethod (callEnv boundCall.program) "get" ⟨17⟩ (pure [.bool true]) {}).run boundCallMachine =
        ((callEnv boundCall.program).invoke ⟨2⟩ [] [.bool true] {}).run boundCallMachine := by
  obtain ⟨hclean, hself, hbound, hsole, hfound⟩ := boundCall_found
  refine ⟨hclean, ?_⟩
  generalize boundCall.program = p at hself hbound hsole hfound ⊢
  have hconcrete : (TypeM.subst boundCallMachine.frame.bindings ⟨17⟩ p.types).1 = .bool := hbound
  have h := Eval.callTraitMethod_eq (callEnv p) boundCallMachine ⟨0⟩ "get" ⟨17⟩ (pure [.bool true]) {} hself
    (show p.undisputed ⟨0⟩ "get" (TypeM.subst boundCallMachine.frame.bindings ⟨17⟩ p.types).1 from hconcrete ▸ hsole)
  have hchosen : ((callEnv p).host.program boundCallMachine.host).traitMethod? ⟨0⟩ "get" (TypeM.subst
      boundCallMachine.frame.bindings ⟨17⟩ ((callEnv p).host.program boundCallMachine.host).types).1 = some (⟨2⟩, []) :=
    hconcrete ▸ hfound
  rw [hchosen] at h
  exact h

/-- A type with two traits that have a method of the same name, and a bound to the second one. -/
def rivalCall : Check.Checker :=
  checkedAlone <| "trait A \x7b function get(this) -> i64; \x7d trait B \x7b function get(this) -> i64; \x7d "
    ++ "impl A for bool \x7b comptime function get(this) -> i64 => 1; \x7d "
    ++ "impl B for bool \x7b comptime function get(this) -> i64 => 2; \x7d "
    ++ "comptime function call<T: B>(v: T) -> i64 => v.get(); const X: i64 = call(true);"

def globalNumber? (p : Program) (decl : DefId) : Option Int := do
  (← (← p.global? decl).value).int?

/-- The method of the trait in the bound is not the one that is found by its name, and the value of
the constant comes from the other one. -/
theorem calls_the_rival :
    rivalCall.diagnostics.size = 0 ∧
      rivalCall.program.traitMethod? ⟨1⟩ "get" .bool = some (⟨5⟩, []) ∧
      (rivalCall.program.findMethod? .bool "get").map (·.1) = some ⟨4⟩ ∧
      globalNumber? rivalCall.program ⟨3⟩ = some 1 := by
  decide +kernel

end Kite
