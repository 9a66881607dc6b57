/-
Values that can be worked out again. Names and signatures come before bodies and values, but a value
may be asked for in between, when some of the signatures are not known yet. What an evaluation can have
met of a declaration is never changed by them: a function is not callable and an enum has no numbers
until its own signature is set, and that happens once. So each stored value is what its initializer
gives over the finished program, where that is steady.
-/
import Kite.Proofs.Check.Units

namespace Kite.Check

open Option

/-! ## Order -/

lemma advances_checkItems (unit : UnitId) (items : List Item) (c : Checker) :
    Advances [] c (checkItems unit items c).2 := by
  let resolved := resolveItems unit items c
  have hrest : Settles resolved.2 (checkItems unit items c).2 :=
    (settling_checkContainment resolved.2).trans (settling_checkBodies unit items resolved.1 _)
  exact (advances_resolveItems unit items c).2.trans (.of_settles hrest)

lemma advances_checkInOrder (units : List LoadedUnit) (order : List Nat) (limits : EvalLimits) :
    Advances [] { limits } (checkInOrder units order limits) :=
  foldl_checkNext .trans (·.advances []) advances_checkItems order _

variable {limits : EvalLimits}

lemma ordered_start : ({ limits } : Checker).Ordered where
  pending _ h := nomatch h
  isGlobal _ h := nomatch h
  value id init v hinit _ := by cases hinit

lemma ordered_checkInOrder (units : List LoadedUnit) (order : List Nat) (limits : EvalLimits) :
    (checkInOrder units order limits).Ordered :=
  (advances_checkInOrder units order limits).ordered ordered_start

/-- Whenever it was asked for, the value of a global is the one that its initializer gives over the
finished program within the same limits, if that program and the initializer are steady. -/
theorem evaluates_again {units : List LoadedUnit} {order : List Nat} {limits : EvalLimits} {id : DefId}
    {g : GlobalDef} {init : Typed.Body} {v : Value}
    (hglobal : (checkInOrder units order limits).program.global? id = some g) (hinit : g.init = some init)
    (hvalue : g.value = some v) (hcalls : (checkInOrder units order limits).program.steadyCalls = true)
    (hexpr : init.expr.steady (checkInOrder units order limits).program = true) :
    (Eval.evaluate (.stored (checkInOrder units order limits).program) limits init.expr init.locals.size ()).1 =
      .ok v := by
  have hordered := ordered_checkInOrder units order limits
  have hlimits : (checkInOrder units order limits).limits = limits := (advances_checkInOrder units order limits).limits
  rw [Program.global?_eq] at hglobal
  have hagain := hordered.value id init v (by unfold DefKind.init?; rw [hglobal]; exact hinit)
    (by unfold DefKind.value?; rw [hglobal]; exact hvalue)
  rw [hlimits] at hagain
  exact hagain _ (.refl _) hcalls hexpr

/-- Values that are asked for by a field, by other values and inside calls. -/
def nestedValues : Checker :=
  checkedAlone <| "struct S \x7b x: [i64; N] \x7d const N: usize = M + 1; static M: usize = 2; " ++
  "comptime function fact(n: i64) -> i64 \x7b if n <= 1 \x7b 1 \x7d else \x7b n * fact(n - 1) \x7d \x7d " ++
  "const F: i64 = fact(K); enum E \x7b A, B \x7d const K: i64 = 3 + (E::B as i64);"

def steadyNumber? (p : Program) (id : DefId) : Option Int := do
  let g ← p.global? id
  let init ← g.init
  let v ← g.value
  if init.expr.steady p then v.int? else none

lemma exists_of_steadyNumber? {id : DefId} (h : steadyNumber? p id = some n) : ∃ g init v, p.global? id = some g ∧
    g.init = some init ∧ g.value = some v ∧ init.expr.steady p ∧ v.int? = some n := by
  simp only [steadyNumber?, bind_eq_bind, bind_eq_some_iff] at h
  obtain ⟨g, hg, init, hinit, v, hv, h⟩ := h
  split at h
  · exact ⟨g, init, v, hg, hinit, hv, ‹_›, h⟩
  · cases h

set_option maxRecDepth 100000

lemma nestedValues_steady : nestedValues.program.steadyCalls ∧
    steadyNumber? nestedValues.program ⟨4⟩ = some 24 := by
  decide +kernel

theorem evaluates_again_factorial : ∃ g init v,
    nestedValues.program.global? ⟨4⟩ = some g ∧ g.init = some init ∧
      g.value = some v ∧ v.int? = some 24 ∧
      (Eval.evaluate (.stored nestedValues.program) {} init.expr init.locals.size ()).1 =
        .ok v := by
  obtain ⟨hcalls, hnumber⟩ := nestedValues_steady
  obtain ⟨g, init, v, hg, hinit, hv, hexpr, hn⟩ := exists_of_steadyNumber? hnumber
  exact ⟨g, init, v, hg, hinit, hv, hn, evaluates_again hg hinit hv hcalls hexpr⟩

/-- A field asks for a value which is the number of a variant, before variants have numbers. -/
def earlyNumber : Checker :=
  checkedAlone "enum E: u8 \x7b A = 5, B \x7d const N: usize = E::A as usize; struct S \x7b x: [i64; N] \x7d"

def numbers? (p : Program) (limits : EvalLimits) (id : DefId) : Option (Int × Int) := do
  let g ← p.global? id
  let init ← g.init
  let stored ← g.value.bind (·.int?)
  let again ← (Eval.evaluate (.stored p) limits init.expr init.locals.size ()).1.toOption.bind (·.int?)
  return (stored, again)

lemma exists_of_numbers? {id : DefId} (h : numbers? p limits id = some (n, m)) (hne : n ≠ m) : ∃ g init v,
    p.global? id = some g ∧ g.init = some init ∧ g.value = some v ∧
    (Eval.evaluate (.stored p) limits init.expr init.locals.size ()).1 ≠ .ok v := by
  simp only [numbers?, bind_eq_bind, bind_eq_some_iff] at h
  obtain ⟨g, hg, init, hinit, stored, ⟨v, hv, hstored⟩, again, ⟨w, hw, hagain⟩, h⟩ := h
  obtain ⟨rfl, rfl⟩ := Prod.mk.inj (Option.some.inj h)
  refine ⟨g, init, v, hg, hinit, hv, fun hsame => hne ?_⟩
  rw [hsame] at hw
  obtain rfl : v = w := Option.some.inj hw
  exact Option.some.inj (hstored.symm.trans hagain)

lemma earlyNumber_numbers : hasErrors earlyNumber.diagnostics.toList = false ∧
    numbers? earlyNumber.program {} ⟨1⟩ = some (0, 5) := by
  decide +kernel

/-- The value that is stored is the place of the variant; later the variant has another number. -/
theorem asked_too_early :
    hasErrors earlyNumber.diagnostics.toList = false ∧
      ∃ g init v, earlyNumber.program.global? ⟨1⟩ = some g ∧ g.init = some init ∧
        g.value = some v ∧ (Eval.evaluate (.stored earlyNumber.program) {} init.expr
          init.locals.size ()).1 ≠ .ok v := by
  obtain ⟨hclean, hnumbers⟩ := earlyNumber_numbers
  exact ⟨hclean, exists_of_numbers? hnumbers (by decide)⟩

/-- A field asks for a value that makes a struct, before its fields are known. -/
def earlyCall : Checker :=
  checkedAlone "struct A \x7b x: [i64; N] \x7d const N: usize = \x7b let b = B(); 3 \x7d; struct B \x7b a: i64 \x7d"

/-- The struct that is made at the start of a block, and from how many arguments. -/
def firstMade : Typed.ExprKind → Option (DefId × Nat)
  | .block ⟨.letDecl _ ⟨.call (.constructor decl) args, _, _⟩ :: _, _⟩ => some (decl, args.length)
  | _ => none

/-- The stored initializer makes a struct of one field from nothing. -/
theorem made_too_early : hasErrors earlyCall.diagnostics.toList = false ∧
    ((earlyCall.program.global? ⟨1⟩).bind (·.init)).bind (firstMade ·.expr.kind) =
      some (⟨2⟩, 0) ∧
    (earlyCall.program.struct? ⟨2⟩).map (·.fields.length) = some 1 := by
  decide +kernel

/-- A string is passed on before a loop is left, and once more behind it. -/
def passedOn : Checker :=
  checkedAlone <| "comptime function take(s: String) -> i64 => 1; comptime function f(c: bool) -> i64 \x7b " ++
  "let s = \"a\"; let mut n = 0; loop \x7b if c \x7b n = take(s); break; \x7d \x7d n + take(s) \x7d const N: i64 = f(true);"

/-- Both calls take the string in one run. -/
theorem passed_twice : hasErrors passedOn.diagnostics.toList = false ∧
    ((passedOn.program.global? ⟨2⟩).bind (·.value)).any (·.same (.int 2 .i64)) = true := by
  decide +kernel

/-- The number of a variant is a member of a value that never comes to be. -/
def numberOfNever : Checker := checkedAlone "enum E \x7b A = panic(\"a\").foo, B \x7d"

/-- A variant without a number, in an enum that is checked without an error. -/
theorem variant_without_number : hasErrors numberOfNever.diagnostics.toList = false ∧
    (numberOfNever.program.enum? ⟨0⟩).map
      (fun e => (e.isPlain, e.variants.map (·.discriminant))) = some (true, [none, some 1]) := by
  decide +kernel

/-! ## The order of items -/

def itemsOf (source : String) : List Item := (unitsOf source).flatMap (·.parsed.module.items)

def checkAlone (items : List Item) : Checker := (checkUnit "main" ⟨⟨0⟩, items, default⟩ false {}).2

def numberNamed (name : String) (c : Checker) : Option Int := do
  let scope ← c.scopes[0]?
  let g ← c.program.global? (← scope.get? name)
  (← g.value).int?

/-- The number of a variant is a constant, which is the number of a variant of a later type. -/
def numberedLater : String := "enum A \x7b X = N \x7d const N: i32 = B::Y as i32; enum B \x7b Y = 5 \x7d"

/-- Both orders are checked without an error, but the constant has another value. -/
theorem order_changes_value :
    (itemsOf numberedLater).reverse.Perm (itemsOf numberedLater) ∧
      hasErrors (checkAlone (itemsOf numberedLater)).diagnostics.toList = false ∧
      hasErrors (checkAlone (itemsOf numberedLater).reverse).diagnostics.toList = false ∧
      numberNamed "N" (checkAlone (itemsOf numberedLater)) = some 0 ∧
      numberNamed "N" (checkAlone (itemsOf numberedLater).reverse) = some 5 :=
  ⟨List.reverse_perm _, by decide +kernel⟩

end Kite.Check
