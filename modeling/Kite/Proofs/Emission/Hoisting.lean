/-
What an operand writes before the statement it stands in. The text of a value may need statements,
and these are written where the emission stands: before the whole statement. For an operand that is
evaluated on some paths only, the right one of `&&` and `||` or a branch of a choice, they would run
on every path.

The one thing that makes a value write is control that may jump out of it. So an operand without
such jumps writes nothing, and what a short-circuit operator or a choice writes is what the operand
writes that is evaluated first. An operand with a jump is written ahead of the condition; the last
statement shows one.
-/
import Kite.Proofs.Emission.Braces
import Kite.Proofs.Emission.Success

namespace Kite.Emission

open Bool

variable {e : Typed.Expr} {type leftType : TypeId}

/-! ## Operands that are evaluated on some paths only -/

/-- The operand of a short-circuit operator or a conditional that is evaluated on every path. -/
def firstOperand? : Typed.Expr → Option Typed.Expr
  | ⟨.binary op lhs _, _, _⟩ => if op.isLogical then some lhs else none
  | ⟨.cond cond _ _, _, _⟩ => some cond
  | _ => none

/-- The operands of a short-circuit operator or a conditional that are evaluated on some paths only. -/
def conditionalOperands : Typed.Expr → List Typed.Expr
  | ⟨.binary op _ rhs, _, _⟩ => if op.isLogical then [rhs] else []
  | ⟨.cond _ thenBranch elseBranch, _, _⟩ => thenBranch :: elseBranch.toList
  | _ => []

/-- Whether the value is written in place: a conditional only if it is a choice. -/
def InPlace (cx : Context) (s : Emitter) : Typed.Expr → Prop
  | ⟨.cond _ thenBranch elseBranch, type, _⟩ => ∃ s', isChoice type thenBranch elseBranch cx s = .ok (true, s')
  | _ => True

variable {cx : Context} {s s' : Emitter} {text : String}

lemma isChoice_none {thenBranch : Typed.Expr} : isChoice type thenBranch none cx s = .ok (false, s) := by
  unfold isChoice
  cases plainValue? thenBranch <;> rfl

/-- An operand that neither jumps nor, therefore, writes. -/
abbrev Lowered.Quiet (l : Lowered) : Prop := Judged braces False default l

lemma Level.out_eq {x : EmitM α} (h : Level braces False default x) (hrun : x cx s = .ok (a, s')) : s'.out = s.out :=
  Braced.out_eq (h 0) id hrun

lemma quiet_expr (h : e.escapes = false) : (lower e).Quiet := braced_expr fun hjumps => by simp [h] at hjumps

lemma binaryText_out {a b : Lowered} (hb : b.Quiet)
    (hrun : binaryText op type leftType a b cx s = .ok (text, s')) :
    ∃ before t after, before.out = s.out ∧ a.value cx before = .ok (t, after) ∧ s'.out = after.out := by
  obtain ⟨_, s₁, hconcrete, hrest⟩ := bind_ok hrun
  obtain ⟨_, before, hleft, hrest⟩ := bind_ok hrest
  obtain ⟨t, after, hvalue, hrest⟩ := bind_ok hrest
  have hbefore : before.out = s.out := by rw [level_concrete.out_eq hleft, level_concrete.out_eq hconcrete]
  refine ⟨before, t, after, hbefore, hvalue, ?_⟩
  refine Level.out_eq (.bind hb.value <| .bind level_types fun {_} => ?_) hrest
  split
  · exact .pure _
  · split
    · exact .pure _
    · exact closed_narrow .level

lemma lowerCond_out {cond : Lowered} {thenBranch elseBranch : Typed.Expr × Lowered} (hthen : thenBranch.2.Quiet)
    (helse : elseBranch.2.Quiet) (hrun : (lowerCond e cond thenBranch (some elseBranch)).value cx s = .ok (text, s'))
    (hchoice : ∃ s', isChoice e.type thenBranch.1 (some elseBranch.1) cx s = .ok (true, s')) : ∃ before t after,
    before.out = s.out ∧ cond.value cx before = .ok (t, after) ∧ s'.out = after.out := by
  obtain ⟨choice, before, htest, hrest⟩ := bind_ok hrun
  obtain ⟨_, hyes⟩ := hchoice
  cases htest.symm.trans hyes
  obtain ⟨t, after, hvalue, hrest⟩ := bind_ok hrest
  refine ⟨before, t, after, (closed_isChoice .level : Level ..).out_eq htest, hvalue, ?_⟩
  exact Level.out_eq (.bind hthen.value <| .bind helse.value (.pure _)) hrest

/-- An operand that is evaluated on some paths only and that control does not jump out of writes
nothing ahead of the statement. So all that a short-circuit operator or a choice writes is what its
first operand writes. -/
theorem conditional_operands_write_nothing (e : Typed.Expr)
    (hstays : ∀ o ∈ conditionalOperands e, o.escapes = false) (cx : Context) :
    (∀ o ∈ conditionalOperands e, ∀ s text s', (lower o).value cx s = .ok (text, s') → s'.out = s.out) ∧
    ∀ o, firstOperand? e = some o → ∀ s text s', InPlace cx s e → (lower e).value cx s = .ok (text, s') →
      ∃ before t after, before.out = s.out ∧ (lower o).value cx before = .ok (t, after) ∧ s'.out = after.out := by
  refine ⟨fun o ho s text s' => (quiet_expr (hstays o ho)).value.out_eq, ?_⟩
  intro o ho s text s' hplace hrun
  obtain ⟨kind, type, span⟩ := e
  rw [lower] at hrun
  cases kind with
  | binary op lhs rhs =>
    by_cases hop : op.isLogical = true
    · simp only [firstOperand?, hop, if_true, Option.some.injEq] at ho
      subst ho
      exact binaryText_out (quiet_expr (hstays rhs (by simp [conditionalOperands, hop]))) hrun
    · simp [firstOperand?, hop] at ho
  | cond c thenBranch elseBranch =>
    cases ho
    cases elseBranch with
    | none =>
      obtain ⟨_, hchoice⟩ := hplace
      rw [isChoice_none] at hchoice
      cases hchoice
    | some elseBranch =>
      have hthen := quiet_expr (hstays thenBranch (by simp [conditionalOperands]))
      have helse := quiet_expr (hstays elseBranch (by simp [conditionalOperands]))
      rw [lowerKind] at hrun
      exact lowerCond_out hthen helse hrun hplace
  | _ => cases ho

def tailOf (p : Program) (decl : DefId) : Typed.Expr :=
  match (p.function? decl).bind (·.body) with
  | some ⟨_, _, ⟨.block ⟨_, some tail⟩, _, _⟩⟩ => tail
  | _ => default

/-- A program that is checked without errors, and what its first function ends with. -/
def resultOf (source : String) : Option (Program × Typed.Expr) :=
  let units : List SourceUnit := [⟨"main", source⟩]
  match compile units "main" { library := .none }, checkedEntry units "main" { library := .none } with
  | .ok c, .ok (p, _) => if hasErrors c.diagnostics then none else some (p, tailOf p ⟨0⟩)
  | _, _ => none

def sampleContext : Context := { naming := ⟨⟨0⟩⟩, localNames := #["a", "b", "x"], localTypes := #[.bool, .bool, .bool] }

def valueOf (p : Program) (e : Typed.Expr) : Option (String × String) :=
  ((lower e).value sampleContext { program := p }).toOption.map fun (text, s) => (text, s.out.text)

def stayingSource : String :=
  "function f(a: bool, b: bool) -> bool \x7b a && \x7b let x = !b; x \x7d \x7d function main() \x7b \x7d"

set_option maxRecDepth 100000

theorem conditional_operands_write_nothing_staying :
    ∃ p e, resultOf stayingSource = some (p, e) ∧ (valueOf p e).isSome = true ∧
      (conditionalOperands e).length = 1 ∧ (∀ o ∈ conditionalOperands e, o.escapes = false) ∧
      ∀ o ∈ conditionalOperands e, ∀ s text s', (lower o).value sampleContext s = .ok (text, s') → s'.out = s.out := by
  have hsample : (resultOf stayingSource).any (fun (p, e) => (valueOf p e).isSome &&
      (conditionalOperands e).length == 1 && (conditionalOperands e).all (!·.escapes)) = true := by
    decide +kernel
  obtain ⟨⟨p, e⟩, hresult, hfacts⟩ := (Option.any_eq_true _ _).1 hsample
  simp only [and_eq_true, beq_iff_eq, List.all_eq_true, not_eq_true'] at hfacts
  obtain ⟨⟨hvalue, hlength⟩, hstays⟩ := hfacts
  exact ⟨p, e, hresult, hvalue, hlength, hstays, (conditional_operands_write_nothing e hstays _).1⟩

def jumpingSource : String := "function f(a: bool) -> bool \x7b a || return false \x7d function main() \x7b \x7d"

/-- The jump is written ahead of the condition that decides about it. -/
theorem jumping_operand_hoisted :
    (resultOf jumpingSource).map (fun (p, e) => ((conditionalOperands e).map (valueOf p), valueOf p e)) =
      some ([some ("(void)0", "return false;\n")], some ("(a || (void)0)", "return false;\n")) := by
  decide +kernel

end Kite.Emission
