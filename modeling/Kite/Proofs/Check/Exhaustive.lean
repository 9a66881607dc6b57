/-
Exhaustiveness of matches. The check looks one level into the patterns, and where it finds nothing missing every value
of the matched type is accepted by one of them, so evaluation takes an arm. The enums that it asks for have to have
their variants by then.
-/
import Kite.Compilation.Analysis
import Kite.Proofs.Typing.Shape

namespace Kite.Check

open Eval List

variable {p q : Program} {type : TypeId} {patterns : List Typed.Pattern} {pattern : Typed.Pattern} {v : Value}
  {span : Span}

/-! ## Patterns that accept a value -/

/-- A pattern accepts a value whatever is bound before. -/
def Accepts (pattern : Typed.Pattern) (v : Value) : Prop := ∀ p frame, (matchPattern p pattern v frame).1

lemma accepts_of_isIrrefutable (h : pattern.isIrrefutable) : Accepts pattern v := by
  intro p frame
  cases pattern with
  | wildcard | binding _ => rfl
  | _ => cases h

lemma matchPatterns_of_isIrrefutable : ∀ {patterns}, patterns.all (·.isIrrefutable) →
    ∀ values frame, (matchPatterns p patterns values frame).1
  | [], _, _, _ => by rfl
  | _ :: _, _, [], _ => by rfl
  | pattern :: rest, h, v :: values, frame => by
    rw [all_cons, Bool.and_eq_true] at h
    change ((if (matchPattern p pattern v frame).1 then matchPatterns p rest values else Pure.pure false) _).1
    rw [if_pos (accepts_of_isIrrefutable h.1 p frame)]
    exact matchPatterns_of_isIrrefutable h.2 values _

lemma accepts_of_coversVariant (h : coversVariant index pattern) (decl : DefId) (fields : List Value) :
    Accepts pattern (.variant decl index fields) := by
  intro p frame
  cases pattern with
  | variant _ covered patterns =>
    rw [coversVariant, Bool.and_eq_true, beq_iff_eq] at h
    rw [matchPattern, h.1, if_pos (beq_self_eq_true index)]
    exact matchPatterns_of_isIrrefutable h.2 fields frame
  | _ => cases h

lemma accepts_of_coversBool (h : coversBool value pattern) : Accepts pattern (.bool value) := by
  intro p frame
  cases pattern with
  | bool covered => exact h
  | _ => cases h

lemma accepts_of_coversSome (h : coversSome pattern) (v : Value) : Accepts pattern (.some v) := by
  intro p frame
  cases pattern with
  | some inner => exact accepts_of_isIrrefutable h p frame
  | _ => cases h

lemma accepts_of_coversNone (h : coversNone pattern) : Accepts pattern .none := by
  intro p frame
  cases pattern with
  | none => rfl
  | _ => cases h

/-! ## The check -/

/-- What the check asks for is the same in both programs: what the type stands for, and which enums there are with how
many variants. -/
structure Agree (p q : Program) (type : TypeId) : Prop where
  ty : q.types.ty type = p.types.ty type
  enums : ∀ decl, (q.enum? decl).map (·.variants.length) = (p.enum? decl).map (·.variants.length)

lemma Agree.refl (p : Program) (type : TypeId) : Agree p p type := ⟨rfl, fun _ => rfl⟩

lemma exists_accepts {f : Typed.Pattern → Bool} (h : patterns.any f) (hf : ∀ pattern, f pattern → Accepts pattern v) :
    ∃ pattern ∈ patterns, Accepts pattern v := by
  obtain ⟨pattern, hmem, hpattern⟩ := any_eq_true.1 h
  exact ⟨pattern, hmem, hf pattern hpattern⟩

lemma any_of_missingVariants (h : missingVariants enum patterns variants = []) (hindex : index < variants.length) :
    patterns.any (coversVariant index) := by
  rw [missingVariants, map_eq_nil_iff, filter_eq_nil_iff] at h
  have hcovered := h (variants.get ⟨index, hindex⟩, index) (mem_zipIdx_iff_getElem?.2 (by simp [hindex]))
  simpa using hcovered

lemma accepts_of_missingPatterns (hagree : Agree p q type) (h : missingPatterns p type patterns = [])
    (hv : v.fits q (q.types.ty type)) : ∃ pattern ∈ patterns, Accepts pattern v := by
  rw [hagree.ty, TypeTable.ty_eq] at hv
  unfold missingPatterns at h
  split at h
  · exact exists_accepts ‹_› fun _ => accepts_of_isIrrefutable
  split at h
  case h_1 hshape =>
    rw [hshape] at hv
    cases v <;> simp [TypeShape.head] at hv
  case h_2 hshape =>
    rw [hshape] at hv
    cases (Value.not_fits_never v).symm.trans hv
  case h_3 decl _ _ hshape =>
    rw [hshape] at hv
    split at h
    case h_2 => cases h
    rename_i e henum
    have hcount := hagree.enums decl
    rw [henum] at hcount
    rcases Value.fits_named.1 hv with ⟨_, _, -, hfields, -⟩ | ⟨index, fields, _, rfl, hpayload, -⟩
    · unfold Program.enum? at hcount
      unfold Program.fieldTys? Program.struct? at hfields
      cases hkind : (q.getDef decl).kind <;> simp [hkind] at hcount hfields
    · simp only [Program.payloadTys?, Option.bind_eq_bind, Option.bind_eq_some_iff] at hpayload
      obtain ⟨e', henum', variant, hvariant, -⟩ := hpayload
      rw [henum', Option.map_some, Option.map_some, Option.some_inj] at hcount
      exact exists_accepts (any_of_missingVariants h (hcount ▸ (List.getElem?_eq_some_iff.1 hvariant).1))
        fun _ hcovers => accepts_of_coversVariant hcovers decl fields
  case h_4 hshape =>
    rw [hshape] at hv
    obtain ⟨b, rfl⟩ := Value.fits_bool.1 hv
    rw [append_eq_nil_iff] at h
    refine exists_accepts (f := coversBool b) ?_ fun _ => accepts_of_coversBool
    cases b
    · simpa using h.2
    · simpa using h.1
  case h_5 hshape =>
    rw [hshape] at hv
    rw [append_eq_nil_iff] at h
    rcases Value.fits_optional.1 hv with rfl | ⟨w, rfl, -⟩
    · exact exists_accepts (f := coversNone) (by simpa using h.2) fun _ => accepts_of_coversNone
    · exact exists_accepts (f := coversSome) (by simpa using h.1) fun _ hcovers => accepts_of_coversSome hcovers w
  case h_6 => cases h

lemma checkExhaustive_run (h : hasErrors (checkExhaustive type patterns span c).2.diagnostics.toList = false) :
    missingPatterns c.program type patterns = [] ∧ (checkExhaustive type patterns span c).2 = c := by
  have hrun : checkExhaustive type patterns span c = (if !(missingPatterns c.program type patterns).isEmpty then
    report span (.nonExhaustive (missingPatterns c.program type patterns)) else Pure.pure ()) c := rfl
  rw [hrun] at h ⊢
  split at h
  · change hasErrors (c.diagnostics.push _).toList = false at h
    rw [Array.toList_push, hasErrors, any_append, Bool.or_eq_false_iff] at h
    cases h.2
  · rw [if_neg ‹_›]
    exact ⟨by simp_all, rfl⟩

/-! ## Evaluation -/

variable {σ : Type} {run : Eval.Env σ}

lemma matchAny_of_accepts : ∀ {patterns frame},
    (∃ pattern ∈ patterns, Accepts pattern v) → (matchAny p patterns v frame).1
  | [], _, h => by simp at h
  | pattern :: rest, frame, h => by
    change ((if (matchPattern p pattern v frame).1 then Pure.pure true else matchAny p rest v) _).1
    split
    · rfl
    · rename_i hno
      simp only [mem_cons, exists_eq_or_imp] at h
      exact matchAny_of_accepts (h.resolve_left fun haccepts => hno (haccepts p frame))

lemma evalArms_of_accepts : ∀ {arms m},
    (∃ pattern ∈ arms.flatMap (·.patterns), Accepts pattern v) →
    ∃ arm ∈ arms, ∃ m', (evalArms run v span arms).run m = (evalExpr run arm.body).run m'
  | [], _, h => by simp at h
  | ⟨patterns, body⟩ :: rest, m, h => by
    have hrun : (evalArms run v span (⟨patterns, body⟩ :: rest)).run m =
        (if (matchAny (run.host.program m.host) patterns v m.frame).1 then evalExpr run body else evalArms run v span rest).run
          { m with frame := (matchAny (run.host.program m.host) patterns v m.frame).2 } := by
      rfl
    rw [hrun]
    split
    · exact ⟨_, .head _, _, rfl⟩
    · rename_i hno
      have hrest : ∃ pattern ∈ rest.flatMap (·.patterns), Accepts pattern v := by
        simp only [flatMap_cons, mem_append, or_and_right, exists_or] at h
        exact h.resolve_left fun haccepts => hno (matchAny_of_accepts haccepts)
      obtain ⟨arm, harm, htaken⟩ := evalArms_of_accepts hrest
      exact ⟨arm, .tail _ harm, htaken⟩

/-- The type that the patterns of a match are checked against. -/
def matchedType (scrutinee : ExprCheck) (b : BodyState) (c : Checker) : TypeId :=
  (synth scrutinee none b c).2.program.types.stripViews (synth scrutinee none b c).1.1.type

/-- A match that is checked without an error accepts every value of the matched type and takes an arm for it, in every
program that agrees with the one at that time. -/
theorem matchExpr_takes {env : Env} {scrutinee : ExprCheck} {arms : List ArmReading} {want : Want} {span : Span}
    {b : BodyState} {c : Checker} (herrors : hasErrors (matchExpr env scrutinee arms want span b c).2.diagnostics.toList = false)
    (hagree : Agree (matchExpr env scrutinee arms want span b c).2.program q (matchedType scrutinee b c)) :
    ∃ checked, (matchExpr env scrutinee arms want span b c).1.1.kind = .matchWith (synth scrutinee none b c).1.1 checked ∧
      ∀ v, v.fits q (q.types.ty (matchedType scrutinee b c)) →
        (∃ arm ∈ checked, ∃ pattern ∈ arm.patterns, Accepts pattern v) ∧ ∀ (σ : Type) (run : Eval.Env σ) place m,
          ∃ arm ∈ checked, ∃ m', (evalArms run v place checked).run m = (evalExpr run arm.body).run m' := by
  rcases h : matchExpr env scrutinee arms want span b c with ⟨⟨e, b'⟩, c'⟩
  rw [h] at herrors hagree
  cases h
  obtain ⟨hmissing, hsame⟩ := checkExhaustive_run herrors
  refine ⟨_, rfl, fun v hv => ?_⟩
  have haccepts := accepts_of_missingPatterns (hsame ▸ hagree) hmissing hv
  refine ⟨?_, fun _ _ _ _ => evalArms_of_accepts haccepts⟩
  obtain ⟨pattern, hmem, hpattern⟩ := haccepts
  obtain ⟨arm, harm, hmem⟩ := mem_flatMap.1 hmem
  exact ⟨arm, harm, pattern, hmem, hpattern⟩

/-- Matches `true` with an arm for each boolean. -/
def matchBool : BodyM Typed.Expr :=
  matchExpr { demand := ⟨fun _ => return, fun _ => return .error .poisoned, fun _ => return .error⟩, unit := ⟨0⟩ }
    (fun _ => return ⟨.bool true, .bool, {}⟩)
    ([true, false].map fun b => ⟨[⟨⟨0⟩, .literal (.bool b) false, {}⟩], {}, none, fun _ => return .void {}⟩) .effect {}

theorem matchExpr_takes_bool : ∃ checked, (matchBool {} {}).1.1.kind = .matchWith ⟨.bool true, .bool, {}⟩ checked ∧
    ∃ arm ∈ checked, ∃ pattern ∈ arm.patterns, Accepts pattern (.bool false) := by
  have herrors : hasErrors (matchBool {} {}).2.diagnostics.toList = false := by decide +kernel
  obtain ⟨checked, hkind, htakes⟩ := matchExpr_takes herrors (.refl _ _)
  exact ⟨checked, hkind, (htakes (.bool false) (by decide +kernel)).1⟩

/-- A constant that is worked out before the variants of the enum are known, with a match that is not exhaustive. -/
def earlyMatch : Checker := checkInOrder [⟨"main", parseUnit ⟨0⟩ "enum E \x7b P([i64; N]), Q \x7d
const N: usize = if true \x7b 3 \x7d else \x7b let e: E = panic(\"a\"); match e \x7b \x7d \x7d;" 256, false⟩] [0] {}

/-- The arms of a match at the end of the other branch. -/
def elseArms : Typed.ExprKind → Option (List Typed.Arm)
  | .cond _ _ (some ⟨.block ⟨_, some ⟨.matchWith _ arms, _, _⟩⟩, _, _⟩) => some arms
  | _ => none

theorem earlyMatch_not_exhaustive : hasErrors earlyMatch.diagnostics.toList = false ∧
    (earlyMatch.program.enum? ⟨0⟩).map (·.variants.length) = some 2 ∧
      (((earlyMatch.program.global? ⟨1⟩).bind (·.init)).bind (elseArms ·.expr.kind)).map (·.length) = some 0 := by
  decide +kernel

end Kite.Check
