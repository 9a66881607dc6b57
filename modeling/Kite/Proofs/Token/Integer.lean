/-
Integer literals decode exactly: in whichever radix a number is spelled, with zeros before it and
underscores among its digits, the literal is one token, and its value is the number if 64 bits hold it.
-/
import Kite.Proofs.Token.Quoted
import Kite.Proofs.Token.Words
import Mathlib.Data.List.Induction
import Mathlib.Data.List.ReduceOption
import Mathlib.Data.Nat.Digits.Defs

namespace Kite.Lexical

open List

/-- A digit, or an underscore. -/
def digitMark : Option (Bool × Fin 16) → Char
  | some d => hexDigit d
  | none => '_'

/-- The number that the digits among the marks denote. -/
def markedValue (radix : Nat) (marks : List (Option (Bool × Fin 16))) : Nat :=
  Nat.ofDigits radix (marks.reduceOption.map (·.2.val)).reverse

variable {radix : Nat} {d : Bool × Fin 16} {marks : List (Option (Bool × Fin 16))}

lemma digitValue_of_lt (h : d.2.val < radix) : digitValue radix (hexDigit d) = some d.2.val := by
  obtain ⟨hvalue, -⟩ := Option.filter_eq_some_iff.1 (@digitValue_hexDigit d)
  rw [digitValue, hvalue]
  exact Option.filter_eq_some_iff.2 ⟨rfl, decide_eq_true h⟩

lemma numeral_marks (h : ∀ d, some d ∈ marks → d.2.val < radix) :
    numeral radix (marks.map digitMark) = markedValue radix marks := by
  induction marks using List.reverseRecOn with
  | nil => rfl
  | append_singleton marks mark ih =>
    have ih := ih fun d hd => h d (mem_append_left _ hd)
    rw [numeral] at ih ⊢
    rw [map_append, foldl_append, ih, markedValue, markedValue, reduceOption_append]
    cases mark with
    | none =>
      have hnone : digitValue radix '_' = none := rfl
      simp [digitMark, hnone]
    | some d =>
      have hvalue := digitValue_of_lt (h d (by simp))
      simp [digitMark, hvalue, Nat.ofDigits_cons, Nat.mul_comm, Nat.add_comm]

lemma isDigitIn_marks (h : ∀ d, some d ∈ marks → d.2.val < radix) :
    ∀ c ∈ marks.map digitMark, isDigitIn radix c || c == '_' := by
  refine forall_mem_map.2 fun mark hmark => ?_
  cases mark with
  | none => exact Bool.or_true _
  | some d => simp [digitMark, isDigitIn, digitValue_of_lt (h d hmark)]

lemma hexDigit_ne : hexDigit d ≠ '_' := (by decide : ∀ upper value, hexDigit (upper, value) ≠ '_') d.1 d.2

/-- The text is one token that is invalid for a single reason. -/
def RefusedAs (file : FileId) (source code : String) : Prop :=
  ∃ (eof : Token) (d : Diagnostic), eof.kind = .eof ∧ d.code = some code ∧ lex file source = {
    tokens := #[{ kind := .error, span := { file, start := 0, stop := source.utf8ByteSize, line := 1, column := 1 },
                  text := source }, eof]
    diagnostics := #[d] }

/-- Marks behind the prefix of a radix are one token, whose value is what they denote, with the suffix behind
them; or they denote too much. -/
theorem lex_integer (file : FileId) (marks : List (Option (Bool × Fin 16))) (suffix : Option IntTy)
    (hradix : (radix, base) ∈ radixes) (hdigits : ∀ d, some d ∈ marks → d.2.val < radix)
    (hdigit : ∃ d, some d ∈ marks) (hfirst : base = [] → ∃ d rest, marks = some d :: rest) :
    (markedValue radix marks < 2 ^ 64 → ReadsAs file (String.ofList (base ++ (marks.map digitMark ++ suffixText suffix)))
        .intLiteral (.int (markedValue radix marks) suffix)) ∧
      (2 ^ 64 ≤ markedValue radix marks →
        RefusedAs file (String.ofList (base ++ (marks.map digitMark ++ suffixText suffix))) "E0007") := by
  obtain ⟨d, hd⟩ := hdigit
  have hnumber := number_append .stop suffix hradix (isDigitIn_marks hdigits) ⟨_, mem_map_of_mem hd, hexDigit_ne⟩ false
  obtain ⟨c, cs, htext, hdigit⟩ : ∃ c cs, base ++ (marks.map digitMark ++ suffixText suffix) = c :: cs ∧ c.isDigit := by
    rcases hradix with ⟨⟩ | ⟨_, ⟨⟩ | ⟨_, ⟨⟩ | ⟨_, ⟨⟩ | ⟨_, ⟨⟩⟩⟩⟩⟩
    · exact ⟨_, _, rfl, by decide⟩
    · exact ⟨_, _, rfl, by decide⟩
    · obtain ⟨d, rest, rfl⟩ := hfirst rfl
      exact ⟨_, _, rfl, (by decide : ∀ upper value, value.val < 10 → (hexDigit (upper, value)).isDigit) d.1 d.2
        (hdigits d (.head _))⟩
    · exact ⟨_, _, rfl, by decide⟩
  obtain ⟨hblank, hlexeme⟩ : _ ∧ lexeme false c cs = _ := lexeme_of_isDigit hdigit
  rw [append_nil, numeral_marks hdigits, htext, ← hlexeme] at hnumber
  rw [htext]
  refine ⟨fun hlt => readsAs_of_lexeme hblank (hnumber.trans (if_pos hlt)), fun hle => ?_⟩
  obtain ⟨eof, heof, hlex⟩ := lex_of_lexeme hblank (hnumber.trans (if_neg (Nat.not_lt.2 hle))) rfl
  exact ⟨eof, _, heof, rfl, hlex⟩

/-- The greatest number that 64 bits hold, and the one after it. -/
theorem lex_integer_limit :
    ReadsAs ⟨0⟩ "0x_FFFFFFFFFFFFFFFFu64" .intLiteral (.int 0xffffffffffffffff (some .u64)) ∧
      RefusedAs ⟨0⟩ "0x10000000000000000" "E0007" := by
  have hradix : (16, ['0', 'x']) ∈ radixes := by decide
  constructor
  · have h := lex_integer ⟨0⟩ (none :: replicate 16 (some (true, 15))) (some .u64) hradix (fun d _ => d.2.isLt)
      ⟨_, .tail _ (.head _)⟩ nofun
    rw [show markedValue _ _ = 0xffffffffffffffff by decide +kernel,
      show String.ofList _ = "0x_FFFFFFFFFFFFFFFFu64" by decide +kernel] at h
    exact h.1 (by decide)
  · have h := lex_integer ⟨0⟩ (some (false, 1) :: replicate 16 (some (false, 0))) none hradix (fun d _ => d.2.isLt)
      ⟨_, .head _⟩ nofun
    rw [show markedValue _ _ = 2 ^ 64 by decide +kernel,
      show String.ofList _ = "0x10000000000000000" by decide +kernel] at h
    exact h.2 le_rfl

end Kite.Lexical
