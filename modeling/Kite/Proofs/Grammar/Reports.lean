/-
Nothing is refused silently. The steps that refuse without a report of their own do so because
something was reported before: an invalid token by the lexer, a nesting that is too deep by the
step that met it first. A literal is never refused, since the lexer gives each its value.
-/
import Kite.Proofs.Grammar.Course

namespace Kite

open List Grammar

/-! ## What a run leaves behind -/

namespace Grammar

variable {α β : Type} {s s' : State}

def State.HasError (s : State) : Prop := hasErrors s.diagnostics.toList

/-- The tokens that are left are sound, and the depth was reported if it is said to be. -/
structure State.Sound (s : State) : Prop where
  tokens : ∀ t ∈ s.current :: s.ahead, t.isSound
  depth : s.depthReported → s.HasError

lemma State.Sound.current (hs : s.Sound) : s.current.isSound := hs.tokens _ (.head _)

lemma State.Sound.kind (hs : s.Sound) : s.kind ≠ .error := by
  have h := hs.current
  unfold Token.isSound at h
  rw [Bool.and_eq_true, bne_iff_ne] at h
  exact h.1

lemma State.Sound.literal (hs : s.Sound) (h : s.kind ∈ literalKinds) : s.current.value.isSome := by
  have hcurrent := hs.current
  unfold State.kind at h
  unfold Token.isSound at hcurrent
  rw [Bool.and_eq_true, contains_iff_mem.2 h] at hcurrent
  exact hcurrent.2

/-- The nesting is as deep as before, and may be as deep as before. -/
def SameDepth (s s' : State) : Prop := s'.depth = s.depth ∧ s'.maxDepth = s.maxDepth

lemma SameDepth.trans (h : SameDepth s s') (h' : SameDepth s' s'') : SameDepth s s'' :=
  ⟨h'.1.trans h.1, h'.2.trans h.2⟩

/-- A run after which the nesting is as deep and the tokens are as sound as before, and errors have stayed. -/
structure Calm (s s' : State) : Prop where
  sameDepth : SameDepth s s'
  sound : s.Sound → s'.Sound
  keeps : s.HasError → s'.HasError

/-- What a run leaves behind: an error, if something was refused. -/
structure Tells (s : State) (refused : Bool) (r : Except Stop α × State) : Prop extends Calm s r.2 where
  tells : s.Sound → refused → r.2.HasError
  refused : r.1 = .error .refused → refused

lemma hasError_report (code : String) (span : Span) (message : String) :
    State.HasError { s with diagnostics := s.diagnostics.push (.error .grammar code span message) } := by
  unfold State.HasError
  simp [hasErrors, Diagnostic.isError, Diagnostic.error]

namespace Calm

variable {p : Parse α} {f : α → Parse β}

lemma refl : Calm s s := ⟨⟨rfl, rfl⟩, id, id⟩

lemma trans (h : Calm s s') (h' : Calm s' s'') : Calm s s'' :=
  ⟨h.sameDepth.trans h'.sameDepth, fun hs => h'.sound (h.sound hs), fun herror => h'.keeps (h.keeps herror)⟩

lemma quiet {r : Except Stop α × State} (h : Calm s r.2) (hr : r.1 ≠ .error .refused) : Tells s false r :=
  ⟨h, fun _ hrefused => (by cases hrefused), fun hrefused => absurd hrefused hr⟩

lemma advance : Calm s s.advance := by
  unfold State.advance
  split
  · exact refl
  · exact refl
  · rename_i token rest hahead _
    refine ⟨⟨rfl, rfl⟩, fun hs => ⟨fun t ht => hs.tokens t ?_, hs.depth⟩, id⟩
    rw [hahead]
    exact .tail _ ht

lemma report (code : String) (span : Span) (message : String) :
    Calm s { s with diagnostics := s.diagnostics.push (.error .grammar code span message) } :=
  ⟨⟨rfl, rfl⟩, fun hs => ⟨hs.tokens, fun _ => hasError_report ..⟩, fun _ => hasError_report ..⟩

lemma bind (hp : Calm s (p s).2) (hf : ∀ a s', p s = (.ok a, s') → Calm s' (f a s').2) : Calm s ((p >>= f) s).2 := by
  rcases hrun : p s with ⟨stop | a, s'⟩
  all_goals rw [hrun] at hp
  · rwa [bind_error hrun]
  · rw [bind_run hrun]
    exact hp.trans (hf a s' hrun)

lemma nested (h : Calm s.enter (p s.enter).2) : Calm s (nested p s).2 := by
  by_cases hdepth : s.depth + 1 ≤ s.maxDepth
  · rw [nested_run hdepth (Prod.eta (p s.enter)).symm]
    refine ⟨⟨congrArg (· - 1) h.sameDepth.1, h.sameDepth.2⟩, fun hs => ?_, h.keeps⟩
    have hsound := h.sound ⟨hs.tokens, hs.depth⟩
    exact ⟨hsound.tokens, hsound.depth⟩
  · rw [nested_run_of_lt (Nat.lt_of_not_le hdepth)]
    split
    · exact refl
    · exact ⟨⟨rfl, rfl⟩, fun hs => ⟨hs.tokens, fun _ => hasError_report ..⟩, fun _ => hasError_report ..⟩

end Calm

namespace Tells

lemma trans {e : Except Stop α} {r : Except Stop β × State} (h : Tells s b (e, s')) (h' : Tells s' b' r) :
    Tells s (b || b') r := by
  refine ⟨h.toCalm.trans h'.toCalm, fun hs hrefused => ?_, fun hr => by rw [h'.refused hr, Bool.or_true]⟩
  rcases Bool.or_eq_true _ _ ▸ hrefused with hrefused | hrefused
  · exact h'.keeps (h.tells hs hrefused)
  · exact h'.tells (h.sound hs) hrefused

lemma refuseExpected (what : String) : Tells s true ((refuseExpected what : Parse α) s) := by
  have hrun : reportExpected what s = (.ok (), if s.current.kind == .error then s else { s with
      diagnostics := s.diagnostics.push (.error .grammar "E0100" s.current.span
        s!"expected {what}, found {describeFound s.current}") }) := by
    unfold reportExpected
    rw [bind_run (get_run s)]
    split <;> rfl
  unfold Grammar.refuseExpected
  rw [bind_run hrun]
  split
  · exact ⟨.refl, fun hs _ => absurd (beq_iff_eq.1 ‹_›) hs.kind, fun _ => rfl⟩
  · exact ⟨.report .., fun _ _ => hasError_report .., fun _ => rfl⟩

end Tells

lemma isSound_afterAngle? {kind rest : TokenKind} (h : afterAngle? kind = some rest) :
    rest ≠ .error ∧ rest ∉ literalKinds := by
  unfold afterAngle? at h
  split at h <;> cases h <;> decide

lemma tells_closeAngle : Tells s (s.kind != .symbol .gt && (afterAngle? s.kind).isNone) (closeAngle s) := by
  by_cases hgt : s.kind = .symbol .gt
  · rw [closeAngle_run_of_eq hgt, hgt]
    exact Calm.advance.quiet nofun
  · rw [closeAngle_run_of_ne hgt]
    cases hrest : afterAngle? s.kind with
    | none =>
      rw [bne_iff_ne.2 hgt]
      exact .refuseExpected _
    | some rest =>
      obtain ⟨herror, hliteral⟩ := isSound_afterAngle? hrest
      rw [Option.isNone_some, Bool.and_false]
      refine Calm.quiet ⟨⟨rfl, rfl⟩, fun hs => ⟨fun t ht => ?_, hs.depth⟩, id⟩ nofun
      rcases mem_cons.1 ht with rfl | ht
      · exact Token.isSound_of_kind herror hliteral
      · exact hs.tokens t (.tail _ ht)

lemma calm_literalExpr : Calm s (literalExpr s).2 := by
  unfold literalExpr
  rw [bind_run bump_run]
  cases s.current.value <;> exact .advance

lemma hasError_nested (p : Parse α) (hs : s.Sound) (h : s.maxDepth < s.depth + 1) : (nested p s).2.HasError := by
  rw [nested_run_of_lt h]
  split
  · exact hs.depth ‹_›
  · exact hasError_report ..

/-- Along every course that refuses something an error is reported. -/
lemma Course.tells (c : Course p s) : Tells s c.refuses (p s) := by
  induction c with
  | pure | get | exhausted => exact Calm.quiet .refl nofun
  | bump => exact Calm.advance.quiet nofun
  | freshId => exact Calm.quiet ⟨⟨rfl, rfl⟩, fun hs => ⟨hs.tokens, hs.depth⟩, id⟩ nofun
  | report => exact Calm.quiet (.report ..) nofun
  | reject => exact ⟨.report .., fun _ _ => hasError_report .., fun _ => rfl⟩
  | forget => exact Calm.quiet ⟨⟨rfl, rfl⟩, fun hs => ⟨hs.tokens, fun h => by cases h⟩, id⟩ nofun
  | refuseExpected => exact .refuseExpected _
  | @literal s h =>
    refine ⟨calm_literalExpr, fun hs hnone => ?_, fun hr => ?_⟩
    · rw [refuses, Option.isNone_iff_eq_none] at hnone
      exact absurd hnone (Option.isSome_iff_ne_none.1 (hs.literal h))
    · cases hvalue : s.current.value with
      | none => rw [refuses, hvalue, Option.isNone_none]
      | some value =>
        rw [literalExpr_run hvalue] at hr
        cases hr
  | closeAngle => exact tells_closeAngle
  | @bind _ _ p f s first rest ihfirst ihrest =>
    rcases hrun : p s with ⟨stop | a, s'⟩
    all_goals rw [hrun] at ihfirst
    · rw [refuses_bind_of_error hrun, bind_error hrun]
      exact ⟨ihfirst.toCalm, ihfirst.tells, fun hr => ihfirst.refused (by cases hr; rfl)⟩
    · rw [refuses_bind_of_ok hrun, bind_run hrun]
      exact ihfirst.trans (ihrest a s' hrun)
  | @nested _ p s inner ih =>
    by_cases hdepth : s.depth + 1 ≤ s.maxDepth
    · have hcalm := ih.toCalm.nested
      rw [refuses, decide_eq_false (Nat.not_lt.2 hdepth), Bool.false_or]
      rw [nested_run hdepth (Prod.eta (p s.enter)).symm] at hcalm ⊢
      exact ⟨hcalm, fun hs => ih.tells ⟨hs.tokens, hs.depth⟩, ih.refused⟩
    · have hdeep := Nat.lt_of_not_le hdepth
      exact ⟨ih.toCalm.nested, fun hs _ => hasError_nested p hs hdeep, fun _ => by simp [refuses, hdeep]⟩
  | @recovering _ p r s first rest ihfirst ihrest =>
    rcases hrun : p s with ⟨(_ | _) | a, s'⟩
    all_goals rw [hrun] at ihfirst
    · rw [refuses_recovering_of_refused hrun, recovering_of_refused hrun]
      exact ihfirst.trans (ihrest s' hrun)
    · rwa [refuses_recovering_of_ne (by simp [hrun]), recovering_of_exhausted hrun]
    · rwa [refuses_recovering_of_ne (by simp [hrun]), recovering_of_ok hrun]

lemma Courses.calm (c : Courses p) (s : State) : Calm s (p s).2 := (c s).tells.toCalm

/-! ## Whole texts -/

variable {tokens : List Token}

lemma mem_startState (h : t ∈ (startState tokens maxDepth).current :: (startState tokens maxDepth).ahead) :
    t ∈ tokens ∨ t.kind = .eof := by
  unfold startState at h
  split at h
  · exact .inr (by simp_all)
  · rename_i first rest hfilter
    have hmem := hfilter ▸ h
    exact .inl ((mem_filter.1 hmem).1)

lemma sound_startState (h : ∀ t ∈ tokens, t.isSound) (maxDepth : Nat) : (startState tokens maxDepth).Sound := by
  refine ⟨fun t ht => ?_, fun hreported => ?_⟩
  · rcases mem_startState ht with ht | hkind
    · exact h t ht
    · exact Token.isSound_of_kind (by simp [hkind]) (by simp [hkind, literalKinds])
  · unfold startState at hreported
    split at hreported <;> cases hreported

end Grammar

end Kite
