/-
Parsing ends. The bound on the recursion of the grammar and the bounds on its loops are never
reached: `State.weight` is less after every round of every loop, and on the way down from one
production to the next but two. So a unit is parsed to the end of its text, an expression is found
or refused, and a greater bound changes nothing. This is `parsing_ends`.

The weight and not the number of tokens decreases, since a closing angle may be split off the
token it begins. A step that fails may leave everything as it was; then the token at which it
failed is the one that its recovery has to pass.
-/
import Kite.Proofs.Grammar.Steps

namespace Kite.Grammar

open List

variable {α β σ : Type} {s s' : State} {w : Nat} {r : Parse α} {step : σ → Parse (σ ⊕ β)}

/-! ## What is left -/

lemma weight_eq (s : State) :
    s.weight = tokenWeight s.kind + s.ahead.foldr (fun token n => tokenWeight token.kind + n) 0 := by
  have hfold (ts : List Token) (n : Nat) : ts.foldr (fun token n => tokenWeight token.kind + n) n
      = n + ts.foldr (fun token n => tokenWeight token.kind + n) 0 := by
    induction ts with
    | nil => rw [foldr_nil, foldr_nil, Nat.add_zero]
    | cons t ts ih =>
      rw [foldr_cons, foldr_cons, ih]
      omega
  exact hfold s.ahead _

lemma tokenWeight_pos {kind : TokenKind} (h : kind ≠ .eof) : 0 < tokenWeight kind := by
  unfold tokenWeight
  split <;> simp_all

lemma weight_advance (hended : s.Ended) (hkind : s.kind ≠ .eof) : s.advance.weight < s.weight := by
  obtain ⟨t, rest, hahead⟩ := hended.ahead hkind
  have hpos := tokenWeight_pos hkind
  have hnext : s.advance.weight = tokenWeight t.kind + rest.foldr (fun token n => tokenWeight token.kind + n) 0 := by
    rw [advance_eq hkind hahead, weight_eq]
    rfl
  rw [hnext, weight_eq s, hahead, foldr_cons]
  omega

/-- A later state: some of what was left has been passed, or nothing has. -/
structure Later (s s' : State) : Prop where
  ended : s'.Ended
  passed : s'.weight < s.weight ∨ s'.current = s.current ∧ s'.ahead = s.ahead

namespace Later

lemma of_eq (hended : s.Ended) (hcurrent : s'.current = s.current) (hahead : s'.ahead = s.ahead) : Later s s' := by
  refine ⟨?_, .inr ⟨hcurrent, hahead⟩⟩
  unfold State.Ended State.words at *
  rwa [hcurrent, hahead]

lemma refl (hended : s.Ended) : Later s s := of_eq hended rfl rfl

lemma weight_le (h : Later s s') : s'.weight ≤ s.weight := by
  rcases h.passed with hlt | ⟨hcurrent, hahead⟩
  · exact Nat.le_of_lt hlt
  · exact Nat.le_of_eq (by rw [State.weight, State.weight, hcurrent, hahead])

lemma trans (h : Later s s') (h' : Later s' s'') : Later s s'' := by
  refine ⟨h'.ended, ?_⟩
  have hle := h'.weight_le
  rcases h.passed with hlt | ⟨hcurrent, hahead⟩
  · exact .inl (Nat.lt_of_le_of_lt hle hlt)
  · rcases h'.passed with hlt | ⟨hcurrent', hahead'⟩
    · exact .inl (Nat.lt_of_lt_of_le hlt h.weight_le)
    · exact .inr ⟨hcurrent'.trans hcurrent, hahead'.trans hahead⟩

lemma advance (hended : s.Ended) : Later s s.advance := by
  by_cases hkind : s.kind = .eof
  · rw [advance_stays (.inl hkind)]
    exact refl hended
  · exact ⟨hended.advance hkind, .inl (weight_advance hended hkind)⟩

end Later

/-! ## Steps that end -/

/-- From a state on, `p` comes to an end within its bounds and not before that state, and does what
`q` does. What it gives has the property `Q`. -/
structure Ends (p q : Parse α) (s : State) (Q : α → State → Prop) : Prop where
  same : q s = p s
  later : Later s (p s).2
  bounded : (p s).1 ≠ .error .exhausted
  post : ∀ a s', p s = (.ok a, s') → Q a s'

/-- What `p` gives is behind at least one token. -/
abbrev Takes (p q : Parse α) (s : State) : Prop := Ends p q s fun _ s' => s'.weight < s.weight

variable {a : α}

namespace Ends

variable {p q : Parse α} {f f' : α → Parse β} {P Q : α → State → Prop} {R : β → State → Prop}

lemma mono (h : Ends p q s P) (hQ : ∀ a s', Later s s' → P a s' → Q a s') : Ends p q s Q := by
  refine ⟨h.same, h.later, h.bounded, fun a s' hrun => hQ a s' ?_ (h.post a s' hrun)⟩
  have hlater := h.later
  rwa [hrun] at hlater

lemma of_ok (h : p s = (.ok a, s')) (hlater : Later s s') (hQ : Q a s') : Ends p p s Q := by
  refine ⟨rfl, by rwa [h], by simp [h], fun b s'' hrun => ?_⟩
  rw [h] at hrun
  cases hrun
  exact hQ

lemma of_refused (h : p s = (.error .refused, s')) (hlater : Later s s') : Ends p p s Q := by
  refine ⟨rfl, by rwa [h], by simp [h], fun b s'' hrun => ?_⟩
  rw [h] at hrun
  cases hrun

lemma pure (hended : s.Ended) (h : Q a s) : Ends (pure a) (pure a) s Q := of_ok pure_run (.refl hended) h

lemma bind (hp : Ends p q s P)
    (hf : ∀ a s', Later s s' → P a s' → Ends (f a) (f' a) s' R) : Ends (p >>= f) (q >>= f') s R := by
  have hlater := hp.later
  match hrun : p s with
  | (.ok a, s') =>
    rw [hrun] at hlater
    have h := hf a s' hlater (hp.post a s' hrun)
    have hleft : (p >>= f) s = f a s' := bind_run hrun
    have hright : (q >>= f') s = f' a s' := bind_run (hp.same.trans hrun)
    exact ⟨by rw [hleft, hright, h.same], by rw [hleft]; exact hlater.trans h.later,
      by rw [hleft]; exact h.bounded, by rw [hleft]; exact h.post⟩
  | (.error .refused, s') =>
    rw [hrun] at hlater
    have hleft : (p >>= f) s = (.error .refused, s') := bind_error hrun
    have hright : (q >>= f') s = (.error .refused, s') := bind_error (hp.same.trans hrun)
    refine ⟨by rw [hleft, hright], by rwa [hleft], by simp [hleft], fun b s'' h => ?_⟩
    rw [hleft] at h
    cases h
  | (.error .exhausted, s') => exact absurd (by rw [hrun]) hp.bounded

lemma ite {c : Prop} [Decidable c] (hp : c → Ends p q s Q)
    (hp' : ¬ c → Ends p' q' s Q) : Ends (if c then p else p') (if c then q else q') s Q := by
  split
  · exact hp ‹_›
  · exact hp' ‹_›

lemma congr (h : Ends p₁ q₁ s Q) (hp : p s = p₁ s) (hq : q s = q₁ s) : Ends p q s Q :=
  ⟨by rw [hp, hq, h.same], by rw [hp]; exact h.later, by rw [hp]; exact h.bounded, by rw [hp]; exact h.post⟩

lemma read_bind (hp : p s = (.ok a, s)) (h : Ends (f a) (f' a) s R) : Ends (p >>= f) (p >>= f') s R :=
  h.congr (bind_run hp) (bind_run hp)

lemma kind_bind {f f' : TokenKind → Parse β} (h : Ends (f s.kind) (f' s.kind) s R) :
    Ends (kind >>= f) (kind >>= f') s R :=
  read_bind (kind_run s) h

end Ends

lemma ends_reportExpected (hended : s.Ended) : Ends (reportExpected what) (reportExpected what) s fun _ _ => True :=
  .read_bind (get_run s) (.ite (fun _ => .pure hended trivial) fun _ => .of_ok rfl (.of_eq hended rfl rfl) trivial)

variable {Q : α → State → Prop}

lemma ends_refuseExpected (hended : s.Ended) : Ends (refuseExpected what) (refuseExpected what) s Q :=
  (ends_reportExpected hended).bind fun _ _ hlater _ => .of_refused rfl (.refl hlater.ended)

lemma tokenWeight_afterAngle? {kind rest : TokenKind} (h : afterAngle? kind = some rest) :
    tokenWeight rest < tokenWeight kind ∧ kind ≠ .eof := by
  unfold afterAngle? at h
  split at h <;> cases h <;> decide

lemma ends_closeAngle (hended : s.Ended) : Ends closeAngle closeAngle s fun _ _ => True := by
  refine .read_bind (get_run s) (.ite (fun _ => ?_) fun _ => ?_)
  · exact .of_ok set_run (.advance hended) trivial
  · split
    · exact ends_refuseExpected hended
    · rename_i rest hrest
      obtain ⟨hlt, heof⟩ := tokenWeight_afterAngle? hrest
      obtain ⟨t, ts, hahead⟩ := hended.ahead heof
      refine .of_ok set_run ⟨?_, .inl ?_⟩ trivial
      · unfold State.Ended State.words at *
        rw [hahead] at hended ⊢
        simpa using hended
      · rw [weight_eq, weight_eq s]
        exact Nat.add_lt_add_right hlt _

lemma takes_bump_then (hended : s.Ended) (hkind : s.kind ≠ .eof) :
    Takes (do let _ ← bump; return a) (do let _ ← bump; return a) s :=
  .of_ok (bind_run bump_run) (.advance hended) (weight_advance hended hkind)

/-! ## Loops -/

/-- A round of a loop has less left than there was before it, unless it is the last. -/
def Shrinks (w : Nat) (step step' : σ → Parse (σ ⊕ β)) : Prop :=
  ∀ a s, s.Ended → s.weight < w → Ends (step a) (step' a) s fun r s' => r.isLeft → s'.weight < s.weight

variable {step' : σ → Parse (σ ⊕ β)}

lemma ends_iterate (h : ∀ a s', Later s s' → Ends (step a) (step' a) s'
      fun r s'' => r.isLeft → s''.weight < s'.weight) : ∀ fuel a s', Later s s' →
      s'.weight < fuel → Ends (iterate step fuel a) (iterate step' fuel a) s' fun _ _ => True
  | 0, _, _, _, hfuel => by omega
  | fuel + 1, a, s', hs, hfuel => by
    refine (h a s' hs).bind fun r s'' hlater hr => ?_
    cases r with
    | inl b =>
      have hlt := hr rfl
      exact ends_iterate h fuel b s'' (hs.trans hlater) (by omega)
    | inr b => exact .pure hlater.ended trivial

lemma Shrinks.later (h : Shrinks w step step') (hw : s.weight < w) (a : σ) (s' : State)
    (hlater : Later s s') : Ends (step a) (step' a) s' fun r s'' => r.isLeft → s''.weight < s'.weight :=
  h a s' hlater.ended (Nat.lt_of_le_of_lt hlater.weight_le hw)

lemma Shrinks.ends_repeatFrom (h : Shrinks w step step') (a : σ) (hended : s.Ended)
    (hw : s.weight < w) : Ends (repeatFrom a step) (repeatFrom a step') s fun _ _ => True :=
  .read_bind (get_run s) (ends_iterate (h.later hw) _ a s (.refl hended) (Nat.lt_succ_self _))

/-- A loop gives the same whatever bound it has, if the bound is greater than what is left. -/
lemma Shrinks.iterate_eq (h : Shrinks w step step) (fuel fuel' : Nat) (a : σ) (s : State)
    (hended : s.Ended) (hw : s.weight < w) (hfuel : s.weight < fuel) (hfuel' : s.weight < fuel') :
    iterate step fuel a s = iterate step fuel' a s := by
  induction fuel generalizing fuel' a s with
  | zero => exact absurd hfuel (Nat.not_lt_zero _)
  | succ fuel ih =>
    obtain ⟨fuel', rfl⟩ : ∃ n, fuel' = n + 1 := ⟨fuel' - 1, by omega⟩
    have hstep := h a s hended hw
    have hlater := hstep.later
    rw [Grammar.iterate, Grammar.iterate]
    rcases hrun : step a s with ⟨stop | b | b, s'⟩
    · rw [bind_error hrun, bind_error hrun]
    · rw [hrun] at hlater
      have hlt := hstep.post _ _ hrun rfl
      rw [bind_run hrun, bind_run hrun]
      exact ih fuel' b s' hlater.ended (by omega) (by omega) (by omega)
    · rw [bind_run hrun, bind_run hrun]

lemma shrinks_last (hended : s.Ended) {b : β} :
    Ends (pure (.inr b) : Parse (σ ⊕ β)) (pure (.inr b)) s fun r s' => r.isLeft → s'.weight < s.weight :=
  .pure hended (by simp)

/-! ## Recovery -/

variable {p : Parse α}

lemma recovering_eq : recovering p r s =
    match p s with
    | (.error .refused, s') => r s'
    | outcome => outcome := by
  simp only [recovering, tryCatch, tryCatchThe, MonadExceptOf.tryCatch, ExceptT.tryCatch, ExceptT.mk, bind, StateT.bind]
  rcases p s with ⟨⟨_ | _⟩ | _, _⟩ <;> rfl

lemma recovering_of_ok (h : p s = (.ok a, s')) : recovering p r s = (.ok a, s') := by rw [recovering_eq, h]

lemma recovering_of_refused (h : p s = (.error .refused, s')) : recovering p r s = r s' := by rw [recovering_eq, h]

lemma recovering_of_exhausted (h : p s = (.error .exhausted, s')) : recovering p r s = (.error .exhausted, s') := by
  rw [recovering_eq, h]

lemma Ends.recovering (hp : Ends p q s Q)
    (hr : ∀ s', Later s s' → Ends r r' s' Q) : Ends (recovering p r) (recovering q r') s Q := by
  have hlater := hp.later
  match hrun : p s with
  | (.ok a, s') =>
    rw [hrun] at hlater
    have h : Ends p p s Q := .of_ok hrun hlater (hp.post a s' hrun)
    exact h.congr ((recovering_of_ok hrun).trans hrun.symm) ((recovering_of_ok (hp.same.trans hrun)).trans hrun.symm)
  | (.error .refused, s') =>
    rw [hrun] at hlater
    have h := hr s' hlater
    have hleft := recovering_of_refused (r := r) hrun
    have hright := recovering_of_refused (r := r') (hp.same.trans hrun)
    exact ⟨by rw [hleft, hright, h.same], by rw [hleft]; exact hlater.trans h.later,
      by rw [hleft]; exact h.bounded, by rw [hleft]; exact h.post⟩
  | (.error .exhausted, s') => exact absurd (by rw [hrun]) hp.bounded

lemma shrinks_skipRound (decide : Nat → Bool → TokenKind → Sync) :
    Shrinks w (skipRound decide) (skipRound decide) := by
  rintro ⟨depth, moved⟩ s hended hw
  refine .kind_bind (.ite (fun _ => shrinks_last hended) fun hkind => ?_)
  split
  · exact shrinks_last hended
  iterate 2
    · exact (takes_bump_then hended (by simpa using hkind)).mono fun _ _ _ hlt _ => hlt

lemma ends_skipTo (decide : Nat → Bool → TokenKind → Sync) (hended : s.Ended) :
    Ends (skipTo decide) (skipTo decide) s fun _ s' =>
      s.kind ≠ .eof → decide 0 false s.kind ≠ .stop → s'.weight < s.weight := by
  have hfirst : Ends (skipRound decide (0, false)) (skipRound decide (0, false)) s fun r s' =>
      (r.isLeft → s'.weight < s.weight) ∧ (s.kind ≠ .eof → decide 0 false s.kind ≠ .stop → s'.weight < s.weight) := by
    refine .kind_bind (.ite (fun heof => ?_) fun hkind => ?_)
    · exact .pure hended ⟨by simp, fun hne => absurd (by simpa using heof) hne⟩
    · have hbump {r : (Nat × Bool) ⊕ Unit} := takes_bump_then (a := r) hended (by simpa using hkind)
      split
      · exact .pure hended ⟨by simp, fun _ hne => absurd ‹_› hne⟩
      iterate 2
        · exact hbump.mono fun _ _ _ h => ⟨fun _ => h, fun _ _ => h⟩
  refine .read_bind (get_run s) (hfirst.bind fun r s' hlater hr => ?_)
  cases r with
  | inl b =>
    have hlt := hr.1 rfl
    refine (ends_iterate ((shrinks_skipRound decide).later hlt) s.weight b s' (.refl hlater.ended) hlt).mono ?_
    exact fun _ _ hlater' _ _ _ => Nat.lt_of_le_of_lt hlater'.weight_le hlt
  | inr b => exact .pure hlater.ended hr.2

lemma ends_syncItem (hended : s.Ended) : Ends syncItem syncItem s fun _ s' => s.kind ≠ .eof → s'.weight < s.weight :=
  (ends_skipTo _ hended).mono fun _ _ _ h hkind => h hkind (by simp)

lemma ends_syncStmt (hended : s.Ended) :
    Ends syncStmt syncStmt s fun _ s' => s.kind ≠ .eof ∧ s.kind ≠ .symbol .rbrace → s'.weight < s.weight := by
  have hreset : Ends (modify fun s => { s with depthReported := false } : Parse Unit)
      (modify fun s => { s with depthReported := false }) s fun _ s' => s'.kind = s.kind ∧ s'.weight = s.weight :=
    .of_ok rfl (.of_eq hended rfl rfl) ⟨rfl, rfl⟩
  refine hreset.bind fun _ s' hlater hsame => (ends_skipTo _ hlater.ended).mono fun _ _ _ h hkind => ?_
  rw [hsame.1, hsame.2] at h
  refine h hkind.1 ?_
  simp only [bne_self_eq_false, Bool.false_eq_true, if_false, beq_iff_eq, hkind.2, Bool.false_and]
  split <;> simp

lemma ends_syncArm (hended : s.Ended) :
    Ends syncArm syncArm s fun _ s' => s.kind ≠ .eof ∧ s.kind ≠ .symbol .rbrace → s'.weight < s.weight := by
  refine (ends_skipTo _ hended).mono fun _ _ _ h hkind => h hkind.1 ?_
  simp only [bne_self_eq_false, Bool.false_eq_true, if_false, beq_iff_eq, hkind.2]
  split <;> simp

/-- A round that skips what a failed step has left passes a token: if the step passed none, the
recovery goes on from the token at which the step began. -/
lemma shrinks_recovery (goesOn : TokenKind → Prop)
    (hsync : ∀ {s}, s.Ended → Ends sync sync s fun _ s' => goesOn s.kind → s'.weight < s.weight)
    (hlater : Later s s') (hkind : goesOn s.kind) :
    Ends (do sync; return .inl b : Parse (σ ⊕ β)) (do sync; return .inl b) s'
      fun r s'' => r.isLeft → s''.weight < s.weight := by
  refine (hsync hlater.ended).bind fun _ s'' hlater' h => .pure hlater'.ended fun _ => ?_
  rcases hlater.passed with hlt | ⟨hcurrent, -⟩
  · exact Nat.lt_of_le_of_lt hlater'.weight_le hlt
  · have hsame : s'.kind = s.kind := by rw [State.kind, State.kind, hcurrent]
    rw [hsame] at h
    exact Nat.lt_of_lt_of_le (h hkind) hlater.weight_le

/-! ## Nesting -/

lemma Takes.nested (hended : s.Ended) (h : Takes p q s.enter) : Takes (nested p) (nested q) s := by
  by_cases hdepth : s.depth + 1 ≤ s.maxDepth
  · have hleft := nested_run hdepth (Prod.eta (p s.enter)).symm
    have hright := nested_run hdepth (h.same.trans (Prod.eta (p s.enter)).symm)
    have hlater : Later s (p s.enter).2.leave := ⟨h.later.ended, h.later.passed⟩
    refine ⟨hright.trans hleft.symm, by rwa [hleft], by rw [hleft]; exact h.bounded, fun a s' hrun => ?_⟩
    obtain ⟨s₁, hinner, rfl⟩ := nested_ok hrun
    exact h.post a s₁ hinner
  · have hrun {p : Parse α} := nested_run_of_lt (p := p) (Nat.lt_of_not_le hdepth)
    exact (Ends.of_refused (p := Grammar.nested p) hrun (.of_eq hended (by split <;> rfl) (by split <;> rfl))).congr rfl
      (hrun.trans hrun.symm)

-- Two steps: what a production is as a function, and only then that the function is the rule.
lemma productions_stmt : (productions (n + 1)).stmt = stmt (productions n) :=
  calc (productions (n + 1)).stmt
    _ = fun closer s => stmt (productions n) closer s := by rw [productions]
    _ = stmt (productions n) := funext fun _ => funext fun _ => rfl

end Kite.Grammar
