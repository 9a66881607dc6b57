/-
The numbering of nodes changes nothing else. Two runs that see the same tokens, after the same
token and at the same depth, give the same trees up to the identities of their nodes, if one of
them has nothing to report. That run has refused nothing, so that no recovery is a part of it.
-/
import Kite.Proofs.Grammar.Bare
import Kite.Proofs.Grammar.Reports

namespace Kite.Grammar

variable {α β γ δ σ : Type} {s s' t t' : State}

/-- The states are at the same place of the same text. -/
structure Along (s t : State) : Prop where
  current : t.current = s.current
  ahead : t.ahead = s.ahead
  previous : t.previous = s.previous
  depth : t.depth = s.depth
  maxDepth : t.maxDepth = s.maxDepth

namespace Along

lemma kind_eq (h : Along s t) : t.kind = s.kind := by rw [State.kind, State.kind, h.current]

lemma nextKind_eq (h : Along s t) : t.nextKind = s.nextKind := by
  rw [State.nextKind, State.nextKind, h.current, h.ahead]

lemma lastSpan_eq (h : Along s t) : t.lastSpan = s.lastSpan := by
  rw [State.lastSpan, State.lastSpan, h.current, h.previous]

lemma weight_eq (h : Along s t) : t.weight = s.weight := by rw [State.weight, State.weight, h.current, h.ahead]

lemma advance (h : Along s t) : Along s.advance t.advance := by
  by_cases hkind : s.kind = .eof
  · rwa [advance_stays (.inl hkind), advance_stays (.inl (h.kind_eq.trans hkind))]
  · cases hahead : s.ahead with
    | nil => rwa [advance_stays (.inr hahead), advance_stays (.inr (h.ahead.trans hahead))]
    | cons token rest =>
      rw [advance_eq hkind hahead, advance_eq (h.kind_eq ▸ hkind) (h.ahead.trans hahead)]
      exact ⟨rfl, rfl, congrArg (some ·.span) h.current, h.depth, h.maxDepth⟩

end Along

/-! ## Steps -/

/-- What `p` gives without an error, `q` gives at the same place of the text, as far as `view` can
tell. -/
structure Follows (view : α → γ) (p q : Parse α) (s : State) : Prop where
  calm : Calm s (p s).2
  run : ∀ t a s', s.Sound → Along s t → p s = (.ok a, s') → ¬ s'.HasError →
    ∃ b t', q t = (.ok b, t') ∧ view a = view b ∧ Along s' t'

namespace Follows

variable {p q : Parse α} {f f' : α → Parse β} {v : α → γ} {w : β → δ}

lemma pure (h : v a = v b) : Follows v (pure a) (pure b) s := by
  refine ⟨.refl, fun t a' s' _ halong hrun _ => ?_⟩
  obtain ⟨rfl, rfl⟩ := pure_ok hrun
  exact ⟨b, t, rfl, h, halong⟩

lemma bind (hp : Follows v p q s) (hf : ∀ a b s', v a = v b → Follows w (f a) (f' b) s') :
    Follows w (p >>= f) (q >>= f') s := by
  refine ⟨hp.calm.bind fun a s' _ => (hf a a s' rfl).calm, fun t b s'' hs halong hrun hclean => ?_⟩
  obtain ⟨a, s', ha, hb⟩ := bind_ok hrun
  have hsound : s'.Sound := by simpa [ha] using hp.calm.sound hs
  have hkeeps := (hf a a s' rfl).calm.keeps
  rw [hb] at hkeeps
  obtain ⟨a', t', ha', hview, halong'⟩ := hp.run t a s' hs halong ha fun herror => hclean (hkeeps herror)
  obtain ⟨b', t'', hb', hview', halong''⟩ := (hf a a' s' hview).run t' b s'' hsound halong' hb hclean
  exact ⟨b', t'', by rw [bind_run ha', hb'], hview', halong''⟩

lemma mono (h : Follows v p q s) (hview : ∀ a b, v a = v b → v' a = v' b) : Follows v' p q s := by
  refine ⟨h.calm, fun t a s' hs halong hrun hclean => ?_⟩
  obtain ⟨b, t', hb, hv, halong'⟩ := h.run t a s' hs halong hrun hclean
  exact ⟨b, t', hb, hview a b hv, halong'⟩

lemma ite [Decidable c] (hp : Follows v p q s) (hp' : Follows v p' q' s) :
    Follows v (if c then p else p') (if c then q else q') s := by
  split
  · exact hp
  · exact hp'

lemma read_bind {look : State → α} (h : ∀ s, p s = (.ok (look s), s))
    (hlook : ∀ {s t}, Along s t → v (look s) = v (look t))
    (hf : ∀ b, v (look s) = v b → Follows w (f (look s)) (f' b) s) : Follows w (p >>= f) (p >>= f') s := by
  have hrun {u : State} (f : α → Parse β) : (p >>= f) u = f (look u) u := bind_run (h u)
  refine ⟨?_, fun t b s' hs halong hb hclean => ?_⟩
  · rw [hrun]
    exact (hf _ rfl).calm
  · rw [hrun] at hb ⊢
    exact (hf _ (hlook halong)).run t b s' hs halong hb hclean

lemma bump_bind {f f' : Token → Parse β} (hf : Follows w (f s.current) (f' s.current) s.advance) :
    Follows w (bump >>= f) (bump >>= f') s := by
  have hrun {u : State} (f : Token → Parse β) : (bump >>= f) u = f u.current u.advance := bind_run bump_run
  refine ⟨Calm.advance.trans hf.calm, fun t b s' hs halong hb hclean => ?_⟩
  rw [hrun] at hb ⊢
  rw [halong.current]
  exact hf.run t.advance b s' (Calm.advance.sound hs) halong.advance hb hclean

lemma freshId : Follows (fun _ => ()) freshId freshId s := by
  refine ⟨Courses.freshId.calm s, fun t a s' _ halong hrun _ => ?_⟩
  cases hrun
  exact ⟨_, _, freshId_run t, rfl, halong.current, halong.ahead, halong.previous, halong.depth, halong.maxDepth⟩

lemma never (hcalm : Calm s (p s).2) (h : ∀ s a s', p s ≠ (.ok a, s')) : Follows v p q s :=
  ⟨hcalm, fun _ a s' _ _ hrun _ => absurd hrun (h s a s')⟩

lemma refuse : Follows v (refuse : Parse α) q s :=
  never .refl fun _ _ _ hrun => not_refuse hrun

lemma exhausted : Follows v (throw .exhausted : Parse α) q s :=
  never .refl fun _ _ _ hrun => by cases hrun

lemma refuseExpected : Follows v (refuseExpected what : Parse α) q s :=
  never (Courses.refuseExpected.calm s) fun _ _ _ hrun => not_refuseExpected hrun

lemma reject (code : String) (span : Span) (message : String) :
    Follows v (do report code span message; Grammar.refuse : Parse α) q s :=
  never (.report code span message) fun _ _ _ hrun => by cases hrun

lemma closeAngle : Follows id closeAngle closeAngle s := by
  refine ⟨Courses.closeAngle.calm s, fun t a s' _ halong hrun _ => ?_⟩
  by_cases hgt : s.kind = .symbol .gt
  · rw [closeAngle_run_of_eq hgt] at hrun
    cases hrun
    exact ⟨(), _, closeAngle_run_of_eq (halong.kind_eq.trans hgt), rfl, halong.advance⟩
  · have htwin := closeAngle_run_of_ne (s := t) (halong.kind_eq ▸ hgt)
    rw [closeAngle_run_of_ne hgt] at hrun
    rw [halong.kind_eq] at htwin
    cases hrest : afterAngle? s.kind with
    | none =>
      rw [hrest] at hrun
      exact (not_refuseExpected hrun).elim
    | some rest =>
      rw [hrest] at hrun htwin
      cases hrun
      refine ⟨(), _, htwin, rfl, ?_, halong.ahead, halong.previous, halong.depth, halong.maxDepth⟩
      simp only [halong.current]

lemma nested (h : Follows v p q s.enter) : Follows v (nested p) (nested q) s := by
  refine ⟨h.calm.nested, fun t a s' hs halong hrun hclean => ?_⟩
  obtain ⟨s₁, hrun', rfl⟩ := nested_ok hrun
  have hfits : s.depth + 1 ≤ s.maxDepth := by
    refine Nat.le_of_not_lt fun hdeep => ?_
    rw [nested_run_of_lt hdeep] at hrun
    cases hrun
  obtain ⟨b, t₁, hb, hview, halong'⟩ := h.run t.enter a s₁ ⟨hs.tokens, hs.depth⟩
    ⟨halong.current, halong.ahead, halong.previous, congrArg (· + 1) halong.depth, halong.maxDepth⟩ hrun' hclean
  refine ⟨b, t₁.leave, nested_run ?_ hb, hview, halong'.current, halong'.ahead, halong'.previous,
    congrArg (· - 1) halong'.depth, halong'.maxDepth⟩
  rwa [halong.depth, halong.maxDepth]

/-- Without an error nothing was refused, and nothing is recovered from. -/
lemma recovering (h : Follows v p q s) (c : Courses p) (cr : Courses r) :
    Follows v (recovering p r) (recovering q r') s := by
  refine ⟨(c.recovering cr).calm s, fun t a s' hs halong hrun hclean => ?_⟩
  rcases hp : p s with ⟨(_ | _) | b, s₁⟩
  · have htells := (c s).tells
    rw [hp] at htells
    rw [recovering_of_refused hp] at hrun
    have hkeeps := (cr.calm s₁).keeps (htells.tells hs (htells.refused rfl))
    rw [hrun] at hkeeps
    exact absurd hkeeps hclean
  · rw [recovering_of_exhausted hp] at hrun
    cases hrun
  · rw [recovering_of_ok hp] at hrun
    cases hrun
    obtain ⟨b, t', hb, hview, halong'⟩ := h.run t a s' hs halong hp hclean
    exact ⟨b, t', recovering_of_ok hb, hview, halong'⟩

lemma iterate (h : ∀ a b s', u a = u b → Follows (Sum.map u w) (step a) (step' b) s') :
    ∀ fuel a b s, u a = u b → Follows w (iterate step fuel a) (iterate step' fuel b) s
  | 0, _, _, _, _ => exhausted
  | fuel + 1, a, b, s, hab => by
    refine bind (h a b s hab) fun r r' s' hr => ?_
    cases r with
    | inl next =>
      cases r' with
      | inl next' => exact iterate h fuel next next' s' (Sum.inl.inj hr)
      | inr _ => cases hr
    | inr result =>
      cases r' with
      | inl _ => cases hr
      | inr result' => exact pure (Sum.inr.inj hr)

lemma repeatFrom (h : ∀ a b s', u a = u b → Follows (Sum.map u w) (step a) (step' b) s') {a b : σ}
    (hab : u a = u b) : Follows w (repeatFrom a step) (repeatFrom b step') s := by
  refine read_bind (v := State.weight) get_run (fun halong => halong.weight_eq.symm) fun t hweight => ?_
  rw [hweight]
  exact iterate h _ a b s hab

end Follows

end Kite.Grammar
