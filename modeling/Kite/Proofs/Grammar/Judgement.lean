/-
What is said of the rules of the grammar is shown in one walk over them. A judgement speaks of a
step and of a second one beside it, which does the same with another table of productions; it is
kept by the ways in which steps are put together, and nothing else of it is used in the walk. That
parsing ends, that it respects brackets and that the numbering of nodes changes nothing are such
judgements.
-/
import Kite.Proofs.Grammar.Brackets
import Kite.Proofs.Grammar.Numbering

namespace Kite.Grammar

open Grammar

variable {start : Span}

lemma refuseExpected_bind (f : α → Parse β) : ((refuseExpected what : Parse α) >>= f) = refuseExpected what := by
  simp only [refuseExpected, bind_assoc]
  rfl

lemma map_toList {a b : Array α} (hab : a.map v = b.map v) : a.toList.map v = b.toList.map v := by
  rw [← Array.toList_map, hab, Array.toList_map]

/-- The values look the same to `v`; and they are the same, if this is what matters. -/
@[simp, grind] def Alike {α γ : Type} (exact : Prop) (v : α → γ) (a b : α) : Prop := v a = v b ∧ (exact → a = b)

lemma Alike.fst {exact : Prop} (h : Alike exact (Prod.map v w) a b) : Alike exact v a.1 b.1 :=
  ⟨congrArg Prod.fst h.1, fun hexact => congrArg Prod.fst (h.2 hexact)⟩

structure Judgement where
  /-- Whether what two steps give has to be the same, or only to look the same. -/
  exact : Prop
  /-- The step `p`, taken at `s` beside `q`: from inside the brackets `own` to inside `own'`. What
  they give looks the same to `v`, and is behind a token if `k` holds of it. -/
  Holds {α γ : Type} (own own' : List Bracket) (v : α → γ) (k : α → Bool) (p q : Parse α) (s : State) : Prop
  /-- A state that is not before another one. -/
  Le (s s' : State) : Prop
  /-- A state that is behind another one. -/
  Lt (s s' : State) : Prop
  /-- Whether a step that refuses has said so. -/
  Told {α : Type} (p : Parse α) : Prop
  le_of_lt {s s'} (h : Lt s s') : Le s s'
  lt_of_lt_of_le {s s' s''} (h : Lt s s') (h' : Le s' s'') : Lt s s''
  mono {α γ δ own own' k k' p q s} {v : α → γ} {v' : α → δ} (h : Holds own own' v k p q s)
    (hv : ∀ a b, v a = v b → v' a = v' b) (hk : ∀ a, k' a → k a) : Holds own own' v' k' p q s
  holds_pure {α γ own k a b s} {v : α → γ} (hv : Alike exact v a b) (hk : k a = false) :
    Holds own own v k (pure a) (pure b) s
  holds_bind {α β γ δ own own' own'' k l p q s} {v : α → γ} {w : β → δ} {f f' : α → Parse β}
    (hp : Holds own own' v k p q s) (hf : ∀ a b s', Alike exact v a b → Le s s' → (k a → Lt s s') →
      Holds own' own'' w (fun c => !k a && l c) (f a) (f' b) s') : Holds own own'' w l (p >>= f) (q >>= f') s
  holds_read_bind {α β γ δ own own' l s} {v : α → γ} {w : β → δ} {look : State → α} {p : Parse α}
    {f f' : α → Parse β} (hp : ∀ s, p s = (.ok (look s), s))
    (hlook : ∀ {s t}, Along s t → v (look s) = v (look t))
    (hf : ∀ b, Alike exact v (look s) b → Holds own own' w l (f (look s)) (f' b) s) :
    Holds own own' w l (p >>= f) (p >>= f') s
  holds_bump_bind {β δ own own' own'' l} {w : β → δ} {f f' : Token → Parse β} {s : State} (h : Nests own s.kind own')
    (hf : Lt s s.advance → Holds own' own'' w (fun _ => false) (f s.current) (f' s.current) s.advance) :
    Holds own own'' w l (bump >>= f) (bump >>= f') s
  holds_freshId {own s} : Holds own own (fun _ => ()) (fun _ => false) freshId freshId s
  holds_refuse {α γ own own' k s} {v : α → γ} : Holds own own' v k refuse refuse s
  holds_reject {α γ own own' k s} {v : α → γ} (code span message) :
    Holds own own' v k (do report code span message; Grammar.refuse) (do report code span message; Grammar.refuse) s
  holds_refuseExpected {α γ own own' k s what} {v : α → γ} :
    Holds own own' v k (refuseExpected what) (refuseExpected what) s
  holds_closeAngle {own s} : Holds own own id (fun _ => false) closeAngle closeAngle s
  holds_repeatFrom {σ τ β δ own s a b} {u : σ → τ} {w : β → δ} {step step' : σ → Parse (σ ⊕ β)}
    (h : ∀ a b s', Alike exact u a b → Le s s' → Holds own own (Sum.map u w) Sum.isLeft (step a) (step' b) s')
    (hab : Alike exact u a b) : Holds own own w (fun _ => false) (repeatFrom a step) (repeatFrom b step') s
  /-- A round inside a brace whose step may be skipped. -/
  holds_recovering {σ τ β δ own sync a b} {u : σ → τ} {w : β → δ} {p q : Parse (σ ⊕ β)} {s : State}
    (hsync : sync = syncArm ∨ sync = syncStmt)
    (hp : Holds [] [] (Sum.map u w) Sum.isLeft p q s) (htold : Told p) (hab : Alike exact u a b) (heof : s.kind ≠ .eof)
    (hbrace : s.kind ≠ .symbol .rbrace) :
    Holds (.brace :: own) (.brace :: own) (Sum.map u w) Sum.isLeft (recovering p do sync; return .inl a)
      (recovering q do sync; return .inl b) s

namespace Judgement

variable {α β γ δ σ τ : Type} {J : Judgement} {s s' : State} {own own' own'' : List Bracket} {v : α → γ} {w : β → δ}
  {u : σ → τ} {k : α → Bool} {l : β → Bool} {p q p' q' : Parse α} {f f' : α → Parse β} {step step' : σ → Parse (σ ⊕ β)}
  {expected : TokenKind} {what : String} {b : Bracket}

/-- What the step gives is behind a token. -/
abbrev Takes (J : Judgement) (own own' : List Bracket) (v : α → γ) (p q : Parse α) (s : State) : Prop :=
  J.Holds own own' v (fun _ => true) p q s

/-- The judgement holds wherever one comes behind `s`. -/
def Lasts (J : Judgement) (s : State) (own own' : List Bracket) (v : α → γ) (p q : Parse α) : Prop :=
  ∀ s', J.Lt s s' → J.Holds own own' v (fun _ => false) p q s'

/-- A round of a loop behind `s`, which takes a token unless it is the last. -/
def Rounds (J : Judgement) (s : State) (own : List Bracket) (u : σ → τ) (w : β → δ)
    (step step' : σ → Parse (σ ⊕ β)) : Prop :=
  ∀ a b s', Alike J.exact u a b → J.Lt s s' → J.Holds own own (Sum.map u w) Sum.isLeft (step a) (step' b) s'

lemma lt_trans (h : J.Lt s s') (h' : J.Lt s' s'') : J.Lt s s'' := J.lt_of_lt_of_le h (J.le_of_lt h')

/-! ## At a state -/

namespace Holds

lemma of_takes (h : J.Takes own own' v p q s) : J.Holds own own' v k p q s :=
  J.mono h (fun _ _ hv => hv) fun _ _ => rfl

lemma bind (hp : J.Takes own own' v p q s) (hf : ∀ {a b}, Alike J.exact v a b → J.Lasts s own' own'' w (f a) (f' b)) :
    J.Holds own own'' w l (p >>= f) (q >>= f') s :=
  J.holds_bind hp fun _ _ s' hv _ hlt => hf hv s' (hlt rfl)

lemma bind_id (hp : J.Takes own own' id p q s) (hf : ∀ {a}, J.Lasts s own' own'' w (f a) (f' a)) :
    J.Holds own own'' w l (p >>= f) (q >>= f') s := by
  refine bind hp fun {a b} h => ?_
  cases (h.1 : a = b)
  exact hf

lemma after (hp : J.Holds own own' v (fun _ => false) p q s)
    (hf : ∀ a b s', Alike J.exact v a b → J.Le s s' → J.Holds own' own'' w l (f a) (f' b) s') :
    J.Holds own own'' w l (p >>= f) (q >>= f') s :=
  J.holds_bind hp fun a b s' hv hle _ => hf a b s' hv hle

lemma ite {c : Prop} [Decidable c] (hp : c → J.Holds own own' v k p q s) (hp' : ¬ c → J.Holds own own' v k p' q' s) :
    J.Holds own own' v k (if c then p else p') (if c then q else q') s := by
  split
  · exact hp ‹_›
  · exact hp' ‹_›

lemma read_bind {look : State → α} (hp : ∀ s, p s = (.ok (look s), s)) (hlook : ∀ {s t}, Along s t → look s = look t)
    (h : J.Holds own own' w l (f (look s)) (f' (look s)) s) : J.Holds own own' w l (p >>= f) (p >>= f') s := by
  refine J.holds_read_bind (v := id) hp hlook fun b hb => ?_
  cases (hb.1 : look s = b)
  exact h

lemma kind_bind {f f' : TokenKind → Parse β} (h : J.Holds own own' w l (f s.kind) (f' s.kind) s) :
    J.Holds own own' w l (kind >>= f) (kind >>= f') s :=
  read_bind kind_run (fun h => h.kind_eq.symm) h

lemma nextKind_bind {f f' : TokenKind → Parse β} (h : J.Holds own own' w l (f s.nextKind) (f' s.nextKind) s) :
    J.Holds own own' w l (nextKind >>= f) (nextKind >>= f') s :=
  read_bind nextKind_run (fun h => h.nextKind_eq.symm) h

lemma here_bind {f f' : Span → Parse β} (h : J.Holds own own' w l (f s.current.span) (f' s.current.span) s) :
    J.Holds own own' w l (here >>= f) (here >>= f') s :=
  read_bind here_run (fun h => congrArg Token.span h.current.symm) h

lemma isAt_bind {f f' : Bool → Parse β}
    (h : J.Holds own own' w l (f (s.kind == expected)) (f' (s.kind == expected)) s) :
    J.Holds own own' w l (isAt expected >>= f) (isAt expected >>= f') s :=
  read_bind (isAt_run expected) (fun h => congrArg (· == expected) h.kind_eq.symm) h

lemma pure {a b : α} (h : Alike J.exact v a b) (hk : k a = false) : J.Holds own own v k (Pure.pure a) (Pure.pure b) s :=
  J.holds_pure h hk

lemma same (hk : k a = false) : J.Holds own own v k (Pure.pure a) (Pure.pure a) s := pure ⟨rfl, fun _ => rfl⟩ hk

lemma refuseExpected : J.Holds own own' v k (refuseExpected what) (refuseExpected what) s := J.holds_refuseExpected

lemma refuse_bind : J.Holds own own' w l ((Grammar.refuseExpected what : Parse α) >>= f)
    (Grammar.refuseExpected what >>= f') s := by
  rw [refuseExpected_bind, refuseExpected_bind]
  exact refuseExpected

lemma reject :
    J.Holds own own' v k (do report code span message; refuse)
      (do report code span message; refuse) s :=
  J.holds_reject _ _ _

lemma bump (h : Nests own s.kind own') : J.Takes own own' id bump bump s := by
  have hbump : J.Takes own own' id (Grammar.bump >>= Pure.pure) (Grammar.bump >>= Pure.pure) s :=
    J.holds_bump_bind h fun _ => J.holds_pure ⟨rfl, fun _ => rfl⟩ rfl
  rwa [bind_pure] at hbump

/-! A token is passed that is no bracket, or opens one. -/

lemma token (h : isOrdinary s.kind) : J.Takes own own id Grammar.bump Grammar.bump s := bump (.plain h)

lemma seen {kind : TokenKind} (h : s.kind = kind) (hkind : isOrdinary kind) :
    J.Takes own own id Grammar.bump Grammar.bump s :=
  token (h ▸ hkind)

lemma pass_bind {f f' : Token → Parse β} (h : isOrdinary s.kind) (hf : s.advance.kind = s.nextKind →
    J.Lt s s.advance → J.Holds own own' w (fun _ => false) (f s.current) (f' s.current) s.advance) :
    J.Holds own own' w l (Grammar.bump >>= f) (Grammar.bump >>= f') s :=
  J.holds_bump_bind (.plain h) (hf (kind_advance (show Nests own _ own from .plain h).ne_eof))

lemma eat_bind (h : Nests own expected own') {f f' : Bool → Parse β}
    (hyes : J.Lasts s own' own'' w (f true) (f' true))
    (hno : s.kind ≠ expected → J.Holds own own'' w l (f false) (f' false) s) :
    J.Holds own own'' w l (eat expected >>= f) (eat expected >>= f') s := by
  have heat (f : Bool → Parse β) : (eat expected >>= f) = isAt expected >>= fun b =>
      if b then Grammar.bump >>= fun _ => f true else f false := by
    simp only [eat, bind_assoc]
    refine congrArg _ (funext fun b => ?_)
    cases b <;> simp
  rw [heat, heat]
  refine isAt_bind (ite (fun hkind => ?_) fun hkind => hno (by simpa using hkind))
  exact bind_id (bump (by rwa [beq_iff_eq.1 hkind])) hyes

lemma expect (h : Nests own expected own') :
    J.Takes own own' id (expect expected what) (expect expected what) s :=
  isAt_bind (ite (fun hkind => bump (by rwa [beq_iff_eq.1 hkind])) fun _ => J.holds_refuseExpected)

end Holds

/-! ## Behind a state -/

namespace Lasts

variable {mk mk' : NodeId → Span → α}

lemma of_takes (h : ∀ {s'}, J.Lt s s' → J.Takes own own' v p q s') : J.Lasts s own own' v p q :=
  fun _ hlt => (h hlt).of_takes

lemma pure {a b : α} (h : Alike J.exact v a b) : J.Lasts s own own v (Pure.pure a) (Pure.pure b) :=
  fun _ _ => J.holds_pure h rfl

lemma same : J.Lasts s own own v (Pure.pure a) (Pure.pure a) := pure ⟨rfl, fun _ => rfl⟩

lemma bind (hp : J.Lasts s own own' v p q) (hf : ∀ {a b}, Alike J.exact v a b → J.Lasts s own' own'' w (f a) (f' b)) :
    J.Lasts s own own'' w (p >>= f) (q >>= f') :=
  fun s' hlt => (hp s' hlt).after fun _ _ s'' hv hle => hf hv s'' (J.lt_of_lt_of_le hlt hle)

lemma bind_id (hp : J.Lasts s own own' id p q) (hf : ∀ {a}, J.Lasts s own' own'' w (f a) (f' a)) :
    J.Lasts s own own'' w (p >>= f) (q >>= f') := by
  refine bind hp fun {a b} h => ?_
  cases (h.1 : a = b)
  exact hf

lemma pure_then {a b : α} (h : J.Lasts s own own' w (f a) (f' b)) :
    J.Lasts s own own' w (Pure.pure a >>= f) (Pure.pure b >>= f') := by
  rwa [pure_bind, pure_bind]

lemma ite [Decidable c] (hp : J.Lasts s own own' v p q) (hp' : J.Lasts s own own' v p' q') :
    J.Lasts s own own' v (if c then p else p') (if c then q else q') :=
  fun s' hlt => .ite (fun _ => hp s' hlt) fun _ => hp' s' hlt

lemma kind_bind {f f' : TokenKind → Parse β} (h : ∀ {kind}, J.Lasts s own own' w (f kind) (f' kind)) :
    J.Lasts s own own' w (kind >>= f) (kind >>= f') :=
  fun s' hlt => .kind_bind (h s' hlt)

lemma here_bind {f f' : Span → Parse β} (h : ∀ {start}, J.Lasts s own own' w (f start) (f' start)) :
    J.Lasts s own own' w (here >>= f) (here >>= f') :=
  fun s' hlt => .here_bind (h s' hlt)

lemma isAt_bind {f f' : Bool → Parse β} (h : ∀ {b}, J.Lasts s own own' w (f b) (f' b)) :
    J.Lasts s own own' w (isAt expected >>= f) (isAt expected >>= f') :=
  fun s' hlt => .isAt_bind (h s' hlt)

lemma span_bind {f f' : Span → Parse β} (h : ∀ {span}, J.Lasts s own own' w (f span) (f' span)) :
    J.Lasts s own own' w (spanFrom start >>= f) (spanFrom start >>= f') :=
  fun s' hlt => .read_bind (spanFrom_run start) (fun h => congrArg start.through h.lastSpan_eq.symm) (h s' hlt)

lemma id_bind {f f' : NodeId → Parse β} (h : ∀ {id id'}, (J.exact → id = id') → J.Lasts s own own' w (f id) (f' id')) :
    J.Lasts s own own' w (freshId >>= f) (freshId >>= f') :=
  bind (fun _ _ => J.holds_freshId) fun hid => h hid.2

lemma node (h : ∀ id id' span, (J.exact → id = id') → Alike J.exact v (mk id span) (mk' id' span)) :
    J.Lasts s own own v (do return mk (← freshId) (← spanFrom start)) (do return mk' (← freshId) (← spanFrom start)) :=
  id_bind fun hid => span_bind (pure (h _ _ _ hid))

lemma get_bind {f f' : State → Parse β}
    (h : ∀ {t t'}, Alike J.exact State.lastSpan t t' → J.Lasts s own own' w (f t) (f' t')) :
    J.Lasts s own own' w (get >>= f) (get >>= f') :=
  fun s' hlt => J.holds_read_bind (v := State.lastSpan) get_run (fun h => h.lastSpan_eq.symm) fun _ ht => h ht s' hlt

lemma refuse : J.Lasts s own own' v refuse refuse := fun _ _ => J.holds_refuse

lemma refuse_bind : J.Lasts s own own' w ((refuseExpected what : Parse α) >>= f)
    (refuseExpected what >>= f') :=
  fun _ _ => .refuse_bind

lemma refuseExpected : J.Lasts s own own' v (refuseExpected what) (refuseExpected what) :=
  fun _ _ => J.holds_refuseExpected

lemma reject :
    J.Lasts s own own' v (do report code span message; Grammar.refuse) (do report code span message; Grammar.refuse) :=
  fun _ _ => J.holds_reject _ _ _

lemma closeAngle : J.Lasts s own own id closeAngle closeAngle := fun _ _ => J.holds_closeAngle

/-! A token is passed that is no bracket, or opens one, or closes one. -/

lemma eat_bind {f f' : Bool → Parse β} (hpass : Nests own expected own')
    (hyes : J.Lasts s own' own'' w (f true) (f' true)) (hno : J.Lasts s own own'' w (f false) (f' false)) :
    J.Lasts s own own'' w (eat expected >>= f) (eat expected >>= f') :=
  fun s' hlt => .eat_bind hpass (fun s'' hlt' => hyes s'' (J.lt_trans hlt hlt')) fun _ => hno s' hlt

lemma eat (h : isOrdinary expected) : J.Lasts s own own id (eat expected) (eat expected) := by
  have heat : J.Lasts s own own id (Grammar.eat expected >>= Pure.pure) (Grammar.eat expected >>= Pure.pure) :=
    eat_bind (.plain h) same same
  rwa [bind_pure] at heat

lemma expect_of (h : Nests own expected own') : J.Lasts s own own' id (expect expected what) (expect expected what) :=
  of_takes fun _ => .expect h

lemma expectText_of (h : Nests own expected own') :
    J.Lasts s own own' id (expectText expected) (expectText expected) :=
  bind_id (expect_of h) same

lemma expect (h : isOrdinary expected) : J.Lasts s own own id (expect expected what) (expect expected what) :=
  expect_of (.plain h)

lemma expect_close (h : (closes? expected).isSome) :
    J.Lasts s (b :: own) own id (Grammar.expect expected what) (Grammar.expect expected what) :=
  expect_of (.closes h)

lemma text (h : isOrdinary expected) : J.Lasts s own own id (expectText expected) (expectText expected) :=
  expectText_of (.plain h)

lemma opening (h : opens? expected = some b) :
    J.Lasts s own (b :: own) id (expectText expected) (expectText expected) :=
  expectText_of (.opens h)

lemma closing (h : (closes? expected).isSome) :
    J.Lasts s (b :: own) own id (expectText expected) (expectText expected) :=
  expectText_of (.closes h)

lemma ident : J.Lasts s own own id (ident what) (ident what) := bind_id (expect rfl) same

/-! ## Loops -/

lemma repeatFrom (h : J.Rounds s own u w step step') {a b : σ}
    (hab : Alike J.exact u a b) : J.Lasts s own own w (repeatFrom a step) (repeatFrom b step') :=
  fun _ hlt => J.holds_repeatFrom (fun a b s'' hab hle => h a b s'' hab (J.lt_of_lt_of_le hlt hle)) hab

end Lasts

lemma Rounds.of_id (h : ∀ a s', J.Lt s s' → J.Holds own own (Sum.map id id) Sum.isLeft (step a) (step' a) s') :
    J.Rounds s own id id step step' := by
  intro a b s' hab hlt
  cases (hab.1 : a = b)
  exact h a s' hlt

lemma rounds_commaRound (h : J.Lasts s own own v p q) (isEnd : TokenKind → Bool) :
    J.Rounds s own (Prod.map (Array.map v) id) (Prod.map (List.map v) id) (commaRound isEnd p)
    (commaRound isEnd q) := by
  rintro ⟨items, comma⟩ ⟨items', comma'⟩ s' hab hlt
  obtain ⟨hitems, rfl⟩ : items.map v = items'.map v ∧ comma = comma' := by simpa using hab.1
  have hlist := map_toList hitems
  refine .kind_bind (.ite (fun _ => .pure (by grind) rfl) fun _ => .after (h s' hlt) fun a b s'' hview _ => ?_)
  exact .eat_bind (.plain rfl) (.pure (by grind)) fun _ => .pure (by grind) rfl

lemma Lasts.commaList (h : J.Lasts s own own v p q) (isEnd : TokenKind → Bool) :
    J.Lasts s own own (Prod.map (List.map v) id) (commaList isEnd p) (commaList isEnd q) :=
  .repeatFrom (rounds_commaRound h isEnd) ⟨rfl, fun _ => rfl⟩

lemma Lasts.itemsBefore (h : J.Lasts s own own v p q) (close : Symbol) :
    J.Lasts s own own (List.map v) (itemsBefore close p) (itemsBefore close q) :=
  .bind (.commaList h _) fun hab => .pure hab.fst

lemma Holds.text (h : isOrdinary expected) : J.Takes own own id (expectText expected) (expectText expected) s :=
  .bind_id (.expect (.plain h)) .same

lemma Holds.opening (h : opens? expected = some b) :
    J.Takes own (b :: own) id (expectText expected) (expectText expected) s :=
  .bind_id (.expect (.opens h)) .same

lemma Holds.ident_bind {f f' : Ident → Parse β} (hkind : s.kind = .ident) (h :
    J.Holds own own' w l (Grammar.bump >>= fun t => f ⟨t.text, t.span⟩) (Grammar.bump >>= fun t => f' ⟨t.text,
    t.span⟩) s) : J.Holds own own' w l (Grammar.ident what >>= f) (Grammar.ident what >>= f') s := by
  simp only [Grammar.ident, Grammar.expect, bind_assoc]
  refine .isAt_bind ?_
  simpa only [hkind, beq_self_eq_true, if_true, pure_bind] using h

lemma Holds.ident : J.Takes own own id (ident what) (ident what) s := .bind_id (.expect (.plain rfl)) .same

end Judgement

end Kite.Grammar
