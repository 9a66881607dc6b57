/-
What the elementary steps of parsing do to the words that are left. The words of a state are those
of its current token and of the tokens ahead; passing a token drops the first.
-/
import Kite.Proofs.Grammar.OperatorTree

namespace Kite.Grammar

open List

variable {α β σ : Type} {s s' s'' : State} {expected : TokenKind} {t : Token} {step : σ → Parse (σ ⊕ β)}
  {f : α → Parse β} {what : String}

/-! ## Runs of steps -/

variable {a : α} {b : β} {text : String} {fuel maxDepth : Nat}

lemma pure_run : (pure a : Parse α) s = (.ok a, s) := rfl

variable {x : Parse α}

lemma bind_run (h : x s = (.ok a, s')) : (x >>= f) s = f a s' := by
  simp only [bind, ExceptT.bind, ExceptT.mk, StateT.bind, ExceptT.bindCont, h]

lemma bind_error (h : x s = (.error stop, s')) : (x >>= f) s = (.error stop, s') := by
  simp only [bind, ExceptT.bind, ExceptT.mk, StateT.bind, ExceptT.bindCont, h]
  rfl

lemma bind_ok (h : (x >>= f) s = (.ok b, s'')) : ∃ a s', x s = (.ok a, s') ∧ f a s' = (.ok b, s'') := by
  match hx : x s with
  | (.ok a, s') =>
    rw [bind_run hx] at h
    exact ⟨a, s', rfl, h⟩
  | (.error stop, s') =>
    rw [bind_error hx] at h
    cases h

lemma pure_ok {a b : α} (h : (pure a : Parse α) s = (.ok b, s')) : a = b ∧ s = s' := by
  cases h
  exact ⟨rfl, rfl⟩

lemma get_run (s : State) : (get : Parse State) s = (.ok s, s) := rfl

lemma set_run : (set s' : Parse Unit) s = (.ok (), s') := rfl

lemma kind_run (s : State) : kind s = (.ok s.kind, s) := rfl

lemma nextKind_run (s : State) : nextKind s = (.ok s.nextKind, s) := rfl

lemma here_run (s : State) : here s = (.ok s.current.span, s) := rfl

lemma isAt_run (expected : TokenKind) (s : State) : isAt expected s = (.ok (s.kind == expected), s) := rfl

lemma bump_run : bump s = (.ok s.current, s.advance) := rfl

lemma spanFrom_run (start : Span) (s : State) : spanFrom start s = (.ok (start.through s.lastSpan), s) := rfl

lemma freshId_run (s : State) : freshId s = (.ok ⟨s.nextId⟩, { s with nextId := s.nextId + 1 }) := rfl

lemma eat_run_of_eq (h : s.kind = expected) : eat expected s = (.ok true, s.advance) := by
  unfold eat
  rw [bind_run (isAt_run expected s), if_pos (by simp [h])]
  rfl

lemma eat_run_of_ne (h : s.kind ≠ expected) : eat expected s = (.ok false, s) := by
  unfold eat
  rw [bind_run (isAt_run expected s), if_neg (by simp [h])]
  rfl

lemma eat_ok {b : Bool} (h : eat expected s = (.ok b, s')) :
    b ∧ s.kind = expected ∧ s' = s.advance ∨ b = false ∧ s' = s := by
  by_cases hkind : s.kind = expected
  · rw [eat_run_of_eq hkind] at h
    cases h
    exact .inl ⟨rfl, hkind, rfl⟩
  · rw [eat_run_of_ne hkind] at h
    cases h
    exact .inr ⟨rfl, rfl⟩

lemma not_refuse (h : (refuse : Parse α) s = (.ok a, s')) : False := by cases h

lemma not_refuseExpected (h : (refuseExpected what : Parse α) s = (.ok a, s')) : False := by
  obtain ⟨_, _, _, h⟩ := bind_ok h
  exact not_refuse h

lemma expect_run (h : s.kind = expected) : expect expected what s = (.ok s.current, s.advance) := by
  unfold expect
  rw [bind_run (isAt_run expected s), if_pos (by simp [h])]
  rfl

lemma expect_ok (h : expect expected what s = (.ok t, s')) : s.kind = expected ∧ t = s.current ∧ s' = s.advance := by
  by_cases hkind : s.kind = expected
  · rw [expect_run hkind] at h
    cases h
    exact ⟨hkind, rfl, rfl⟩
  · unfold expect at h
    rw [bind_run (isAt_run expected s), if_neg (by simp [hkind])] at h
    exact (not_refuseExpected h).elim

lemma expectText_run (h : s.kind = expected) : expectText expected s = (.ok (), s.advance) := by
  unfold expectText
  rw [bind_run (expect_run h), pure_run]

lemma expectText_ok (h : expectText expected s = (.ok u, s')) : s.kind = expected ∧ s' = s.advance := by
  obtain ⟨t, s₁, ht, h⟩ := bind_ok h
  obtain ⟨hkind, -, rfl⟩ := expect_ok ht
  obtain ⟨-, rfl⟩ := pure_ok h
  exact ⟨hkind, rfl⟩

lemma ident_run (h : s.kind = .ident) :
    ident what s = (.ok { name := s.current.text, span := s.current.span }, s.advance) := by
  unfold ident
  rw [bind_run (expect_run h), pure_run]

lemma ident_ok {ident : Ident} (h : Grammar.ident what s = (.ok ident, s')) :
    s.kind = .ident ∧ ident.name = s.current.text ∧ s' = s.advance := by
  obtain ⟨t, s₁, ht, h⟩ := bind_ok h
  obtain ⟨hkind, rfl, rfl⟩ := expect_ok ht
  obtain ⟨rfl, rfl⟩ := pure_ok h
  exact ⟨hkind, rfl, rfl⟩

/-! ## The words that are left -/

/-- The words from the current token on, with the end of input as the last. -/
def State.words (s : State) : List Word := (s.current :: s.ahead).map Token.word

/-- The last token is the end of input. -/
def State.Ended (s : State) : Prop := s.words.getLast? = some (.fixed .eof)

lemma words_ne_nil : s.words ≠ [] := cons_ne_nil _ _

lemma kind_of_word (h : t.word = .fixed k) : t.kind = k := by
  unfold Token.word at h
  split at h <;> simp_all

def isFixed (kind : TokenKind) : Bool := kind != .ident && !literalKinds.contains kind

lemma word_of_kind (h : t.kind = k) (hkind : isFixed k) : t.word = .fixed k := by
  unfold Token.word
  split <;> simp_all [isFixed, literalKinds]

lemma name_of_word (h : t.word = .name text) : t.kind = .ident ∧ t.text = text := by
  unfold Token.word at h
  split at h <;> simp_all

lemma literal_of_word (h : t.word = .literal value) : t.kind ∈ literalKinds ∧ t.value = value := by
  unfold Token.word at h
  split at h <;> simp_all [literalKinds]

lemma advance_eq (hkind : s.kind ≠ .eof) (h : s.ahead = t :: rest) :
    s.advance = { s with current := t, ahead := rest, previous := some s.current.span } := by
  unfold State.advance
  split
  · exact absurd ‹_› hkind
  · simp_all
  · simp_all

lemma advance_stays (h : s.kind = .eof ∨ s.ahead = []) : s.advance = s := by
  unfold State.advance
  split
  · rfl
  · rfl
  · simp_all [State.kind]

lemma kind_advance (h : s.kind ≠ .eof) : s.advance.kind = s.nextKind := by
  cases hahead : s.ahead with
  | nil =>
    rw [advance_stays (.inr hahead), State.nextKind, hahead]
    rfl
  | cons token rest =>
    rw [advance_eq h hahead, State.nextKind, hahead]
    rfl

lemma State.Ended.ahead (hended : s.Ended) (hkind : s.kind ≠ .eof) : ∃ t rest, s.ahead = t :: rest := by
  match hahead : s.ahead with
  | [] =>
    have hword : s.current.word = .fixed .eof := by simpa [State.Ended, State.words, hahead] using hended
    exact absurd (kind_of_word hword) hkind
  | t :: rest => exact ⟨t, rest, rfl⟩

lemma advance_words (hended : s.Ended) (hkind : s.kind ≠ .eof) : s.words = s.current.word :: s.advance.words := by
  obtain ⟨t, rest, hahead⟩ := hended.ahead hkind
  rw [advance_eq hkind hahead, State.words, State.words, hahead, map_cons]

lemma State.Ended.suffix (hended : s.Ended) (ws : List Word) (h : s.words = ws ++ s'.words) : s'.Ended := by
  unfold State.Ended at *
  rw [h, getLast?_append] at hended
  rw [getLast?_eq_some_getLast (words_ne_nil)] at hended ⊢
  simpa using hended

lemma State.Ended.advance (hended : s.Ended) (hkind : s.kind ≠ .eof) : s.advance.Ended :=
  hended.suffix [s.current.word] (advance_words hended hkind)

lemma one_le_tokenWeight (t : Token) :
    (if decide (t.word ≠ .fixed .eof) = true then 1 else 0) ≤ tokenWeight t.kind := by
  by_cases hkind : t.kind = .eof
  · simp [Token.word, hkind]
  · have hweight : 1 ≤ tokenWeight t.kind := by
      unfold tokenWeight
      split <;> simp_all
    split <;> omega

lemma countP_words_le (ts : List Token) (n : Nat) :
    (ts.map Token.word).countP (· ≠ .fixed .eof) + n ≤ ts.foldr (fun token n => tokenWeight token.kind + n) n := by
  induction ts with
  | nil => simp
  | cons t ts ih =>
    have := one_le_tokenWeight t
    rw [map_cons, countP_cons, foldr_cons]
    omega

lemma length_le_weight (h : s.words = ws ++ rest) (hws : ∀ w ∈ ws, w ≠ .fixed .eof) : ws.length ≤ s.weight := by
  have htotal : s.words.countP (· ≠ .fixed .eof) ≤ s.weight := by
    have := one_le_tokenWeight s.current
    have := countP_words_le s.ahead (tokenWeight s.current.kind)
    rw [State.words, map_cons, countP_cons]
    unfold State.weight
    omega
  have hall : ws.countP (· ≠ .fixed .eof) = ws.length := countP_eq_length.2 fun w hw => by simpa using hws w hw
  rw [h, countP_append, hall] at htotal
  omega

/-! ## Nesting and repetition -/

def State.enter (s : State) : State := { s with depth := s.depth + 1 }

def State.leave (s : State) : State := { s with depth := s.depth - 1 }

variable {p : Parse α}

lemma nested_run (hdepth : s.depth + 1 ≤ s.maxDepth)
    (h : p s.enter = (result, s')) : nested p s = (result, s'.leave) := by
  unfold State.enter at h
  unfold nested
  rw [bind_run (get_run s), if_neg (by omega), bind_run (set_run)]
  cases result
  all_goals
    simp only [bind, ExceptT.bind, StateT.bind, ExceptT.bindCont, ExceptT.mk, tryCatch, tryCatchThe,
      MonadExceptOf.tryCatch, ExceptT.tryCatch, h]
    rfl

lemma nested_run_of_lt (h : s.maxDepth < s.depth + 1) : nested p s =
    (.error .refused, if s.depthReported then s else
      { s with
        depthReported := true
        diagnostics := s.diagnostics.push (.error .grammar "E0110" s.current.span
          s!"expression too deeply nested (limit is {s.maxDepth})") }) := by
  unfold nested
  rw [bind_run (get_run s), if_pos h]
  cases s.depthReported <;> rfl

lemma nested_ok (h : nested p s = (.ok a, s'')) : ∃ s', p s.enter = (.ok a, s') ∧ s'' = s'.leave := by
  by_cases hdepth : s.depth + 1 ≤ s.maxDepth
  · rw [nested_run hdepth (Prod.eta (p s.enter)).symm] at h
    obtain ⟨hresult, hstate⟩ := Prod.mk.inj h
    exact ⟨(p s.enter).2, Prod.ext hresult rfl, hstate.symm⟩
  · unfold nested at h
    rw [bind_run (get_run s), if_pos (by omega)] at h
    split at h
    · exact (not_refuse h).elim
    · obtain ⟨_, _, _, h⟩ := bind_ok h
      obtain ⟨_, _, _, h⟩ := bind_ok h
      exact (not_refuse h).elim

lemma iterate_succ {a b : σ} (h : step a s = (.ok (.inl b), s')) :
    iterate step (fuel + 1) a s = iterate step fuel b s' := by
  rw [iterate, bind_run h]

lemma iterate_done {a : σ} (h : step a s = (.ok (.inr b), s')) : iterate step (fuel + 1) a s = (.ok b, s') := by
  rw [iterate, bind_run h]
  rfl

/-- What holds at the start of a repetition and is kept by its rounds holds in the last round. -/
lemma iterate_ok (P : σ → State → Prop) (hstep : ∀ a s b s', P a s → step a s = (.ok (.inl b), s') → P b s') :
    ∀ {fuel a b s s'}, P a s → iterate step fuel a s = (.ok b, s') → ∃ a₁ s₁, P a₁ s₁ ∧ step a₁ s₁ = (.ok (.inr b), s')
  | 0, _, _, _, _, _, h => by cases h
  | fuel + 1, a, b, s, s', hP, h => by
    obtain ⟨next, s₁, hnext, h⟩ := bind_ok h
    cases next with
    | inl next => exact iterate_ok P hstep (hstep a s next s₁ hP hnext) h
    | inr result =>
      obtain ⟨rfl, rfl⟩ := pure_ok h
      exact ⟨a, s, hP, hnext⟩

lemma repeatFrom_done {a : σ} (h : step a s = (.ok (.inr b), s')) : repeatFrom a step s = (.ok b, s') :=
  iterate_done h

lemma repeatFrom_run (step : σ → Parse (σ ⊕ β)) : repeatFrom init step s = iterate step (s.weight + 1) init s := rfl

/-! ## Whole texts -/

lemma startState_lex (file : FileId) (source : String) (maxDepth : Nat) :
    let start := startState (lex file source).tokens.toList maxDepth
    start.words = wordsOf file source ++ [.fixed .eof] ∧ start.depth = 0 ∧
      start.maxDepth = maxDepth ∧ start.diagnostics = #[] := by
  have hwords := lex_words file source
  unfold startState
  split
  · rename_i hnone
    rw [hnone] at hwords
    simp at hwords
  · rename_i first rest hsome
    rw [hsome] at hwords
    exact ⟨hwords, rfl, rfl, rfl⟩

lemma parseExpr_eq (h : let start := startState (lex file source).tokens.toList maxDepth
      wholeExpr (productions (recursionBound start)) start = (result, s')) :
    parseExpr file source maxDepth
      = (result.toOption, (lex file source).diagnostics.toList ++ s'.diagnostics.toList) := by
  unfold parseExpr run
  simp only [ExceptT.run, StateT.run, h]

end Kite.Grammar
