/-
Parsing respects brackets. Where the text goes on with the rest of something that is enclosed in
brackets, a production passes a closing bracket only if it has passed the opening one, whether it
succeeds or not; and so does a recovery. So nothing is passed beyond the bracket that encloses the
place where a production begins.

A place is described by the brackets that are open there, the innermost first. `Moves` tells how
far the steps of a production come: from a place inside some brackets of its own to a place inside
others, or, if it fails, to a place that is still inside all brackets around the production.
-/
import Kite.Proofs.Grammar.Course

namespace Kite.Grammar

open List

variable {α β σ : Type} {s s' : State} {step : σ → Parse (σ ⊕ β)}

/-! ## Nesting -/

inductive Bracket where
  | paren
  | brace
  | bracket
  deriving DecidableEq

def opens? : TokenKind → Option Bracket
  | .symbol .lparen => some .paren
  | .symbol .lbrace => some .brace
  | .symbol .lbracket => some .bracket
  | _ => none

def closes? : TokenKind → Option Bracket
  | .symbol .rparen => some .paren
  | .symbol .rbrace => some .brace
  | .symbol .rbracket => some .bracket
  | _ => none

def isPlain (kind : TokenKind) : Bool := (opens? kind).isNone && (closes? kind).isNone

/-- The brackets that are open after a token. There are none if it closes another bracket than the
innermost one. -/
def nest (bs : List Bracket) (kind : TokenKind) : Option (List Bracket) :=
  match opens? kind, closes? kind with
  | some b, _ => some (b :: bs)
  | none, none => some bs
  | none, some b => if bs.head? = some b then some bs.tail else none

/-- A token that is no bracket, and not the end of the text. -/
def isOrdinary (kind : TokenKind) : Bool := isPlain kind && kind != .eof

/-- With a token that is passed inside the brackets `own`, one comes to be inside `own'`. -/
inductive Nests : List Bracket → TokenKind → List Bracket → Prop where
  | plain (h : isOrdinary k) : Nests own k own
  | opens (h : opens? k = some b) : Nests own k (b :: own)
  | closes (h : (closes? k).isSome) : Nests (b :: own) k own

lemma Nests.ne_eof (h : Nests own k own') : k ≠ .eof := by
  rintro rfl
  cases h with
  | plain h => cases h
  | opens h => cases h
  | closes h => cases h

lemma nest_of_plain (h : isPlain k) (bs : List Bracket) : nest bs k = some bs := by
  simp only [isPlain, Bool.and_eq_true, Option.isNone_iff_eq_none] at h
  rw [nest, h.1, h.2]

variable {b : Bracket}

lemma nest_of_opens (h : opens? k = some b) (bs : List Bracket) :
    nest bs k = some (b :: bs) := by
  rw [nest, h]

lemma opens?_of_closes? (h : closes? k = some b) : opens? k = none := by
  unfold closes? at h
  split at h <;> first | rfl | cases h

lemma nest_of_closes (h : closes? k = some b)
    (hnest : nest bs k = some bs') : bs = b :: bs' := by
  rw [nest, opens?_of_closes? h, h] at hnest
  dsimp only at hnest
  split at hnest
  · rename_i hhead
    cases bs with
    | nil => cases hhead
    | cons c bs =>
      cases hhead
      cases hnest
      rfl
  · cases hnest

/-- Tokens that close the open brackets, the outermost with the last token. -/
def Closing : List Bracket → List Token → Prop
  | bs, [] => bs = []
  | bs, t :: ts => bs ≠ [] ∧ t.kind ≠ .eof ∧ ∃ bs', nest bs t.kind = some bs' ∧ Closing bs' ts

/-- What is left begins with tokens that close the brackets `bs`, and goes on with `rest`. -/
def State.Within (rest : List Token) (bs : List Bracket) (s : State) : Prop :=
  ∃ ts, s.current :: s.ahead = ts ++ rest ∧ Closing bs ts

/-- The state is inside the brackets `bs`, and inside these, perhaps among others, in the brackets
`own`. -/
def State.Inside (rest : List Token) (own bs : List Bracket) (s : State) : Prop :=
  ∃ inner, own.Sublist inner ∧ s.Within rest (inner ++ bs)

variable {rest : List Token} {own bs : List Bracket}

lemma State.Inside.forget (h : s.Inside rest own bs) : s.Inside rest [] bs := by
  obtain ⟨inner, -, h⟩ := h
  exact ⟨inner, nil_sublist _, h⟩

variable {bs : List Bracket}

lemma State.Within.next (hrest : rest ≠ []) (hbs : bs ≠ [])
    (h : s.Within rest bs) : s.kind ≠ .eof ∧ ∃ bs', nest bs s.kind = some bs' ∧ s.advance.Within rest bs' := by
  obtain ⟨ts, hts, hclosing⟩ := h
  cases ts with
  | nil => exact absurd hclosing hbs
  | cons t ts =>
    obtain ⟨-, heof, bs', hnest, hclosing'⟩ := hclosing
    obtain ⟨hcurrent, hahead⟩ := List.cons.inj hts
    have hkind : s.kind = t.kind := congrArg Token.kind hcurrent
    refine ⟨hkind ▸ heof, bs', hkind ▸ hnest, ts, ?_, hclosing'⟩
    obtain ⟨next, more, hmore⟩ : ∃ next more, ts ++ rest = next :: more :=
      exists_cons_of_ne_nil (append_ne_nil_of_right_ne_nil _ hrest)
    rw [advance_eq (hkind ▸ heof) (hahead.trans hmore), hmore]

lemma State.Within.replace (h : s.Within rest bs) (hbs : bs ≠ []) (hplain : isPlain s.kind)
    (hplain' : isPlain token.kind) (heof : token.kind ≠ .eof) : State.Within rest bs { s with current := token } := by
  obtain ⟨ts, hts, hclosing⟩ := h
  cases ts with
  | nil => exact absurd hclosing hbs
  | cons t ts =>
    obtain ⟨hcurrent, hahead⟩ := List.cons.inj hts
    obtain ⟨-, -, bs', hnest, hclosing'⟩ := hclosing
    have hsame : nest bs t.kind = some bs := nest_of_plain (hcurrent ▸ hplain) _
    rw [hsame] at hnest
    cases hnest
    exact ⟨token :: ts, congrArg (token :: ·) hahead, hbs, heof, bs, nest_of_plain hplain' _, hclosing'⟩

lemma State.Inside.congr (h : s.Inside rest own bs)
    (hcurrent : s'.current = s.current) (hahead : s'.ahead = s.ahead) : s'.Inside rest own bs := by
  unfold State.Inside State.Within at *
  rwa [hcurrent, hahead]

section

variable {rest : List Token} {own bs : List Bracket} {b : Bracket} (hrest : rest ≠ [])

include hrest

lemma inside_advance_of_plain (hbs : bs ≠ []) (h : s.Inside rest own bs) (hkind : isPlain s.kind) :
    s.advance.Inside rest own bs := by
  obtain ⟨inner, hown, h⟩ := h
  obtain ⟨-, bs', hnest, hwithin⟩ := h.next hrest (append_ne_nil_of_right_ne_nil _ hbs)
  rw [nest_of_plain hkind] at hnest
  cases hnest
  exact ⟨inner, hown, hwithin⟩

lemma inside_advance_of_opens (hbs : bs ≠ []) (h : s.Inside rest own bs) (hkind : opens? s.kind = some b) :
    s.advance.Inside rest (b :: own) bs := by
  obtain ⟨inner, hown, h⟩ := h
  obtain ⟨-, bs', hnest, hwithin⟩ := h.next hrest (append_ne_nil_of_right_ne_nil _ hbs)
  rw [nest_of_opens hkind] at hnest
  cases hnest
  exact ⟨b :: inner, hown.cons_cons b, hwithin⟩

lemma inside_advance_of_closes (h : s.Inside rest (b :: own) bs) (hkind : (closes? s.kind).isSome) :
    s.advance.Inside rest own bs := by
  obtain ⟨inner, hown, h⟩ := h
  obtain ⟨c, hc⟩ := Option.isSome_iff_exists.1 hkind
  cases inner with
  | nil => cases hown
  | cons d inner =>
    obtain ⟨-, bs', hnest, hwithin⟩ := h.next hrest (cons_ne_nil _ _)
    have hsame : inner ++ bs = bs' := (List.cons.inj (nest_of_closes hc hnest)).2
    exact ⟨inner, hown.tail, hsame ▸ hwithin⟩

end

/-! ## How far steps come -/

/-- From inside `own` brackets of its own to inside `own'`; if it fails, to a place that is still
inside the brackets around it. -/
def Moves (own own' : List Bracket) (p : Parse α) (s : State) : Prop :=
  ∀ rest bs, rest ≠ [] → bs ≠ [] → s.Inside rest own bs →
    (p s).2.Inside rest (match (p s).1 with | .ok _ => own' | .error _ => []) bs

def Leads (own own' : List Bracket) (p : Parse α) : Prop := ∀ s, Moves own own' p s

variable {a : α}

namespace Moves

variable {p q : Parse α} {f : α → Parse β} {own own' own'' : List Bracket}

lemma of_ok (h : p s = (.ok a, s'))
    (hinside : ∀ rest bs, rest ≠ [] → bs ≠ [] → s.Inside rest own bs → s'.Inside rest own' bs) :
    Moves own own' p s := by
  intro rest bs hrest hbs hs
  rw [h]
  exact hinside rest bs hrest hbs hs

lemma of_error (h : p s = (.error stop, s')) (hcurrent : s'.current = s.current)
    (hahead : s'.ahead = s.ahead) : Moves own own' p s := by
  intro rest bs _ _ hs
  rw [h]
  exact hs.forget.congr hcurrent hahead

lemma bind (hp : Moves own own' p s) (hf : ∀ a s', p s = (.ok a, s') → Moves own' own'' (f a) s') :
    Moves own own'' (p >>= f) s := by
  intro rest bs hrest hbs hs
  have h := hp rest bs hrest hbs hs
  rcases hrun : p s with ⟨stop | a, s'⟩
  · rw [hrun] at h
    rwa [bind_error hrun]
  · rw [hrun] at h
    rw [bind_run hrun]
    exact hf a s' hrun rest bs hrest hbs h

lemma ite [Decidable c] (hp : c → Moves own own' p s) (hq : ¬ c → Moves own own' q s) :
    Moves own own' (if c then p else q) s := by
  split
  · exact hp ‹_›
  · exact hq ‹_›

lemma read (h : p s = (.ok a, s)) : Moves own own p s := of_ok h fun _ _ _ _ hs => hs

lemma read_bind (h : p s = (.ok a, s)) (hf : Moves own own' (f a) s) : Moves own own' (p >>= f) s := by
  refine bind (read h) fun a' s' hrun => ?_
  rw [h] at hrun
  cases hrun
  exact hf

lemma bump (h : Nests own s.kind own') : Moves own own' bump s := by
  refine of_ok bump_run fun rest bs hrest hbs hs => ?_
  cases h with
  | plain h => exact inside_advance_of_plain hrest hbs hs (Bool.and_eq_true_iff.1 h).1
  | opens h => exact inside_advance_of_opens hrest hbs hs h
  | closes h => exact inside_advance_of_closes hrest hs h

end Moves

namespace Leads

variable {p q : Parse α} {f : α → Parse β} {own own' own'' : List Bracket}

lemma pure : Leads own own (pure a) := fun _ => .read pure_run

lemma bind (hp : Leads own own' p) (hf : ∀ a, Leads own' own'' (f a)) : Leads own own'' (p >>= f) :=
  fun s => (hp s).bind fun a s' _ => hf a s'

lemma ite [Decidable c] (hp : Leads own own' p) (hq : Leads own own' q) : Leads own own' (if c then p else q) :=
  fun s => .ite (fun _ => hp s) fun _ => hq s

lemma get : Leads own own get := fun s => .read (get_run s)

lemma freshId : Leads own own freshId := fun s => .of_ok (freshId_run s) fun _ _ _ _ hs => hs.congr rfl rfl

lemma refuse : Leads own own' (refuse : Parse α) := fun _ => .of_error rfl rfl rfl

lemma exhausted : Leads own own' (throw .exhausted : Parse α) := fun _ => .of_error rfl rfl rfl

lemma reject (code : String) (span : Span) (message : String) :
    Leads own own' (do report code span message; Grammar.refuse : Parse α) :=
  fun _ => .of_error rfl rfl rfl

lemma refuseExpected : Leads own own' (refuseExpected what : Parse α) :=
  bind (bind get fun _ => ite pure fun _ => .of_ok rfl fun _ _ _ _ hs => hs.congr rfl rfl) fun _ => refuse

lemma isPlain_afterAngle? {kind rest : TokenKind} (h : afterAngle? kind = some rest) :
    isPlain kind ∧ isPlain rest ∧ rest ≠ .eof := by
  unfold afterAngle? at h
  split at h <;> cases h <;> decide

lemma closeAngle : Leads own own closeAngle := by
  intro s rest bs hrest hbs hs
  by_cases hgt : s.kind = .symbol .gt
  · rw [closeAngle_run_of_eq hgt]
    exact inside_advance_of_plain hrest hbs hs (by rw [hgt]; rfl)
  · rw [closeAngle_run_of_ne hgt]
    cases hangle : afterAngle? s.kind with
    | none => exact refuseExpected s rest bs hrest hbs hs
    | some kind =>
      obtain ⟨hplain, hplain', heof⟩ := isPlain_afterAngle? hangle
      obtain ⟨inner, hown, hwithin⟩ := hs
      exact ⟨inner, hown, hwithin.replace (append_ne_nil_of_right_ne_nil inner hbs) hplain hplain' heof⟩

lemma nested (h : Leads own own' p) : Leads own own' (nested p) := by
  intro s rest bs hrest hbs hs
  by_cases hdepth : s.depth + 1 ≤ s.maxDepth
  · have hinner := h s.enter rest bs hrest hbs (hs.congr rfl rfl)
    rw [nested_run hdepth (Prod.eta (p s.enter)).symm]
    exact hinner.congr rfl rfl
  · exact Moves.of_error (nested_run_of_lt (Nat.lt_of_not_le hdepth)) (by split <;> rfl) (by split <;> rfl)
      rest bs hrest hbs hs

lemma iterate (h : ∀ a, Leads own own (step a)) : ∀ fuel a, Leads own own (iterate step fuel a)
  | 0, _ => exhausted
  | fuel + 1, a => by
    refine bind (h a) fun r => ?_
    cases r with
    | inl next => exact iterate h fuel next
    | inr _ => exact pure

lemma repeatFrom (h : ∀ a, Leads own own (step a)) (a : σ) : Leads own own (repeatFrom a step) :=
  bind get fun _ => iterate h _ a

end Leads

/-! ## Recovery -/

lemma iterate_state {P : σ → State → Prop} {Q : State → Prop} (hP : ∀ a s, P a s → Q s)
    (hstep : ∀ a s, P a s → (∀ b s', step a s = (.ok (.inl b), s') → P b s') ∧ Q (step a s).2) :
    ∀ fuel a s, P a s → Q (iterate step fuel a s).2
  | 0, a, s, h => hP a s h
  | fuel + 1, a, s, h => by
    obtain ⟨hnext, hlast⟩ := hstep a s h
    rw [iterate]
    rcases hrun : step a s with ⟨stop | b | b, s'⟩
    · rw [bind_error hrun]
      rwa [hrun] at hlast
    · rw [bind_run hrun]
      exact iterate_state hP hstep fuel b s' (hnext b s' hrun)
    · rw [bind_run hrun]
      rwa [hrun] at hlast

lemma bracketDepth_of_plain (h : isPlain k) (depth : Nat) :
    bracketDepth depth k = depth := by
  unfold bracketDepth
  split <;> first | rfl | cases h

lemma bracketDepth_of_opens (h : opens? k = some b) (depth : Nat) :
    bracketDepth depth k = depth + 1 := by
  unfold opens? at h
  split at h <;> first | rfl | cases h

lemma bracketDepth_of_closes (h : closes? k = some b) (depth : Nat) :
    bracketDepth depth k = depth - 1 := by
  unfold closes? at h
  split at h <;> first | rfl | cases h

section

variable {decide : Nat → Bool → TokenKind → Sync} {depth : Nat} {moved : Bool}

lemma skipRound_stop (h : s.kind = .eof ∨ decide depth moved s.kind = .stop) :
    skipRound decide (depth, moved) s = (.ok (.inr ()), s) := by
  rw [skipRound, bind_run (kind_run s)]
  split
  · rfl
  · rename_i heof
    rw [h.resolve_left (by simpa using heof)]
    rfl

lemma skipRound_stopAfter (heof : s.kind ≠ .eof) (h : decide depth moved s.kind = .stopAfter) :
    skipRound decide (depth, moved) s = (.ok (.inr ()), s.advance) := by
  rw [skipRound, bind_run (kind_run s), if_neg (by simpa using heof), h]
  rfl

lemma skipRound_skip (heof : s.kind ≠ .eof) (h : decide depth moved s.kind = .skip) :
    skipRound decide (depth, moved) s = (.ok (.inl (bracketDepth depth s.kind, true)), s.advance) := by
  rw [skipRound, bind_run (kind_run s), if_neg (by simpa using heof), h]
  rfl

end

/-- A token that is passed while at most as many brackets are counted as are open inside `bs`. If the
token closes the outermost of `bs` then none was counted. -/
lemma State.Within.skip {inner : List Bracket} {depth : Nat} (hrest : rest ≠ [])
    (hdepth : depth ≤ inner.length) (h : s.Within rest (inner ++ bs)) (hbs : inner ++ bs ≠ []) :
    (∃ inner', bracketDepth depth s.kind ≤ inner'.length ∧ s.advance.Within rest (inner' ++ bs)) ∨
    ∃ b, inner = [] ∧ depth = 0 ∧ closes? s.kind = some b ∧ bs.head? = some b ∧ s.advance.Within rest bs.tail := by
  obtain ⟨-, bs', hnest, hwithin⟩ := h.next hrest hbs
  cases hopens : opens? s.kind with
  | some b =>
    rw [nest_of_opens hopens] at hnest
    cases hnest
    rw [bracketDepth_of_opens hopens]
    exact .inl ⟨b :: inner, Nat.succ_le_succ hdepth, hwithin⟩
  | none =>
    cases hcloses : closes? s.kind with
    | none =>
      have hplain : isPlain s.kind = true := by simp [isPlain, hopens, hcloses]
      rw [nest_of_plain hplain] at hnest
      cases hnest
      rw [bracketDepth_of_plain hplain]
      exact .inl ⟨inner, hdepth, hwithin⟩
    | some b =>
      have hsplit := nest_of_closes hcloses hnest
      rw [bracketDepth_of_closes hcloses]
      cases inner with
      | nil =>
        have hsplit : bs = b :: bs' := hsplit
        exact .inr ⟨b, rfl, Nat.le_zero.1 hdepth, rfl, by rw [hsplit]; rfl, by rwa [hsplit]⟩
      | cons c inner =>
        obtain ⟨-, rfl⟩ := List.cons.inj hsplit
        exact .inl ⟨inner, Nat.sub_le_of_le_add hdepth, hwithin⟩

lemma Moves.stays (h : Moves [] [] p s) (hrest : rest ≠ [])
    (hbs : bs ≠ []) (hs : s.Inside rest [] bs) : (p s).2.Inside rest [] bs := by
  have hinside := h rest bs hrest hbs hs
  rcases hrun : p s with ⟨stop | a, s'⟩
  all_goals rwa [hrun] at hinside

/-- Inside a bracket the step ends inside it, whatever is around. -/
def StaysAt (b : Bracket) (p : Parse α) (s : State) : Prop :=
  ∀ rest bs, rest ≠ [] → s.Inside rest [] (b :: bs) → (p s).2.Inside rest [] (b :: bs)

def Stays (b : Bracket) (p : Parse α) : Prop := ∀ s, StaysAt b p s

lemma Moves.staysAt (h : Moves [] [] p s) : StaysAt b p s := fun _ _ hrest hs => h.stays hrest (cons_ne_nil _ _) hs

lemma StaysAt.kind_bind (h : StaysAt b (f s.kind) s) : StaysAt b (kind >>= f) s := by
  intro rest bs hrest hs
  exact h rest bs hrest hs

namespace Stays

variable {p : Parse α} {f : α → Parse β} {own : List Bracket} {b : Bracket}

lemma of_leads (h : Leads [] [] p) : Stays b p := fun s => (h s).staysAt

lemma moves (h : StaysAt b p s) : Moves (b :: own) (b :: own) p s := by
  intro rest bs hrest _ ⟨inner, hown, hwithin⟩
  obtain ⟨left, right, rfl, hmem, hright⟩ := cons_sublist_iff.1 hown
  obtain ⟨outer, between, rfl⟩ := append_of_mem hmem
  have hstart : s.Inside rest [] (b :: (between ++ right ++ bs)) := ⟨outer, nil_sublist _, by simpa using hwithin⟩
  obtain ⟨inner', -, hwithin'⟩ := h rest _ hrest hstart
  refine ⟨inner' ++ b :: (between ++ right), ?_, by simpa using hwithin'⟩
  split
  · have hkept : (b :: own).Sublist (b :: (between ++ right)) := (hright.trans (sublist_append_right _ _)).cons_cons b
    exact hkept.trans (sublist_append_right _ _)
  · exact nil_sublist _

lemma bind (hp : Stays b p) (hf : ∀ a, Stays b (f a)) : Stays b (p >>= f) := by
  intro s rest bs hrest hs
  have hinside := hp s rest bs hrest hs
  rcases hrun : p s with ⟨stop | a, s'⟩
  · rw [bind_error hrun]
    rwa [hrun] at hinside
  · rw [bind_run hrun]
    rw [hrun] at hinside
    exact hf a s' rest bs hrest hinside

lemma recovering (hp : StaysAt b p s) (hr : Stays b r) : StaysAt b (recovering p r) s := by
  intro rest bs hrest hs
  have hinside := hp rest bs hrest hs
  rcases hrun : p s with ⟨(_ | _) | a, s'⟩
  all_goals rw [hrun] at hinside
  · rw [recovering_of_refused hrun]
    exact hr s' rest bs hrest hinside
  · rwa [recovering_of_exhausted hrun]
  · rwa [recovering_of_ok hrun]

lemma repeatFrom (h : ∀ a, Stays b (step a)) (a : σ) : Stays b (repeatFrom a step) := by
  intro s rest bs hrest hs
  refine iterate_state (P := fun _ s => s.Inside rest [] (b :: bs)) (fun _ _ hs => hs) (fun a s hs => ?_) _ a s hs
  have hinside := h a s rest bs hrest hs
  refine ⟨fun _ s' hrun => ?_, hinside⟩
  rwa [hrun] at hinside

lemma skipTo {decide : Nat → Bool → TokenKind → Sync} (hbrace : ∀ moved, decide 0 moved (.symbol .rbrace) = .stop)
    (hafter : ∀ depth moved kind, decide depth moved kind = .stopAfter → isPlain kind = true) :
    Stays .brace (skipTo decide) := by
  intro s rest bs hrest hs
  refine iterate_state
    (P := fun state s => ∃ inner, state.1 ≤ inner.length ∧ s.Within rest (inner ++ .brace :: bs))
    (fun _ _ ⟨inner, _, h⟩ => ⟨inner, nil_sublist _, h⟩) ?_ _ (0, false) s ?_
  · rintro ⟨depth, moved⟩ s ⟨inner, hdepth, hwithin⟩
    have hinside : s.Inside rest [] (.brace :: bs) := ⟨inner, nil_sublist _, hwithin⟩
    have hbs : inner ++ Bracket.brace :: bs ≠ [] := append_ne_nil_of_right_ne_nil _ (cons_ne_nil _ _)
    by_cases hstop : s.kind = .eof ∨ decide depth moved s.kind = .stop
    · rw [skipRound_stop hstop]
      exact ⟨fun _ _ hrun => (by cases hrun), hinside⟩
    · obtain ⟨heof, hstop⟩ := not_or.1 hstop
      cases hdecide : decide depth moved s.kind with
      | stop => exact absurd hdecide hstop
      | stopAfter =>
        rw [skipRound_stopAfter heof hdecide]
        refine ⟨fun _ _ hrun => (by cases hrun), ?_⟩
        exact inside_advance_of_plain hrest (cons_ne_nil _ _) hinside (hafter _ _ _ hdecide)
      | skip =>
        rw [skipRound_skip heof hdecide]
        rcases hwithin.skip hrest hdepth hbs with ⟨inner', hdepth', hwithin'⟩ | ⟨b, -, rfl, hcloses, hhead, -⟩
        · refine ⟨fun state s' hrun => ?_, inner', nil_sublist _, hwithin'⟩
          cases hrun
          exact ⟨inner', hdepth', hwithin'⟩
        · cases hhead
          have hkind : s.kind = .symbol .rbrace := by
            unfold closes? at hcloses
            split at hcloses <;> first | assumption | cases hcloses
          rw [hkind, hbrace] at hdecide
          cases hdecide
  · obtain ⟨inner, -, hwithin⟩ := hs
    exact ⟨inner, Nat.zero_le _, hwithin⟩

end Stays

lemma stays_syncArm : Stays .brace syncArm := by
  refine .skipTo (fun _ => rfl) fun depth moved kind h => ?_
  split_ifs at h with _ hcomma
  rw [beq_iff_eq.1 hcomma]
  rfl

lemma stays_syncStmt : Stays .brace syncStmt := by
  refine .bind (fun _ _ _ _ hs => hs.congr rfl rfl) fun _ => .skipTo (fun _ => rfl) fun depth moved kind h => ?_
  split_ifs at h with _ hsemi
  rw [beq_iff_eq.1 hsemi]
  rfl

end Kite.Grammar
