/-
Parsing goes on behind a broken body. A failure inside the body of a function may close it early,
and what is left of it is then taken for declarations, or skipped on the search for one. But as
long as the brackets of the body match, neither passes the brace at the real end of the body, and
there the next declaration is found.
-/
import Kite.Proofs.Grammar.Termination

namespace Kite.Grammar

/-! ## Productions and brackets -/

variable {g : Productions} {s : State}

/-- A step comes from inside some brackets to inside others. -/
def bracketing : Judgement where
  exact := False
  Holds own own' _ _ p _ s := Moves own own' p s
  Le _ _ := True
  Lt _ _ := True
  Told _ := True
  le_of_lt _ := trivial
  lt_of_lt_of_le _ _ := trivial
  mono h _ _ := h
  holds_pure _ _ := .read pure_run
  holds_bind hp hf := hp.bind fun a s' _ => hf a a s' ⟨rfl, fun _ => rfl⟩ trivial fun _ => trivial
  holds_read_bind hp _ hf := .read_bind (hp _) (hf _ ⟨rfl, fun _ => rfl⟩)
  holds_bump_bind h hf := by
    refine Moves.bind (.bump h) fun a s' hrun => ?_
    rw [bump_run] at hrun
    cases hrun
    exact hf trivial
  holds_freshId := Leads.freshId _
  holds_refuse := Leads.refuse _
  holds_reject _ _ _ := Leads.reject _ _ _ _
  holds_refuseExpected := Leads.refuseExpected _
  holds_closeAngle := Leads.closeAngle _
  holds_repeatFrom h _ := Leads.repeatFrom (fun a s' => h a a s' ⟨rfl, fun _ => rfl⟩ trivial) _ _
  holds_recovering hsync hp _ _ _ _ := by
    refine Stays.moves (Stays.recovering hp.staysAt (.bind ?_ fun _ => .of_leads .pure))
    rcases hsync with rfl | rfl
    · exact stays_syncArm
    · exact stays_syncStmt

/-- The productions of a table pass no bracket that they have not opened. -/
def Productions.Bracketed (g : Productions) : Prop := ∀ s, bracketing.Table g g s

lemma bracketing_total : bracketing.Total where
  lt _ _ := trivial
  told _ := trivial
  exhausted {_ _ own own' _ s _} := (Leads.exhausted : Leads own own' _) s
  nested h := Leads.nested h

lemma productions_bracketed (n : Nat) : (productions n).Bracketed := bracketing_total.table (Nat.le_refl n)

lemma moves_item (h : g.Bracketed) : Moves [] [] (item g) s :=
  show bracketing.Takes [] [] Item.bare _ (item g) s from takes_item fun _ => h _

lemma stays_blockRound (h : g.Bracketed) (state : Array Stmt × Option Expr) : Stays .brace (blockRound g state) := by
  obtain ⟨stmts, tail⟩ := state
  intro s
  have hstmt : Moves [] [] (stmt g (.symbol .rbrace)) s :=
    takes_stmt (J := bracketing) (h s) ((h s).blocks trivial) ((h s).exprs trivial)
  refine .kind_bind ?_
  split
  · exact Stays.of_leads .pure s
  · exact Stays.of_leads .refuseExpected s
  · rename_i hkind
    exact Moves.staysAt (.bind (.bump (.plain (hkind ▸ rfl))) fun _ s' _ => Leads.pure s')
  · refine Stays.recovering (Moves.staysAt (hstmt.bind fun stmt s' _ => ?_))
      (.bind stays_syncStmt fun _ => .of_leads .pure)
    split
    · exact Leads.pure s'
    · exact Leads.pure s'

open List

variable {α β : Type} {s s' : State} {g : Productions} {rest : List Token} {bs : List Bracket} {body : List Token}

/-! ## The search for the next declaration -/

/-- Where a search for a declaration ends: inside the brackets, or behind them at a declaration or
the end of the text. -/
def Settled (rest : List Token) (s : State) : Prop := ∃ bs, s.Within rest bs

lemma within_nil : s.Within rest [] ↔ s.current :: s.ahead = rest := by
  constructor
  · rintro ⟨ts, hts, hclosing⟩
    cases ts with
    | nil => exact hts
    | cons t ts => exact absurd rfl hclosing.1
  · exact fun h => ⟨[], h, rfl⟩

/-- A text at whose first token the search for a declaration ends. -/
def StartsItem (rest : List Token) : Prop :=
  ∃ first more, rest = first :: more ∧ (first.kind = .eof ∨ startsItem first.kind)

lemma StartsItem.ne_nil (h : StartsItem rest) : rest ≠ [] := by
  obtain ⟨first, more, rfl, -⟩ := h
  exact cons_ne_nil _ _

/-- The search for a declaration passes the brackets that are open with the number of brackets it has
seen at most as great, so that at their end it has seen none. -/
lemma settled_skip (hrest : StartsItem rest) (fuel : Nat) {moved : Bool} (hdepth : depth ≤ bs.length)
    (hbs : bs ≠ [] ∨ moved) (h : s.Within rest bs) :
    Settled rest (iterate (skipRound fun depth moved token =>
      if depth == 0 && moved && startsItem token then .stop else .skip) fuel (depth, moved) s).2 := by
  refine iterate_state
    (P := fun state s => ∃ bs, state.1 ≤ bs.length ∧ (bs ≠ [] ∨ state.2) ∧ s.Within rest bs)
    (fun _ _ ⟨bs, _, _, h⟩ => ⟨bs, h⟩) ?_ fuel (depth, moved) s ⟨bs, hdepth, hbs, h⟩
  rintro ⟨depth, moved⟩ s ⟨bs, hdepth, hbs, h⟩
  by_cases hstop : s.kind = .eof ∨ (if depth == 0 && moved && startsItem s.kind then Sync.stop else .skip) = .stop
  · rw [skipRound_stop hstop]
    exact ⟨fun _ _ hrun => (by cases hrun), bs, h⟩
  · obtain ⟨heof, hgo⟩ := not_or.1 hstop
    have hnil : bs ≠ [] := by
      -- behind the brackets nothing is counted, and there a declaration begins or the text ends
      rintro rfl
      obtain ⟨first, more, rfl, hfirst⟩ := hrest
      have hkind : s.kind = first.kind := congrArg Token.kind (List.cons.inj (within_nil.1 h)).1
      have hzero : depth = 0 := Nat.le_zero.1 hdepth
      have hmoved : moved := hbs.resolve_left fun hne => hne rfl
      rcases hfirst with hend | hitem
      · exact heof (hkind.trans hend)
      · simp [hzero, hmoved, hkind, hitem] at hgo
    have hskip : (if depth == 0 && moved && startsItem s.kind then Sync.stop else .skip) = .skip := by
      split
      · rename_i hif
        rw [if_pos hif] at hgo
        exact absurd rfl hgo
      · rfl
    rw [skipRound_skip heof hskip]
    have h' : s.Within rest (bs ++ []) := by rwa [append_nil]
    rcases h'.skip hrest.ne_nil hdepth (by rwa [append_nil]) with ⟨inner, hdepth', hwithin⟩ | ⟨_, hempty, -⟩
    · rw [append_nil] at hwithin
      refine ⟨fun state s' hrun => ?_, inner, hwithin⟩
      cases hrun
      exact ⟨inner, hdepth', .inr rfl, hwithin⟩
    · exact absurd hempty hnil

/-! ## Rounds -/

/-- The state behind a declaration, or behind what is skipped in place of a broken one. -/
def State.afterItem (g : Productions) (s : State) : State :=
  match item g s with
  | (.ok _, s') => s'
  | (.error _, s') => (syncItem s').2

lemma syncItem_run (hended : s.Ended) : syncItem s = (.ok (), (syncItem s).2) := by
  have hbounded := (ends_syncItem hended).bounded
  have hfirm : (syncItem s).1 ≠ .error .refused := Firm.skipTo _ s
  rcases hrun : syncItem s with ⟨(_ | _) | ⟨⟩, s'⟩
  · exact absurd (by rw [hrun]) hfirm
  · exact absurd (by rw [hrun]) hbounded
  · rfl

section

variable {w : Nat} (hg : g.Agree g w) (hended : s.Ended) (hw : s.weight < w)

include hg hended hw

lemma itemRound_run (hkind : s.kind ≠ .eof) :
    ∃ more : Array Item, ∀ items, itemRound g items s = (.ok (.inl (items ++ more)), s.afterItem g) := by
  have htakes := hg.takes_item hended (Nat.le_of_lt hw)
  unfold itemRound State.afterItem
  simp only [bind_run (isAt_run .eof s), beq_eq_false_iff_ne.2 hkind]
  rcases hrun : item g s with ⟨(_ | _) | i, s'⟩
  · refine ⟨#[], fun items => ?_⟩
    have hended' : s'.Ended := by simpa [hrun] using htakes.later.ended
    rw [if_neg Bool.false_ne_true, recovering_of_refused (bind_error hrun), bind_run (syncItem_run hended')]
    simp [pure_run]
  · exact absurd (by rw [hrun]) htakes.bounded
  · refine ⟨#[i], fun items => ?_⟩
    rw [if_neg Bool.false_ne_true, recovering_of_ok (by rw [bind_run hrun, pure_run])]
    simp

lemma later_afterItem (hkind : s.kind ≠ .eof) : Later s (s.afterItem g) ∧ (s.afterItem g).weight < s.weight := by
  obtain ⟨more, hrun⟩ := itemRound_run hg hended hw hkind
  have hround := hg.shrinks_itemRound #[] s hended hw
  have hlater := hround.later
  rw [hrun] at hlater
  exact ⟨hlater, hround.post _ _ (hrun #[]) rfl⟩

end

/-- From one state to a later one the rounds find the declarations `items`, and the nesting is as
deep there as before. -/
structure Finds (g : Productions) (items : Array Item) (s s' : State) : Prop where
  later : Later s s'
  sameDepth : SameDepth s s'
  run : ∀ before, repeatFrom before (itemRound g) s = repeatFrom (before ++ items) (itemRound g) s'

namespace Finds

variable {w : Nat} {items more : Array Item}

lemma refl (hended : s.Ended) : Finds g #[] s s :=
  ⟨.refl hended, ⟨rfl, rfl⟩, fun before => by rw [Array.append_empty]⟩

lemma trans (h : Finds g items s s') (h' : Finds g more s' s'') : Finds g (items ++ more) s s'' :=
  ⟨h.later.trans h'.later, h.sameDepth.trans h'.sameDepth, fun before => by rw [h.run, h'.run, Array.append_assoc]⟩

lemma of_round (hg : g.Agree g w) (hended : s.Ended) (hw : s.weight < w) (hsame : SameDepth s s')
    (hrun : ∀ before, itemRound g before s = (.ok (.inl (before ++ items)), s')) : Finds g items s s' := by
  have hround := hg.shrinks_itemRound #[] s hended hw
  have hlater := hround.later
  have hlt := hround.post _ _ (hrun #[]) rfl
  rw [hrun] at hlater
  refine ⟨hlater, hsame, fun before => ?_⟩
  rw [repeatFrom_run, repeatFrom_run, iterate_succ (hrun before)]
  exact hg.shrinks_itemRound.iterate_eq _ _ _ _ hlater.ended (Nat.lt_trans hlt hw) hlt (Nat.lt_succ_self _)

end Finds

section

variable {w : Nat} (c : g.Courses) (hg : g.Agree g w) (hended : s.Ended) (hw : s.weight < w)

include c

lemma sameDepth_afterItem : SameDepth s (s.afterItem g) := by
  have hitem := ((itemCourses c).calm s).sameDepth
  unfold State.afterItem
  rcases hrun : item g s with ⟨stop | i, s'⟩
  all_goals rw [hrun] at hitem
  · exact hitem.trans (Courses.syncItem.calm s').sameDepth
  · exact hitem

include hg hended hw

lemma finds_afterItem (hkind : s.kind ≠ .eof) : ∃ items, Finds g items s (s.afterItem g) := by
  obtain ⟨items, hrun⟩ := itemRound_run hg hended hw hkind
  exact ⟨items, .of_round hg hended hw (sameDepth_afterItem c) hrun⟩

lemma finds_item (hkind : s.kind ≠ .eof) (hrun : item g s = (.ok i, s')) : Finds g #[i] s s' := by
  have hsame := ((itemCourses c).calm s).sameDepth
  rw [hrun] at hsame
  refine .of_round hg hended hw hsame fun before => ?_
  unfold itemRound
  rw [bind_run (isAt_run .eof s), if_neg (by simpa using hkind), recovering_of_ok (by rw [bind_run hrun, pure_run])]
  simp

end

/-! ## Inside the brackets -/

lemma settled_syncItem (hrest : StartsItem rest) (hbs : bs ≠ []) (h : s.Within rest bs) :
    Settled rest (syncItem s).2 :=
  settled_skip hrest _ (Nat.zero_le _) (.inl hbs) h

lemma settled_afterItem (hb : g.Bracketed) (hrest : StartsItem rest) (hbs : bs ≠ []) (h : s.Within rest bs) :
    Settled rest (s.afterItem g) := by
  obtain ⟨inner, -, hwithin⟩ := (moves_item hb).stays hrest.ne_nil hbs ⟨[], nil_sublist _, h⟩
  unfold State.afterItem
  rcases hrun : item g s with ⟨stop | i, s'⟩
  all_goals rw [hrun] at hwithin
  · exact settled_syncItem hrest (append_ne_nil_of_right_ne_nil inner hbs) hwithin
  · exact ⟨_, hwithin⟩

lemma finds_settled (c : g.Courses) (hb : g.Bracketed) (hg : g.Agree g w) (hrest : StartsItem rest)
    (s : State) (hended : s.Ended) (hw : s.weight < w) (h : Settled rest s) :
    ∃ items s', Finds g items s s' ∧ s'.current :: s'.ahead = rest := by
  obtain ⟨bs, hwithin⟩ := h
  by_cases hbs : bs = []
  · subst hbs
    exact ⟨#[], s, .refl hended, within_nil.1 hwithin⟩
  · have hkind := (hwithin.next hrest.ne_nil hbs).1
    obtain ⟨items, hfinds⟩ := finds_afterItem c hg hended hw hkind
    have hlt := (later_afterItem hg hended hw hkind).2
    obtain ⟨more, s', hmore, hs'⟩ := finds_settled c hb hg hrest (s.afterItem g) hfinds.later.ended
      (Nat.lt_trans hlt hw) (settled_afterItem hb hrest hbs hwithin)
    exact ⟨items ++ more, s', hfinds.trans hmore, hs'⟩
termination_by s.weight

/-! ## The body of a function -/

/-- The state is inside brackets, or before the brace that opens them. -/
def State.Open (rest : List Token) (s : State) : Prop :=
  (∃ bs, bs ≠ [] ∧ s.Within rest bs) ∨ ∃ body, s.kind = .symbol .lbrace ∧ s.ahead = body ++ rest ∧ Closing [.brace] body

lemma within_advance (hrest : rest ≠ []) (hkind : s.kind = .symbol .lbrace) (hahead : s.ahead = body ++ rest)
    (hbody : Closing [.brace] body) : s.advance.Within rest [.brace] := by
  obtain ⟨next, more, hmore⟩ := exists_cons_of_ne_nil (append_ne_nil_of_right_ne_nil body hrest)
  refine ⟨body, ?_, hbody⟩
  rw [advance_eq (by simp [hkind]) (hahead.trans hmore), hmore]

lemma State.Open.settled (hrest : StartsItem rest) (h : s.Open rest) : Settled rest (syncItem s).2 := by
  rcases h with ⟨bs, hbs, hwithin⟩ | ⟨body, hkind, hahead, hbody⟩
  · exact settled_syncItem hrest hbs hwithin
  · have hpass : skipRound (fun depth moved token => if depth == 0 && moved && startsItem token then .stop else .skip)
        (0, false) s = (.ok (.inl (1, true)), s.advance) := by
      rw [skipRound_skip (by simp [hkind]) (by simp), hkind]
      rfl
    unfold syncItem skipTo
    rw [repeatFrom_run, iterate_succ hpass]
    have hopen := within_advance hrest.ne_nil hkind hahead hbody
    have hone : 1 ≤ [Bracket.brace].length := Nat.le_refl 1
    exact settled_skip hrest _ hone (.inr rfl) hopen

/-- From before the body of a function `p` comes behind it, or fails where the search for a
declaration comes there. -/
structure Lands (rest : List Token) (p : Parse α) (s : State) : Prop where
  ok : ∀ a s', p s = (.ok a, s') → Settled rest s'
  error : ∀ stop s', p s = (.error stop, s') → s'.Open rest

namespace Lands

variable {p : Parse α} {f : α → Parse β}

lemma after (hp : p s = (.ok a, s')) (hf : Lands rest (f a) s') : Lands rest (p >>= f) s := by
  refine ⟨fun b s'' hrun => ?_, fun stop s'' hrun => ?_⟩
  all_goals rw [bind_run hp] at hrun
  · exact hf.ok b s'' hrun
  · exact hf.error stop s'' hrun

lemma before (hp : Lands rest p s) (hf : ∀ a s', ∃ b, f a s' = (.ok b, s')) : Lands rest (p >>= f) s := by
  refine ⟨fun b s'' hrun => ?_, fun stop s'' hrun => ?_⟩
  all_goals
    rcases ha : p s with ⟨stop' | a, s'⟩
    · rw [bind_error ha] at hrun
      cases hrun
      try exact hp.error _ _ ha
    · obtain ⟨b', hb⟩ := hf a s'
      rw [bind_run ha, hb] at hrun
      cases hrun
      try exact hp.ok _ _ ha

end Lands

lemma blockRound_last (h : blockRound g state s = (.ok (.inr result), s')) : s'.kind = .symbol .rbrace := by
  obtain ⟨stmts, tail⟩ := state
  rw [blockRound, bind_run (kind_run s)] at h
  generalize hkind : s.kind = kind at h
  split at h
  · obtain ⟨-, rfl⟩ := pure_ok h
    exact hkind
  · exact (not_refuseExpected h).elim
  · obtain ⟨_, _, _, h⟩ := bind_ok h
    obtain ⟨h, -⟩ := pure_ok h
    cases h
  · rcases recovering_ok h with h | ⟨s₁, h⟩
    all_goals obtain ⟨result, _, _, h⟩ := bind_ok h
    · cases result with
      | _ =>
        obtain ⟨h, -⟩ := pure_ok h
        cases h
    · obtain ⟨h, -⟩ := pure_ok h
      cases h

lemma lands_block (hb : g.Bracketed) (hrest : rest ≠ []) (hkind : s.kind = .symbol .lbrace)
    (hahead : s.ahead = body ++ rest) (hbody : Closing [.brace] body) : Lands rest (block g) s := by
  have hstart := within_advance hrest hkind hahead hbody
  obtain ⟨inner, -, hwithin⟩ := Stays.repeatFrom (stays_blockRound hb) (#[], none)
    { s.advance with nextId := s.advance.nextId + 1 } rest [] hrest ⟨[], nil_sublist _, hstart⟩
  refine .after (here_run s) (.after (expectText_run hkind) (.after (freshId_run _) ?_))
  rcases hrun : repeatFrom (#[], none) (blockRound g) { s.advance with nextId := s.advance.nextId + 1 } with
    ⟨stop | ⟨stmts, tail⟩, s'⟩
  all_goals rw [hrun] at hwithin
  · refine ⟨fun _ _ h => ?_, fun _ _ h => ?_⟩
    all_goals
      rw [bind_error hrun] at h
      cases h
    exact .inl ⟨_, append_ne_nil_of_right_ne_nil inner (cons_ne_nil _ _), hwithin⟩
  · -- the block has ended at a brace, and whatever that one closes is inside the body or the body itself
    obtain ⟨_, _, -, hlast⟩ := iterate_ok (fun _ _ => True) (fun _ _ _ _ _ _ => trivial) trivial hrun
    have hclose := blockRound_last hlast
    obtain ⟨-, bs, -, hend⟩ := hwithin.next hrest (append_ne_nil_of_right_ne_nil inner (cons_ne_nil _ _))
    refine .after hrun (.after (expectText_run hclose) ⟨fun _ _ h => ?_, fun _ _ h => ?_⟩)
    all_goals cases h
    exact ⟨bs, hend⟩

lemma Lands.nested (hs : s.Open rest) (h : Lands rest p s.enter) : Lands rest (nested p) s := by
  by_cases hdepth : s.depth + 1 ≤ s.maxDepth
  · have hrun := nested_run hdepth (Prod.eta (p s.enter)).symm
    refine ⟨fun a s' hok => ?_, fun stop s' herror => ?_⟩
    · rw [hrun] at hok
      obtain ⟨hresult, rfl⟩ := Prod.mk.inj hok
      exact (h.ok a (p s.enter).2 (Prod.ext hresult rfl) :)
    · rw [hrun] at herror
      obtain ⟨hresult, rfl⟩ := Prod.mk.inj herror
      exact (h.error stop (p s.enter).2 (Prod.ext hresult rfl) :)
  · replace hdepth := Nat.lt_of_not_le hdepth
    refine ⟨fun a s' hok => ?_, fun stop s' herror => ?_⟩
    · rw [nested_run_of_lt hdepth] at hok
      cases hok
    · rw [nested_run_of_lt hdepth] at herror
      obtain ⟨-, rfl⟩ := Prod.mk.inj herror
      cases s.depthReported <;> exact hs

lemma Lands.afterItem (hrest : StartsItem rest) (h : Lands rest (item g) s) : Settled rest (s.afterItem g) := by
  unfold State.afterItem
  rcases hrun : item g s with ⟨stop | i, s'⟩
  · exact (h.error stop s' hrun).settled hrest
  · exact h.ok i s' hrun

lemma genericParams_run_of_ne (h : s.kind ≠ .symbol .lt) : genericParams g s = (.ok [], s) := by
  unfold genericParams
  rw [bind_run (eat_run_of_ne h)]
  rfl

lemma receiver?_run_of_eq (h : s.kind = .symbol .rparen) : receiver? s = (.ok none, s) := by
  unfold receiver?
  rw [bind_run (kind_run s), bind_run (nextKind_run s), h]
  rfl

lemma itemsBefore_run_of_eq {item : Parse α} (h : s.kind = .symbol close) :
    itemsBefore close item s = (.ok [], s) := by
  have hround : commaRound (· == .symbol close) item (#[], false) s = (.ok (.inr ([], false)), s) := by
    rw [commaRound, bind_run (kind_run s), if_pos (by simp [h])]
    rfl
  unfold itemsBefore commaList
  rw [bind_run (repeatFrom_done hround)]
  rfl

lemma tokens_advance (h : s.current :: s.ahead = t :: u :: ts)
    (heof : t.kind ≠ .eof) : s.advance.current :: s.advance.ahead = u :: ts := by
  obtain ⟨hcurrent, hahead⟩ := List.cons.inj h
  rw [advance_eq (by rwa [State.kind, hcurrent]) hahead]

lemma kind_of_tokens (h : s.current :: s.ahead = t :: ts) : s.kind = t.kind := congrArg Token.kind (List.cons.inj h).1

variable {lp : Token} (hrest : rest ≠ []) (htokens : s.current :: s.ahead = [fn, name, lp, rp, lb] ++ (body ++ rest))
  (hkinds : [fn, name, lp, rp, lb].map Token.kind =
    [.keyword .kwFunction, .ident, .symbol .lparen, .symbol .rparen, .symbol .lbrace])
  (hbody : Closing [.brace] body)

include hrest htokens hkinds hbody

/-- From the head of a function on, a round comes no further than to the end of its body. -/
lemma lands_function (isComptime isForeign : Bool) :
    Lands rest (function (productions (n + 1)) isComptime isForeign) s := by
  simp only [map_cons, map_nil, List.cons.injEq, and_true] at hkinds
  obtain ⟨hfn, hname, hlp, hrp, hlb⟩ := hkinds
  have hname' := tokens_advance htokens (by simp [hfn])
  have hlp' := tokens_advance (s := { s.advance with nextId := s.advance.nextId + 1 }) hname' (by simp [hname])
  have hrp' := tokens_advance hlp' (by simp [hlp])
  have hlb' := tokens_advance hrp' (by simp [hrp])
  have hrparen := (kind_of_tokens hrp').trans hrp
  have hlbrace := (kind_of_tokens hlb').trans hlb
  refine .after (here_run s) (.after (expectText_run ((kind_of_tokens htokens).trans hfn)) (.after (freshId_run _) ?_))
  refine .after (ident_run ((kind_of_tokens hname').trans hname)) ?_
  refine .after (genericParams_run_of_ne (by simp [kind_of_tokens hlp', hlp])) ?_
  refine .after (expectText_run ((kind_of_tokens hlp').trans hlp)) (.after (receiver?_run_of_eq hrparen) ?_)
  refine .after (isAt_run _ _) (.after (itemsBefore_run_of_eq hrparen) (.after (expectText_run hrparen) ?_))
  refine .after (eat_run_of_ne (by simp [hlbrace])) (.after pure_run (.before ?_ fun _ _ => ⟨_, rfl⟩))
  refine .after (isAt_run _ _) ?_
  rw [hlbrace]
  have hahead := (List.cons.inj hlb').2
  have hblock := lands_block (s := State.enter _) (productions_bracketed n) hrest hlbrace hahead hbody
  exact .before (.nested (.inr ⟨body, hlbrace, hahead, hbody⟩) hblock) fun _ _ => ⟨_, rfl⟩

lemma lands_item : Lands rest (item (productions (n + 1))) s := by
  have hkind : State.kind { s with nextId := s.nextId + 1 } = .keyword .kwFunction :=
    (kind_of_tokens htokens).trans (List.cons.inj hkinds).1
  refine .after (here_run s) (.after (freshId_run s) (.before ?_ fun _ _ => ⟨_, rfl⟩))
  refine .after (kind_run _) ?_
  rw [hkind]
  have hfunction := lands_function (n := n) (s := { s with nextId := s.nextId + 1 }) hrest htokens hkinds hbody false false
  exact .before hfunction fun _ _ => ⟨_, rfl⟩

end Kite.Grammar
