/-
A broken function body does not affect later declarations. Whatever stands between the braces of a
body, as long as its brackets match, the declarations behind the body are found as they are found
when they stand alone.
-/
import Kite.Proofs.Grammar.Resumption

namespace Kite.Grammar

/-! ## Productions that follow each other -/

/-- What a step gives without an error, the other one gives as well, up to the identities of nodes. -/
def following : Judgement where
  exact := False
  Holds _ _ v _ p q s := Follows v p q s
  Le _ _ := True
  Lt _ _ := True
  Told p := Nonempty (Courses p)
  le_of_lt _ := trivial
  lt_of_lt_of_le _ _ := trivial
  mono h hv _ := h.mono hv
  holds_pure hv _ := .pure hv.1
  holds_bind hp hf := hp.bind fun a b s' h => hf a b s' ⟨h, False.elim⟩ trivial fun _ => trivial
  holds_read_bind hp hlook hf := .read_bind hp hlook fun b h => hf b ⟨h, False.elim⟩
  holds_bump_bind _ hf := .bump_bind (hf trivial)
  holds_freshId := .freshId
  holds_refuse := .refuse
  holds_reject _ _ _ := .reject _ _ _
  holds_refuseExpected := .refuseExpected
  holds_closeAngle := .closeAngle
  holds_repeatFrom h hab := .repeatFrom (fun a b s' hab => h a b s' ⟨hab, False.elim⟩ trivial) hab.1
  holds_recovering hsync hp htold _ _ _ := by
    obtain ⟨c⟩ := htold
    rcases hsync with rfl | rfl
    · exact Follows.recovering hp c (.bind .syncArm .pure)
    · exact Follows.recovering hp c (.bind .syncStmt .pure)

lemma following_total : following.Total where
  lt _ _ := trivial
  told c := ⟨c⟩
  exhausted := Follows.exhausted
  nested h _ := .nested (h _)

lemma follows_itemRound (hle : n ≤ m) (a b : Array Item) (s : State) (hab : a.map Item.bare = b.map Item.bare) :
    Follows (Sum.map (Array.map Item.bare) (List.map Item.bare)) (itemRound (productions n) a)
    (itemRound (productions m) b) s := by
  have hitem : Follows Item.bare (item (productions n)) (item (productions m)) s :=
    show following.Takes [] [] _ _ _ s from takes_item fun _ => following_total.table hle _
  refine .read_bind (v := id) (isAt_run .eof) (fun h => congrArg (· == _) h.kind_eq.symm) fun b h => ?_
  cases (h : _ = b)
  refine .ite (.pure (by simp [map_toList hab])) (.recovering (hitem.bind fun _ _ _ hitem => .pure ?_)
    (.bind (itemCourses (productionsCourses n)) .pure) (.bind .syncItem .pure))
  simp [hab, hitem]

open List

variable {α β σ : Type} {s s' : State} {g : Productions} {bs : List Bracket}

/-! ## Declarations that stand alone -/

lemma startsItem_of_itemKind {kind : ItemKind} (h : itemKind g s = (.ok kind, s')) : startsItem s.kind := by
  rw [itemKind, bind_run (kind_run s)] at h
  generalize s.kind = token at h ⊢
  split at h
  all_goals first | rfl | exact (not_refuseExpected h).elim

lemma startsItem_of_item (h : item g s = (.ok i, s')) : startsItem s.kind := by
  rw [item, bind_run (here_run s), bind_run (freshId_run s)] at h
  obtain ⟨kind, s₁, hkind, -⟩ := bind_ok h
  exact (startsItem_of_itemKind hkind :)

/-- The step does not depend on the token before the state. -/
def Forgets (p : Parse α) (s : State) : Prop := ∀ previous, p { s with previous } = p s

namespace Forgets

variable {p : Parse α} {f : α → Parse β}

lemma bind (h : Forgets p s) : Forgets (p >>= f) s := by
  intro previous
  rcases hrun : p s with ⟨stop | a, s'⟩
  · rw [bind_error hrun, bind_error ((h previous).trans hrun)]
  · rw [bind_run hrun, bind_run ((h previous).trans hrun)]

lemma read_bind (look : State → α) (h : ∀ s, p s = (.ok (look s), s))
    (hlook : ∀ previous, look { s with previous } = look s) (hf : Forgets (f (look s)) s) : Forgets (p >>= f) s := by
  intro previous
  rw [bind_run (h s), bind_run (h _), hlook]
  exact hf previous

lemma bump (hkind : s.kind ≠ .eof) (hahead : s.ahead ≠ []) : Forgets bump s := by
  obtain ⟨next, more, hnext⟩ := exists_cons_of_ne_nil hahead
  intro previous
  rw [bump_run, bump_run, advance_eq hkind hnext, advance_eq (s := { s with previous }) hkind hnext]

lemma expectText (hexpected : s.kind = expected) (hkind : s.kind ≠ .eof)
    (hahead : s.ahead ≠ []) : Forgets (expectText expected) s := by
  intro previous
  rw [expectText_run hexpected, expectText_run (s := { s with previous }) hexpected]
  have hbump := bump hkind hahead previous
  rw [(Prod.mk.inj hbump).2]

lemma function (hkind : s.kind = .keyword .kwFunction) (hahead : s.ahead ≠ []) :
    Forgets (function g isComptime isForeign) s :=
  read_bind (fun s => s.current.span) here_run (fun _ => rfl) (bind (expectText hkind (by simp [hkind]) hahead))

lemma itemKind (hstarts : startsItem s.kind) (hahead : s.ahead ≠ []) : Forgets (itemKind g) s := by
  refine read_bind State.kind kind_run (fun _ => rfl) ?_
  have heof : s.kind ≠ .eof := by
    intro heof
    rw [heof] at hstarts
    cases hstarts
  split
  all_goals rename_i hkind
  · exact bind (expectText hkind heof hahead)
  · exact bind (function hkind hahead)
  · exact read_bind State.nextKind nextKind_run (fun _ => rfl) (bind (bump heof hahead))
  · exact bind (bump heof hahead)
  iterate 2 exact bind (bump heof hahead)
  iterate 5 exact bind (expectText hkind heof hahead)
  · exfalso
    cases htoken : s.kind with
    | keyword k => cases k <;> simp_all [startsItem]
    | _ => simp [htoken, startsItem] at hstarts

lemma item (hstarts : startsItem s.kind) (hahead : s.ahead ≠ []) : Forgets (item g) s := by
  intro previous
  rw [Grammar.item, bind_run (here_run s), bind_run (here_run { s with previous }), bind_run (freshId_run s),
    bind_run (freshId_run { s with previous })]
  exact bind (itemKind (s := { s with nextId := s.nextId + 1 }) hstarts hahead) previous

end Forgets

variable {before : Array Item}

lemma item_of_clean (c : g.Courses) (hg : g.Agree g w) (hended : s.Ended) (hw : s.weight < w) (hs : s.Sound)
    (hkind : s.kind ≠ .eof) (hclean : ¬ (repeatFrom before (itemRound g) s).2.HasError) :
    ∃ i s', item g s = (.ok i, s') := by
  obtain ⟨items, hfinds⟩ := finds_afterItem c hg hended hw hkind
  rw [hfinds.run] at hclean
  rcases hrun : item g s with ⟨(_ | _) | i, s'⟩
  · have htells := (itemCourses c s).tells
    rw [hrun] at htells
    have hafter : s.afterItem g = (syncItem s').2 := by rw [State.afterItem, hrun]
    have hrounds := (Courses.repeatFrom (itemRoundCourses c) (before ++ items)).calm
    rw [hafter] at hclean
    exact absurd ((hrounds _).keeps ((Courses.syncItem.calm s').keeps (htells.tells hs (htells.refused rfl)))) hclean
  · exact absurd (by rw [hrun]) (hg.takes_item hended (Nat.le_of_lt hw)).bounded
  · exact ⟨i, s', rfl⟩

lemma itemRound_eof (hkind : s.kind = .eof) (before : Array Item) :
    itemRound g before s = (.ok (.inr before.toList), s) := by
  rw [itemRound, bind_run (isAt_run .eof s), if_pos (by simp [hkind])]
  rfl

lemma itemRound_append (before items : Array Item) (s : State) : itemRound g (before ++ items) s =
    ((itemRound g items s).1.map (Sum.map (before ++ ·) (before.toList ++ ·)), (itemRound g items s).2) := by
  by_cases hkind : s.kind = .eof
  · rw [itemRound_eof hkind, itemRound_eof hkind, Array.toList_append]
    rfl
  · simp only [itemRound, bind_run (isAt_run .eof s), beq_eq_false_iff_ne.2 hkind, Bool.false_eq_true, if_false]
    rcases hrun : item g s with ⟨(_ | _) | i, s'⟩
    · rw [recovering_of_refused (bind_error hrun), recovering_of_refused (bind_error hrun)]
      rcases hsync : syncItem s' with ⟨stop | ⟨⟩, s''⟩
      · rw [bind_error hsync, bind_error hsync]
        rfl
      · rw [bind_run hsync, bind_run hsync]
        rfl
    · rw [recovering_of_exhausted (bind_error hrun), recovering_of_exhausted (bind_error hrun)]
      rfl
    · rw [recovering_of_ok (by rw [bind_run hrun, pure_run]), recovering_of_ok (by rw [bind_run hrun, pure_run])]
      simp [Except.map]

lemma iterate_map {φ : σ → σ} {ψ : β → β}
    (h : ∀ a s, step (φ a) s = ((step a s).1.map (Sum.map φ ψ), (step a s).2)) : ∀ fuel a s,
      iterate step fuel (φ a) s = ((iterate step fuel a s).1.map ψ, (iterate step fuel a s).2)
  | 0, _, _ => rfl
  | fuel + 1, a, s => by
    have hstep := h a s
    rw [iterate, iterate]
    rcases hrun : step a s with ⟨stop | b | b, s'⟩
    all_goals rw [hrun] at hstep
    · rw [bind_error hrun, bind_error hstep]
      rfl
    · rw [bind_run hrun, bind_run hstep]
      exact iterate_map h fuel b s'
    · rw [bind_run hrun, bind_run hstep]
      rfl

lemma repeatFrom_append (h : repeatFrom #[] (itemRound g) s = (.ok items, s')) :
    repeatFrom before (itemRound g) s = (.ok (before.toList ++ items), s') := by
  have happend := iterate_map (itemRound_append (g := g) before) (s.weight + 1) #[] s
  rw [Array.append_empty, ← repeatFrom_run, ← repeatFrom_run, h] at happend
  exact happend

/-- The tokens are valid, and parsed as a whole text they give the items without any report. -/
structure ParsesAlone (maxDepth : Nat) (tokens : List Token) (items : List Item) : Prop where
  sound : ∀ t ∈ tokens, t.isSound
  run : ∃ stop, moduleItems (productions (recursionBound (startState tokens maxDepth))) (startState tokens maxDepth) =
    (.ok items, stop) ∧ stop.diagnostics = #[]

lemma startState_cons (h : tokens.filter (!·.kind.isTrivia) = first :: more) (maxDepth : Nat) :
    startState tokens maxDepth = { current := first, ahead := more, maxDepth } := by
  unfold startState
  rw [h]

def State.restart (s : State) : State := { current := s.current, ahead := s.ahead, maxDepth := s.maxDepth }

namespace ParsesAlone

variable {items : List Item} (h : ParsesAlone s.maxDepth (s.current :: s.ahead) items)
  (htrivia : (s.current :: s.ahead).filter (!·.kind.isTrivia) = s.current :: s.ahead) (hended : s.Ended)

include h htrivia

lemma restart : s.restart.Sound ∧ ∃ stop,
    repeatFrom #[] (itemRound (productions (recursionBound s))) s.restart = (.ok items, stop) ∧ ¬ stop.HasError := by
  obtain ⟨stop, hrun, hclean⟩ := h.run
  have hsound := sound_startState h.sound s.maxDepth
  rw [startState_cons htrivia] at hrun hsound
  exact ⟨hsound, stop, hrun, by simp [State.HasError, hclean, hasErrors]⟩

include hended

lemma item (hkind : s.kind ≠ .eof) : ∃ i s', item (productions (recursionBound s)) s.restart = (.ok i, s') := by
  obtain ⟨hsound, stop, hrun, hclean⟩ := h.restart htrivia
  have hagree := productions_agree_self (Nat.le_refl (recursionBound s))
  replace hclean : ¬ (repeatFrom #[] (itemRound (productions (recursionBound s))) s.restart).2.HasError := by rwa [hrun]
  exact item_of_clean (productionsCourses _) hagree hended (Nat.lt_succ_self _) hsound hkind hclean

lemma startsItem : StartsItem (s.current :: s.ahead) := by
  refine ⟨s.current, s.ahead, rfl, ?_⟩
  by_cases hkind : s.kind = .eof
  · exact .inl hkind
  · obtain ⟨i, s', hitem⟩ := h.item htrivia hended hkind
    exact .inr (startsItem_of_item hitem :)

lemma found (hdepth : s.depth = 0) (hn : recursionBound s ≤ n) : ∃ found stop, repeatFrom #[]
    (itemRound (productions n)) s = (.ok found, stop) ∧ found.map Item.bare = items.map Item.bare := by
  obtain ⟨hsound, stop, hrun, hclean⟩ := h.restart htrivia
  by_cases hkind : s.kind = .eof
  · rw [repeatFrom_done (itemRound_eof (s := s.restart) hkind #[])] at hrun
    cases hrun
    exact ⟨_, s, repeatFrom_done (itemRound_eof hkind #[]), rfl⟩
  · obtain ⟨i, s', hitem⟩ := h.item htrivia hended hkind
    have hagree := productions_agree_self (Nat.le_refl (recursionBound s))
    obtain ⟨next, more, hahead⟩ := hended.ahead hkind
    -- the first declaration is the same behind another token, and all others come behind it
    have hitem' : Grammar.item (productions (recursionBound s)) { s.restart with previous := s.previous } =
        (.ok i, s') :=
      (Forgets.item (s := s.restart) (startsItem_of_item hitem) (by simp [State.restart, hahead]) _).trans hitem
    have hfinds := finds_item (productionsCourses _) hagree (s := s.restart) hended (Nat.lt_succ_self _) hkind hitem
    have hfinds' := finds_item (productionsCourses _) hagree (s := { s.restart with previous := s.previous }) hended
      (Nat.lt_succ_self _) hkind hitem'
    rw [hfinds.run, ← hfinds'.run] at hrun
    have hfollows := Follows.repeatFrom (s := { s.restart with previous := s.previous }) (follows_itemRound hn)
      (a := #[]) (b := #[]) rfl
    obtain ⟨found, stop', hfound, hbare, -⟩ := hfollows.run s items stop
      ⟨hsound.tokens, hsound.depth⟩ ⟨rfl, rfl, rfl, hdepth, rfl⟩ hrun hclean
    exact ⟨found, stop', hfound, hbare.symm⟩

end ParsesAlone

/-! ## Broken bodies -/

/-- Brackets match, and the text does not end. -/
def Balanced (tokens : List Token) : Prop :=
  tokens.foldlM (fun bs t => nest bs t.kind) [] = some [] ∧ ∀ t ∈ tokens, t.kind ≠ .eof

lemma nest_append (h : nest bs k = some bs') :
    nest (bs ++ outer) k = some (bs' ++ outer) := by
  unfold nest at *
  split at h
  · cases h
    rfl
  · cases h
    rfl
  · split at h
    · rename_i hhead
      cases bs with
      | nil => cases hhead
      | cons b bs =>
        cases hhead
        cases h
        simp
    · cases h

lemma closing_append (houter : outer ≠ [])
    (hclose : Closing (bs' ++ outer) close) : ∀ tokens bs,
      tokens.foldlM (fun bs t => nest bs t.kind) bs = some bs' → (∀ t ∈ tokens, t.kind ≠ .eof) →
      Closing (bs ++ outer) (tokens ++ close)
  | [], bs, h, _ => by
    cases (Option.some.inj h : bs = bs')
    exact hclose
  | t :: tokens, bs, h, heof => by
    obtain ⟨bs₁, hnest, h⟩ := Option.bind_eq_some_iff.1 h
    exact ⟨append_ne_nil_of_right_ne_nil bs houter, heof t (.head _), _, nest_append hnest,
      closing_append houter hclose tokens bs₁ h fun u hu => heof u (mem_cons_of_mem t hu)⟩

lemma Balanced.closing (h : Balanced tokens)
    (hclose : close.kind = .symbol .rbrace) : Closing [.brace] (tokens ++ [close]) := by
  refine closing_append (cons_ne_nil Bracket.brace []) ?_ tokens [] h.1 h.2
  exact ⟨cons_ne_nil _ _, by simp [hclose], [], by rw [hclose]; rfl, rfl⟩

/-- From one state to another the declarations `items` are read one after the other. -/
inductive ReadsItems (g : Productions) : State → List Item → State → Prop where
  | done (s : State) : ReadsItems g s [] s
  | more {s s' s'' : State} {i : Item} {items : List Item} (hkind : s.kind ≠ .eof) (hitem : item g s = (.ok i, s'))
    (h : ReadsItems g s' items s'') : ReadsItems g s (i :: items) s''

lemma ReadsItems.finds (c : g.Courses) (hg : g.Agree g w) (h : ReadsItems g s items s')
    (hended : s.Ended) (hw : s.weight < w) : Finds g items.toArray s s' := by
  induction h with
  | done s => exact .refl hended
  | more hkind hitem _ ih =>
    have hfirst := finds_item c hg hended hw hkind hitem
    have hrest := ih hfirst.later.ended (Nat.lt_of_le_of_lt hfirst.later.weight_le hw)
    simpa using hfirst.trans hrest

lemma ended_of_getLast (h : (s.current :: s.ahead).getLast? = some t) (heof : t.kind = .eof) : s.Ended := by
  unfold State.Ended State.words
  rw [getLast?_map, h]
  exact congrArg some (word_of_kind heof rfl)

/-- A broken body of a function does not affect later declarations. Let a text begin with the
declarations `first` and go on with a function whose body has matching brackets and is otherwise
arbitrary, and then with declarations that stand alone without a report. Then the last declarations
that are found are these, up to the identities of their nodes. -/
theorem later_items_found {maxDepth : Nat} {tokens before body after : List Token} {fn name lp rp lb close eof : Token}
    {first later : List Item} {s : State}
    (htext : tokens.filter (!·.kind.isTrivia) =
      before ++ ([fn, name, lp, rp, lb] ++ (body ++ [close] ++ (after ++ [eof]))))
    (hhead : [fn, name, lp, rp, lb].map Token.kind =
      [.keyword .kwFunction, .ident, .symbol .lparen, .symbol .rparen, .symbol .lbrace])
    (hbody : Balanced body) (hclose : close.kind = .symbol .rbrace) (heof : eof.kind = .eof)
    (hfirst : ReadsItems (productions (recursionBound (startState tokens maxDepth)))
      (startState tokens maxDepth) first s)
    (hs : s.current :: s.ahead = [fn, name, lp, rp, lb] ++ (body ++ [close] ++ (after ++ [eof])))
    (hlater : ParsesAlone maxDepth (after ++ [eof]) later) :
    ∃ between last stop, moduleItems (productions (recursionBound (startState tokens maxDepth)))
        (startState tokens maxDepth) = (.ok (first ++ between ++ last), stop) ∧
      last.map Item.bare = later.map Item.bare ∧
      ∀ file source, (lex file source).tokens.toList = tokens →
        (parseUnit file source maxDepth).module.items = first ++ between ++ last := by
  have hsuffix : after ++ [eof] <:+ tokens.filter (!·.kind.isTrivia) :=
    ⟨before ++ ([fn, name, lp, rp, lb] ++ (body ++ [close])), by simp [htext]⟩
  obtain ⟨t, ts, hcons⟩ := exists_cons_of_ne_nil (l := tokens.filter (!·.kind.isTrivia)) (by simp [htext])
  have hended : (startState tokens maxDepth).Ended := by
    obtain ⟨pre, hpre⟩ := hsuffix
    refine ended_of_getLast (t := eof) ?_ heof
    rw [startState_cons hcons, ← hcons, ← hpre, ← append_assoc, getLast?_concat]
  have hzero : (startState tokens maxDepth).depth = 0 ∧ (startState tokens maxDepth).maxDepth = maxDepth := by
    rw [startState_cons hcons]
    exact ⟨rfl, rfl⟩
  have htrivia : (after ++ [eof]).filter (!·.kind.isTrivia) = after ++ [eof] :=
    filter_eq_self.2 fun u hu => (mem_filter.1 (hsuffix.subset hu)).2
  have hstarts : StartsItem (after ++ [eof]) := by
    obtain ⟨u, us, hafter⟩ := exists_cons_of_ne_nil (l := after ++ [eof]) (by simp)
    have hlast : (u :: us).getLast? = some eof := by rw [← hafter, getLast?_concat]
    rw [hafter] at hlater htrivia ⊢
    exact ParsesAlone.startsItem (s := { current := u, ahead := us, maxDepth }) hlater htrivia
      (ended_of_getLast hlast heof)
  have hrun (file : FileId) (source : String) (h : (lex file source).tokens.toList = tokens) :
      (run file source maxDepth moduleItems).result = (moduleItems (productions (recursionBound
        (startState tokens maxDepth))) (startState tokens maxDepth)).1.toOption := by
    rw [run_result, h]
  generalize startState tokens maxDepth = start at *
  have hagree := productions_agree_self (Nat.le_refl (recursionBound start))
  have c := productionsCourses (recursionBound start)
  -- from the beginning to the function, through its body, and to the declarations behind it
  have hbefore := hfirst.finds c hagree hended (Nat.lt_succ_self _)
  have hlt : s.weight < start.weight + 1 := Nat.lt_succ_of_le hbefore.later.weight_le
  have hkind : s.kind ≠ .eof := by rw [kind_of_tokens hs, (List.cons.inj hhead).1]; simp
  obtain ⟨function, hfunction⟩ := finds_afterItem c hagree hbefore.later.ended hlt hkind
  have hsettled : Settled (after ++ [eof]) (s.afterItem (productions (recursionBound start))) :=
    (lands_item (n := 4 * start.weight + 3) hstarts.ne_nil hs hhead (hbody.closing hclose)).afterItem hstarts
  obtain ⟨junk, s', hjunk, hs'⟩ := finds_settled c (productions_bracketed _) hagree hstarts _ hfunction.later.ended
    (Nat.lt_of_le_of_lt hfunction.later.weight_le hlt) hsettled
  have hfinds := (hbefore.trans hfunction).trans hjunk
  have hdepth : s'.depth = 0 ∧ s'.maxDepth = maxDepth :=
    ⟨hfinds.sameDepth.1.trans hzero.1, hfinds.sameDepth.2.trans hzero.2⟩
  rw [← hs'] at htrivia
  rw [← hs', ← hdepth.2] at hlater
  obtain ⟨last, stop, hfound, hbare⟩ := hlater.found htrivia hfinds.later.ended hdepth.1 (n := recursionBound start)
    (Nat.mul_le_mul_left 4 (Nat.succ_le_succ hfinds.later.weight_le))
  have hmodule : moduleItems (productions (recursionBound start)) start =
      (.ok (first ++ (function ++ junk).toList ++ last), stop) := by
    rw [moduleItems, hfinds.run, repeatFrom_append hfound]
    simp
  refine ⟨_, last, stop, hmodule, hbare, fun file source h => ?_⟩
  have hresult := hrun file source h
  rw [hmodule] at hresult
  exact congrArg (·.getD []) hresult

/-- A constant, a function with a body in which nothing is right, and another constant. -/
def brokenUnit : String := "const a: int = 1; function f() { let = (struct { + }) } const b: int = 2;"

def brokenTokens : List Token := (lex ⟨0⟩ brokenUnit).tokens.toList

def brokenStart : State := startState brokenTokens 8

def behindBroken : List Token := (brokenTokens.drop 21).take 7 ++ [brokenTokens.getD 28 default]

def brokenHead : List Token :=
  [brokenTokens.getD 7 default, brokenTokens.getD 8 default, brokenTokens.getD 9 default, brokenTokens.getD 10 default,
    brokenTokens.getD 11 default]

/-- The text is of the form in question: the first constant is read, the brackets of the body match,
and the constant behind it stands alone. -/
lemma brokenUnit_runs : let first := item (productions (recursionBound brokenStart)) brokenStart
    let later := moduleItems (productions (recursionBound (startState behindBroken 8))) (startState behindBroken 8)
    let left := brokenHead ++ ((brokenTokens.drop 12).take 8 ++ [brokenTokens.getD 20 default] ++ behindBroken)
    first.1.toOption.isSome ∧ first.2.current :: first.2.ahead = left ∧
      brokenTokens.filter (!·.kind.isTrivia) = brokenTokens.take 7 ++ left ∧
      brokenHead.map Token.kind = [.keyword .kwFunction, .ident, .symbol .lparen, .symbol .rparen, .symbol .lbrace] ∧
      ((brokenTokens.drop 12).take 8).foldlM (fun bs t => nest bs t.kind) [] = some [] ∧
      (∀ t ∈ (brokenTokens.drop 12).take 8, t.kind ≠ .eof) ∧
      (brokenTokens.getD 20 default).kind = .symbol .rbrace ∧ (brokenTokens.getD 28 default).kind = .eof ∧
      (∀ t ∈ behindBroken, t.isSound) ∧ later.1.toOption.map List.length = some 1 ∧
      later.2.diagnostics = #[] ∧ brokenStart.kind ≠ .eof := by
  decide +kernel

theorem later_items_found_brokenUnit : ∃ first between last later stop,
    moduleItems (productions (recursionBound brokenStart)) brokenStart = (.ok (first ++ between ++ last), stop) ∧
      ParsesAlone 8 behindBroken later ∧ later.length = 1 ∧ last.map Item.bare = later.map Item.bare := by
  obtain ⟨hitem, hplace, htext, hhead, hnest, hbody, hclose, heof, hsound, hlater, hclean, hkind⟩ := brokenUnit_runs
  rcases hfirst : item (productions (recursionBound brokenStart)) brokenStart with ⟨stop | i, s⟩
  all_goals rw [hfirst] at hitem hplace
  · cases hitem
  rcases hrun : moduleItems (productions (recursionBound (startState behindBroken 8))) (startState behindBroken 8) with
    ⟨stop | later, stop⟩
  all_goals rw [hrun] at hlater hclean
  · cases hlater
  have halone : ParsesAlone 8 behindBroken later := ⟨hsound, stop, hrun, hclean⟩
  obtain ⟨between, last, stop, hfound, hbare, -⟩ := later_items_found htext hhead ⟨hnest, hbody⟩ hclose heof
    (.more hkind hfirst (.done s)) hplace halone
  exact ⟨_, between, last, later, stop, hfound, halone, Option.some.inj hlater, hbare⟩

end Kite.Grammar
