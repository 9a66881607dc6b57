/-
The grammar as a whole ends: the bounds that it is run with are never reached, and each round of
each of its loops that is not the last has less left than there was before it.
-/
import Kite.Proofs.Grammar.Rules

namespace Kite.Grammar

/-! ## Rules that end -/

variable {s : State} {g g' : Productions} {w : Nat}

lemma ends_recovery (h : sync = syncArm ∨ sync = syncStmt) (hended : s.Ended) :
    Ends sync sync s fun _ s' => s.kind ≠ .eof ∧ s.kind ≠ .symbol .rbrace → s'.weight < s.weight := by
  rcases h with rfl | rfl
  · exact ends_syncArm hended
  · exact ends_syncStmt hended

/-- A step comes to an end within its bounds, and does what the other one does. -/
def ending : Judgement where
  exact := True
  Holds _ _ _ k p q s := s.Ended → Ends p q s fun a s' => k a → s'.weight < s.weight
  Le := Later
  Lt s s' := s'.Ended ∧ s'.weight < s.weight
  Told _ := True
  le_of_lt h := ⟨h.1, .inl h.2⟩
  lt_of_lt_of_le h h' := ⟨h'.ended, Nat.lt_of_le_of_lt h'.weight_le h.2⟩
  mono h _ hk hended := (h hended).mono fun _ _ _ hlt h => hlt (hk _ h)
  holds_pure hv hk hended := by
    cases hv.2 trivial
    exact .pure hended (by simp [hk])
  holds_bind hp hf hended := by
    refine (hp hended).bind fun a s' hlater hlt => ?_
    have h := hf a a s' ⟨rfl, fun _ => rfl⟩ hlater (fun hk => ⟨hlater.ended, hlt hk⟩) hlater.ended
    refine h.mono fun c s'' hlater' hlt' hl => ?_
    have hle := hlater.weight_le
    have hle' := hlater'.weight_le
    grind
  holds_read_bind hp _ hf hended := .read_bind (hp _) (hf _ ⟨rfl, fun _ => rfl⟩ hended)
  holds_bump_bind h hf hended := by
    have hlt := weight_advance hended h.ne_eof
    have hlater := Later.advance hended
    have hbump : Ends bump bump _ fun a s' => a = _ ∧ s' = _ := .of_ok bump_run hlater ⟨rfl, rfl⟩
    refine hbump.bind fun a s' _ hs' => ?_
    obtain ⟨rfl, rfl⟩ := hs'
    exact (hf ⟨hlater.ended, hlt⟩ hlater.ended).mono fun _ _ hlater' _ _ => Nat.lt_of_le_of_lt hlater'.weight_le hlt
  holds_freshId hended := .of_ok (freshId_run _) (.of_eq hended rfl rfl) (by simp)
  holds_refuse hended := .of_refused rfl (.refl hended)
  holds_reject _ _ _ hended := .of_refused rfl (.of_eq hended rfl rfl)
  holds_refuseExpected hended := ends_refuseExpected hended
  holds_closeAngle hended := (ends_closeAngle hended).mono fun _ _ _ _ h => (Bool.false_ne_true h).elim
  holds_repeatFrom h hab hended := by
    cases hab.2 trivial
    have hstep a s' hlater := h a a s' ⟨rfl, fun _ => rfl⟩ hlater (Later.ended hlater)
    refine .read_bind (get_run _) ((ends_iterate hstep _ _ _ (.refl hended) (Nat.lt_succ_self _)).mono ?_)
    exact fun _ _ _ _ h => (Bool.false_ne_true h).elim
  holds_recovering hsync hp _ hab heof hbrace hended := by
    cases hab.2 trivial
    exact (hp hended).recovering fun s' hlater =>
      shrinks_recovery (fun kind => kind ≠ .eof ∧ kind ≠ .symbol .rbrace) (ends_recovery hsync) hlater ⟨heof, hbrace⟩

lemma takes_of_ending (h : ending.Takes own own' v p q s) (hended : s.Ended) : Takes p q s :=
  (h hended).mono fun _ _ _ hlt => hlt rfl

lemma ending_nested (h : ending.Takes own own' v p q s.enter) : ending.Takes own own' v (nested p) (nested q) s :=
  fun hended => (Takes.nested hended (takes_of_ending h hended)).mono fun _ _ _ hlt _ => hlt

/-- From states with at most `w` left the productions of two tables end in the same way, and what
they give is behind at least one token. -/
def Productions.Agree (g g' : Productions) (w : Nat) : Prop := ∀ s : State, s.weight ≤ w → ending.Table g g' s

lemma exists_weight_succ (s : State) : ∃ s' : State, s'.weight = s.weight + 1 := by
  refine ⟨{ s with current := { s.current with kind := .ident }, ahead := s.current :: s.ahead }, ?_⟩
  rw [weight_eq, weight_eq s, List.foldr_cons, Nat.add_comm _ 1]
  rfl

namespace Productions.Agree

variable (hg : g.Agree g' w)

include hg

lemma before (hended : s.Ended) (hw : s.weight < w) : ∃ s', ending.Table g g' s' ∧ ending.Lt s' s := by
  obtain ⟨s', hs'⟩ := exists_weight_succ s
  exact ⟨s', hg s' (by omega), hended, by omega⟩

lemma shrinks (own : List Bracket)
    (h : ∀ {s}, ending.Table g g' s → ending.Rounds s own u v step step') : Shrinks w step step' := by
  intro a s hended hw
  obtain ⟨s', htable, hlt⟩ := hg.before hended hw
  exact h htable a a s ⟨rfl, fun _ => rfl⟩ hlt hended

lemma expr (hended : s.Ended) (hw : s.weight < w) : Ends g.expr g'.expr s fun _ _ => True := by
  obtain ⟨s', htable, hlt⟩ := hg.before hended hw
  have hexpr : ending.Lasts s' [] [] _ _ _ := htable.expr
  exact (hexpr s hlt hended).mono fun _ _ _ _ => trivial

lemma takes_item (hended : s.Ended) (hw : s.weight ≤ w) : Takes (item g) (item g') s :=
  takes_of_ending (show ending.Takes [] [] _ _ _ s from Grammar.takes_item fun hle => hg _ (Nat.le_trans hle.weight_le hw)) hended

lemma shrinks_itemRound : Shrinks w (itemRound g) (itemRound g') := by
  intro items s hended hw
  refine .read_bind (isAt_run .eof s) (.ite (fun _ => shrinks_last hended) fun heof => ?_)
  have hitem := hg.takes_item hended (Nat.le_of_lt hw)
  refine .recovering (hitem.bind fun _ _ hlater hlt => .pure hlater.ended fun _ => hlt) fun s' hlater => ?_
  exact shrinks_recovery (· ≠ .eof) ends_syncItem hlater (by simpa using heof)

end Productions.Agree

variable {s s' : State} {w n m : Nat} {file : FileId} {maxDepth : Nat} {source : String}

/-! ## The recursive productions -/

section

variable (h : ∀ {n m}, 3 * w ≤ n → 3 * w ≤ m → (productions n).Agree (productions m) w) (hw : s.weight ≤ w)
  (hn : 3 * w ≤ n) (hm : 3 * w ≤ m) {p : Parse α}

include h hw hn hm

lemma ending_block : ending.Takes own own Block.bare (productions (n + 1)).block (productions (m + 1)).block s :=
  ending_nested (takes_block (h hn hm s.enter hw))

lemma ending_expr : ending.Takes own own Expr.bare ((productions (n + 2)).exprAbove least)
    ((productions (m + 2)).exprAbove least) s :=
  ending_nested (takes_exprAbove (h (Nat.le_succ_of_le hn) (Nat.le_succ_of_le hm) s.enter hw)
    (ending_block (s := s.enter) h hw hn hm))

lemma ending_stmt : ending.Takes own own StmtOrTail.bare ((productions (n + 3)).stmt closer)
    ((productions (m + 3)).stmt closer) s := by
  exact takes_stmt (h (n := n + 2) (m := m + 2) (by omega) (by omega) s hw)
    (ending_block h hw (Nat.le_succ_of_le hn) (Nat.le_succ_of_le hm)) (ending_expr h hw hn hm)

end

/-- At most three levels of the recursion come one after the other without a token in between: a
statement that is an expression that is a block. -/
lemma productions_agree : ∀ {n m}, 3 * w ≤ n → 3 * w ≤ m → (productions n).Agree (productions m) w := by
  induction w with
  | zero =>
    intro n m _ _ s hs
    have hnone {s' : State} (hlt : ending.Lt s s') : False := by
      have := hlt.2
      omega
    constructor
    · exact fun _ => trivial
    all_goals exact fun hlt => (hnone hlt).elim
  | succ w ih =>
    intro n m hn hm s hs
    obtain ⟨n, rfl⟩ : ∃ i, n = i + 3 := ⟨n - 3, by omega⟩
    obtain ⟨m, rfl⟩ : ∃ i, m = i + 3 := ⟨m - 3, by omega⟩
    have hn' : 3 * w ≤ n := by omega
    have hm' : 3 * w ≤ m := by omega
    have hle {s' : State} (hlt : ending.Lt s s') : s'.weight ≤ w := by
      have := hlt.2
      omega
    have hbelow (s' : State) (hs' : s'.weight ≤ w) : ending.Table (productions (n + 2)) (productions (m + 2)) s' :=
      ih (by omega) (by omega) s' hs'
    exact {
      told := fun _ => trivial
      types := fun {_ s'} hlt => ending_nested (takes_typeExpr (hbelow s'.enter (hle hlt)))
      patterns := fun {_ s'} hlt => ending_nested (takes_pattern (hbelow s'.enter (hle hlt)))
      exprs := fun hlt => ending_expr ih (hle hlt) (Nat.le_succ_of_le hn') (Nat.le_succ_of_le hm')
      blocks := fun {_ s'} hlt => ending_nested (takes_block (hbelow s'.enter (hle hlt)))
      conditionals := fun hlt => takes_conditional (hbelow _ (hle hlt))
      comptimeIfs := fun hlt => takes_comptimeIf (hbelow _ (hle hlt))
      stmts := fun hlt => ending_stmt ih (hle hlt) hn' hm' }

lemma productions_agree_self (hn : recursionBound s ≤ n) : (productions n).Agree (productions n) (s.weight + 1) := by
  unfold recursionBound at hn
  exact productions_agree (by omega) (by omega)

/-! ## Loops -/

inductive ListItem (g : Productions) : {α : Type} → Parse α → Prop where
  | expr : ListItem g g.expr
  | type : ListItem g g.type
  | pattern : ListItem g g.pattern
  | argument : ListItem g (argument g)
  | genericArg : ListItem g (genericArg g)
  | genericParam : ListItem g (genericParam g)
  | param : ListItem g (param g)

/-- What stands beside the methods in the bodies of types and implementations. -/
inductive OtherMember (g : Productions) : {α : Type} → Parse α → Prop where
  | field : OtherMember g (field g)
  | variant : OtherMember g (variant g)
  | none : OtherMember g (refuseExpected "a method" : Parse Unit)

/-- The rounds of the loops with which units and expressions are parsed. -/
inductive Round (g : Productions) : {σ β : Type} → (σ → Parse (σ ⊕ β)) → Prop where
  | items : Round g (itemRound g)
  | members {α : Type} {other : Parse α} (h : OtherMember g other) : Round g (memberRound g other)
  | required : Round g (requiredRound g)
  | bounds : Round g (boundRound g)
  | list {item : Parse α} (h : ListItem g item) (isEnd : TokenKind → Bool) : Round g (commaRound isEnd item)
  | segments : Round g segmentRound
  | marks (start : Span) : Round g (markRound start)
  | variants : Round g variantRound
  | statements : Round g (blockRound g)
  | arms : Round g (armRound g)
  | alternatives : Round g (alternativeRound g)
  | path : Round g (pathRound g)
  | chain (start : Span) : Round g (postfixRound g start)
  | operators (least : Nat) (start : Span) : Round g (operatorRound g least start)
  | skipping (decide : Nat → Bool → TokenKind → Sync) : Round g (skipRound decide)

variable {α β σ : Type} {g : Productions}

lemma ListItem.ending {item : Parse α} (h : ListItem g item) (hg : ending.Table g g s) :
    ∃ (γ : Type) (v : α → γ), ending.Lasts s [] [] v item item := by
  cases h with
  | expr => exact ⟨_, _, hg.expr⟩
  | type => exact ⟨_, _, hg.type⟩
  | pattern => exact ⟨_, _, hg.pattern⟩
  | argument => exact ⟨_, _, lasts_argument hg⟩
  | genericArg => exact ⟨_, _, lasts_genericArg hg⟩
  | genericParam => exact ⟨_, _, lasts_genericParam hg⟩
  | param => exact ⟨_, _, lasts_param hg⟩

lemma OtherMember.ending (h : OtherMember g other) (hg : ending.Table g g s) :
    ∃ (γ : Type) (v : α → γ), ∀ {own s'}, ending.Lt s s' → ending.Takes own own v other other s' := by
  cases h with
  | field => exact ⟨_, _, fun hlt => takes_field (hg.after hlt)⟩
  | variant => exact ⟨_, _, fun hlt => takes_variant (hg.after hlt)⟩
  | none => exact ⟨_, id, fun _ => .refuseExpected⟩

variable {round : σ → Parse (σ ⊕ β)}

lemma Round.shrinks (h : Round g round) (hg : g.Agree g w) : Shrinks w round round := by
  cases h with
  | items => exact hg.shrinks_itemRound
  | members h =>
    intro a s hended hw
    obtain ⟨s', htable, hlt⟩ := hg.before hended hw
    obtain ⟨_, _, hother⟩ := h.ending htable
    have hround : ending.Rounds s' [] _ _ _ _ := rounds_memberRound htable hother
    exact hround a a s ⟨rfl, fun _ => rfl⟩ hlt hended
  | required => exact hg.shrinks [] rounds_requiredRound
  | bounds => exact hg.shrinks [] rounds_boundRound
  | list h isEnd =>
    intro a s hended hw
    obtain ⟨s', htable, hlt⟩ := hg.before hended hw
    obtain ⟨_, _, hitem⟩ := h.ending htable
    exact Judgement.rounds_commaRound hitem isEnd a a s ⟨rfl, fun _ => rfl⟩ hlt hended
  | segments => exact hg.shrinks [] fun _ => rounds_segmentRound
  | marks start => exact hg.shrinks [] fun _ => rounds_markRound
  | variants => exact hg.shrinks [] fun _ => rounds_variantRound
  | statements => exact hg.shrinks [.brace] rounds_blockRound
  | arms => exact hg.shrinks [.brace] rounds_armRound
  | alternatives => exact hg.shrinks [] rounds_alternativeRound
  | path => exact hg.shrinks [] rounds_pathRound
  | chain start => exact hg.shrinks [] rounds_postfixRound
  | operators least start => exact hg.shrinks [] rounds_operatorRound
  | skipping decide => exact shrinks_skipRound decide

/-! ## Whole texts -/

/-- A step that never refuses its input. -/
def Firm (p : Parse α) : Prop := ∀ s, (p s).1 ≠ .error .refused

namespace Firm

lemma bind (hp : Firm p) (hf : ∀ a, Firm (f a)) : Firm (p >>= f) := by
  intro s
  match hrun : p s with
  | (.ok a, s') =>
    rw [bind_run hrun]
    exact hf a s'
  | (.error stop, s') =>
    have hstop := hp s
    rw [bind_error hrun]
    rw [hrun] at hstop
    simpa using hstop

lemma pure : Firm (pure a) := fun s => by simp [pure_run]

lemma iterate (h : ∀ a, Firm (step a)) : ∀ fuel a, Firm (iterate step fuel a)
  | 0, _ => fun _ hrefused => by cases hrefused
  | fuel + 1, a => by
    refine bind (h a) fun r => ?_
    cases r with
    | inl next => exact iterate h fuel next
    | inr _ => exact pure

lemma repeatFrom (h : ∀ a, Firm (step a)) (a : σ) : Firm (repeatFrom a step) := fun s => iterate h (s.weight + 1) a s

lemma kind : Firm kind := fun s => by simp [kind_run]

lemma bump : Firm bump := fun s => by simp [bump_run]

lemma skipTo (decide : Nat → Bool → TokenKind → Sync) : Firm (skipTo decide) := by
  refine repeatFrom (fun state => bind kind fun token => ?_) _
  split
  · exact pure
  · split
    · exact pure
    · exact bind bump fun _ => pure
    · exact bind bump fun _ => pure

lemma recovering (hr : Firm r) : Firm (recovering p r) := by
  intro s
  match hrun : p s with
  | (.ok a, s') => simp [recovering_of_ok hrun]
  | (.error .refused, s') =>
    rw [recovering_of_refused hrun]
    exact hr s'
  | (.error .exhausted, s') => simp [recovering_of_exhausted hrun]

end Firm

lemma firm_itemRound (items : Array Item) : Firm (itemRound g items) := by
  intro s
  unfold itemRound
  rw [bind_run (isAt_run .eof s)]
  split
  · simp [pure_run]
  · exact Firm.recovering (.bind (.skipTo _) fun _ => .pure) s

lemma recovering_ok (h : recovering p r s = (.ok a, s')) : p s = (.ok a, s') ∨ ∃ s₁, r s₁ = (.ok a, s') := by
  match hrun : p s with
  | (.ok b, s₁) => exact .inl (by rw [← h, recovering_of_ok hrun])
  | (.error .refused, s₁) => exact .inr ⟨s₁, by rw [← h, recovering_of_refused hrun]⟩
  | (.error .exhausted, s₁) =>
    rw [recovering_of_exhausted hrun] at h
    cases h

lemma itemRound_last (h : itemRound g items s = (.ok (.inr result), s')) : s'.kind = .eof := by
  unfold itemRound at h
  rw [bind_run (isAt_run .eof s)] at h
  split at h
  · rename_i heof
    obtain ⟨-, rfl⟩ := pure_ok h
    simpa using heof
  · rcases recovering_ok h with h | ⟨s₁, h⟩
    all_goals
      obtain ⟨_, _, _, h⟩ := bind_ok h
      obtain ⟨h, -⟩ := pure_ok h
      cases h

lemma ended_startState : (startState (lex file source).tokens.toList maxDepth).Ended := by
  unfold State.Ended
  rw [(startState_lex file source maxDepth).1]
  simp

lemma ends_wholeExpr (hg : g.Agree g' w) (hended : s.Ended) (hw : s.weight < w) :
    Ends (wholeExpr g) (wholeExpr g') s fun _ _ => True := by
  refine (hg.expr hended hw).bind fun e s' hlater _ => .read_bind (isAt_run .eof s') ?_
  refine .ite (fun _ => ?_) fun _ => .pure hlater.ended trivial
  exact (ends_reportExpected hlater.ended).bind fun _ _ hlater' _ => .pure hlater'.ended trivial

lemma ends_moduleItems (hg : g.Agree g' w) (hended : s.Ended) (hw : s.weight < w) :
    Ends (moduleItems g) (moduleItems g') s fun _ _ => True :=
  hg.shrinks_itemRound.ends_repeatFrom #[] hended hw

lemma moduleItems_ends (hg : g.Agree g w) (hended : s.Ended) (hw : s.weight < w) :
    ∃ items stop, moduleItems g s = (.ok items, stop) ∧ stop.kind = .eof := by
  have hbounded := (ends_moduleItems hg hended hw).bounded
  have hfirm : (moduleItems g s).1 ≠ .error .refused := Firm.repeatFrom firm_itemRound #[] s
  match hrun : moduleItems g s with
  | (.ok items, stop) =>
    obtain ⟨_, _, -, hlast⟩ := iterate_ok (fun _ _ => True) (fun _ _ _ _ _ _ => trivial) trivial hrun
    exact ⟨items, stop, rfl, itemRound_last hlast⟩
  | (.error .refused, stop) => exact absurd (by rw [hrun]) hfirm
  | (.error .exhausted, stop) => exact absurd (by rw [hrun]) hbounded

/-- A round takes no more than there is, and less is left after it unless it is the last. -/
lemma Round.bounded (h : Round g round) (hg : g.Agree g w) (a : σ) (hended : s.Ended)
    (hw : s.weight < w) : (round a s).1 ≠ .error .exhausted ∧ (round a s).2.weight ≤ s.weight ∧
    (∀ b s', round a s = (.ok (.inl b), s') → s'.weight < s.weight) ∧
    ∀ fuel > s.weight, iterate round fuel a s = repeatFrom a round s := by
  have hshrinks := h.shrinks hg
  have hround := hshrinks a s hended hw
  refine ⟨hround.bounded, hround.later.weight_le, fun b s' hrun => hround.post _ _ hrun rfl, fun fuel hfuel => ?_⟩
  exact hshrinks.iterate_eq fuel (s.weight + 1) a s hended hw hfuel (Nat.lt_succ_self _)

lemma run_result (p : Productions → Parse α) : (run file source maxDepth p).result =
      (p (productions (recursionBound (startState (lex file source).tokens.toList maxDepth)))
        (startState (lex file source).tokens.toList maxDepth)).1.toOption := rfl

/-- Parsing ends, whatever the text is and however deep it may nest. A unit is parsed to the end of
the text. An expression is found or refused. With greater bounds on the recursion both would give
the same. A round of a loop that is not the last has less left than before, so that a loop gives
the same with every bound on its rounds that is greater than what is left. -/
theorem parsing_ends (file : FileId) (source : String) (maxDepth : Nat) :
    let start := startState (lex file source).tokens.toList maxDepth
    let g := productions (recursionBound start)
    (∃ items stop, moduleItems g start = (.ok items, stop) ∧ stop.kind = .eof ∧
      (parseUnit file source maxDepth).module.items = items) ∧
    (∃ result stop, wholeExpr g start = (result, stop) ∧ result ≠ .error .exhausted ∧
      (parseExpr file source maxDepth).1 = result.toOption) ∧
    (∀ n ≥ recursionBound start, moduleItems (productions n) start = moduleItems g start ∧
      wholeExpr (productions n) start = wholeExpr g start) ∧
    ∀ {σ β : Type} {round : σ → Parse (σ ⊕ β)}, Round g round → ∀ a s, s.Ended → s.weight ≤ start.weight →
      (round a s).1 ≠ .error .exhausted ∧ (round a s).2.weight ≤ s.weight ∧
      (∀ b s', round a s = (.ok (.inl b), s') → s'.weight < s.weight) ∧
      ∀ fuel > s.weight, iterate round fuel a s = repeatFrom a round s := by
  intro start g
  have hended : start.Ended := ended_startState
  have hagree {n : Nat} (hn : recursionBound start ≤ n) : g.Agree (productions n) (start.weight + 1) := by
    unfold recursionBound at hn
    exact productions_agree (by unfold recursionBound; omega) (by omega)
  have hself : g.Agree g (start.weight + 1) := hagree (Nat.le_refl _)
  have hstart : start.weight < start.weight + 1 := Nat.lt_succ_self _
  refine ⟨?_, ?_, fun n hn => ?_, fun hround a s hs hle => ?_⟩
  · obtain ⟨items, stop, hrun, heof⟩ := moduleItems_ends hself hended hstart
    have hresult : (run file source maxDepth moduleItems).result = some items := by
      rw [run_result, hrun]
      rfl
    exact ⟨items, stop, hrun, heof, congrArg (·.getD []) hresult⟩
  · exact ⟨_, _, rfl, (ends_wholeExpr hself hended hstart).bounded, run_result wholeExpr⟩
  · exact ⟨(ends_moduleItems (hagree hn) hended hstart).same, (ends_wholeExpr (hagree hn) hended hstart).same⟩
  · exact hround.bounded hself a hs (Nat.lt_succ_of_le hle)

def defersThrice : FunctionBody → Bool
  | .block ⟨_, [⟨_, .defer ⟨_, .defer ⟨_, .defer _, _⟩, _⟩, _⟩], _, _⟩ => true
  | _ => false

def hasDeferredThrice : Item → Bool
  | ⟨_, .function f, _⟩ => defersThrice f.body
  | _ => false

/-- Statements that are deferred are no levels. -/
theorem deferred_beyond_limit : (parseUnit ⟨0⟩ "function f() \x7b defer defer defer 1; \x7d" 2).diagnostics.isEmpty ∧
    (parseUnit ⟨0⟩ "function f() \x7b defer defer defer 1; \x7d" 2).module.items.any hasDeferredThrice := by
  decide +kernel

/-- The spans of the generic arguments of the types of a struct's fields. -/
def argumentSpans : Item → List (Nat × Nat)
  | ⟨_, .struct _ _ fields _ _, _⟩ => fields.flatMap fun field =>
    match field.type.kind with
    | .path path => path.args.map fun arg => (arg.span.start, arg.span.stop)
    | _ => []
  | _ => []

/-- The first half of a `>>` closes a type without being stepped over, so the span ends before it. -/
theorem span_without_closing :
    (parseUnit ⟨0⟩ "struct A<T> \x7b x: A<A<i64>> \x7d" 256).diagnostics.isEmpty ∧
    (parseUnit ⟨0⟩ "struct A<T> \x7b x: A<A<i64>> \x7d" 256).module.items.flatMap argumentSpans = [(19, 24)] ∧
      ("struct A<T> \x7b x: A<A<i64>> \x7d".toList.drop 19).take 6 = "A<i64>".toList := by
  decide +kernel

/-! ## Refusals -/

variable {α : Type}

lemma run_reports (file : FileId) (source : String) (maxDepth : Nat) (p : Productions → Parse α)
    (c : Courses (p (productions (recursionBound (startState (lex file source).tokens.toList maxDepth)))))
    (h : (c (startState (lex file source).tokens.toList maxDepth)).refuses) :
    hasErrors (run file source maxDepth p).diagnostics := by
  have hdiagnostics : (run file source maxDepth p).diagnostics = (lex file source).diagnostics.toList ++
      (p (productions (recursionBound (startState (lex file source).tokens.toList maxDepth)))
        (startState (lex file source).tokens.toList maxDepth)).2.diagnostics.toList := rfl
  rw [hdiagnostics, hasErrors_append, Bool.or_eq_true]
  rcases (Lexical.lex_tiles file source).sound with herror | hsound
  · exact .inl herror
  · exact .inr ((Course.tells _).tells (sound_startState hsound maxDepth) h)

def unitRefuses (file : FileId) (source : String) (maxDepth : Nat) : Bool :=
  let start := startState (lex file source).tokens.toList maxDepth
  (moduleItemsCourses (productionsCourses (recursionBound start)) start).refuses

/-- Whether a production refuses its input while an expression is parsed. -/
def exprRefuses (file : FileId) (source : String) (maxDepth : Nat) : Bool :=
  let start := startState (lex file source).tokens.toList maxDepth
  (wholeExprCourses (productionsCourses (recursionBound start)) start).refuses

lemma exprRefuses_of_none (h : (parseExpr file source maxDepth).1 = none) : exprRefuses file source maxDepth := by
  have hended : (startState (lex file source).tokens.toList maxDepth).Ended := ended_startState
  have hbounded := (ends_wholeExpr (productions_agree_self (Nat.le_refl _)) hended (Nat.lt_succ_self _)).bounded
  rw [parseExpr, run_result] at h
  refine (Course.tells _).refused ?_
  cases hresult : (wholeExpr _ _).1 with
  | ok expr =>
    rw [hresult] at h
    cases h
  | error stop =>
    cases stop with
    | refused => rfl
    | exhausted => exact absurd hresult hbounded

/-- No input is dropped silently. If a production refuses its input while a unit or an expression is
parsed, an error is reported; and there is a refusal whenever no expression is found. -/
theorem refusals_reported (file : FileId) (source : String) (maxDepth : Nat) :
    (unitRefuses file source maxDepth = true → hasErrors (parseUnit file source maxDepth).diagnostics = true) ∧
    (exprRefuses file source maxDepth = true → hasErrors (parseExpr file source maxDepth).2 = true) ∧
    ((parseExpr file source maxDepth).1 = none → exprRefuses file source maxDepth = true) :=
  ⟨run_reports file source maxDepth moduleItems _, run_reports file source maxDepth wholeExpr _, exprRefuses_of_none⟩

/-- A statement without its expression, behind which the body goes on. -/
def brokenLet : String := "function f() \x7b let x = ; return; \x7d"

lemma refuses_brokenLet : unitRefuses ⟨0⟩ brokenLet 8 ∧ exprRefuses ⟨0⟩ "(1 +" 8 := by decide +kernel

theorem refusals_reported_brokenLet : unitRefuses ⟨0⟩ brokenLet 8 = true ∧ exprRefuses ⟨0⟩ "(1 +" 8 = true ∧
    hasErrors (parseUnit ⟨0⟩ brokenLet 8).diagnostics = true ∧ hasErrors (parseExpr ⟨0⟩ "(1 +" 8).2 = true :=
  ⟨refuses_brokenLet.1, refuses_brokenLet.2, (refusals_reported ⟨0⟩ brokenLet 8).1 refuses_brokenLet.1,
    (refusals_reported ⟨0⟩ "(1 +" 8).2.1 refuses_brokenLet.2⟩

example : unitRefuses ⟨0⟩ "function f() \x7b let x = 1; return; \x7d" 8 = false := by decide +kernel

end Kite.Grammar
