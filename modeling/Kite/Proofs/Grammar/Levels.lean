/-
The expression parser follows the table of operators. Whatever it accepts and is made of operators,
parentheses, names and integers is well levelled, and its words are those of the text, unless the
text has generic arguments: an empty list of them leaves no trace in the tree. Together with the
trees that are read back this is `parseExpr_levels`.

The operator loop keeps an invariant (`Grown`): the tree so far is well levelled, its words are
passed, and the token behind it is no operator that its rightmost operand would have taken.
-/
import Kite.Proofs.Grammar.Printed

namespace Kite.Grammar

open List

variable {s s' : State} {g : Productions} {least : Nat} {t : OpTree} {e : Expr} {kind : ExprKind} {file : FileId}
  {source : String} {unchained : Option Nat}

/-! ## Kinds that are no operator trees -/

/-- Whatever `p` gives has the property `P`. -/
def Gives {α : Type} (P : α → Prop) (p : Parse α) : Prop := ∀ s a s', p s = (.ok a, s') → P a

namespace Gives

variable {α β : Type} {P : α → Prop} {Q : β → Prop}

lemma pure (h : P a) : Gives P (pure a) := by
  intro s a' s' hrun
  obtain ⟨rfl, -⟩ := pure_ok hrun
  exact h

lemma seq (hx : Gives P x) (h : ∀ a, P a → Gives Q (f a)) : Gives Q (x >>= f) := by
  intro s b s' hrun
  obtain ⟨a, s₁, ha, hrun⟩ := bind_ok hrun
  exact h a (hx s a s₁ ha) s₁ b s' hrun

lemma bind (h : ∀ {a}, Gives Q (f a)) : Gives Q (x >>= f) :=
  seq (P := fun _ => True) (fun _ _ _ _ => trivial) fun _ _ => h

lemma ite [Decidable c] (hp : Gives P p) (hq : Gives P q) : Gives P (if c then p else q) := by
  split
  · exact hp
  · exact hq

lemma refuse : Gives P refuse := fun _ _ _ hrun => (not_refuse hrun).elim

lemma refuseExpected (what : String) : Gives P (refuseExpected what) :=
  fun _ _ _ hrun => (not_refuseExpected hrun).elim

end Gives

def NoTree (kind : ExprKind) : Prop := kind.opTree? = none

lemma noTree_bracketed : Gives NoTree (bracketed g) := by
  refine .bind <| .bind <| .ite (.pure rfl) (.bind <| .bind <| .ite ?_ ?_)
  · exact .bind <| .bind <| .pure rfl
  · refine .bind <| .ite ?_ ?_
    · exact .bind <| .bind <| .pure rfl
    · exact .bind <| .bind <| .pure rfl

lemma noTree_conditional : Gives NoTree (conditional g) := by
  refine .bind <| .bind <| .bind <| .bind <| .ite ?_ (.pure rfl)
  refine .bind <| .bind <| .ite ?_ ?_
  · exact .bind <| .bind <| .bind <| .pure rfl
  · exact .bind <| .bind <| .bind <| .bind <| .pure rfl

lemma noTree_matchExpr : Gives NoTree (matchExpr g) :=
  .bind <| .bind <| .bind <| .bind <| .bind <| .pure rfl

lemma noTree_badIndex : Gives NoTree (member.badIndex token) := .bind <| .refuse

lemma noTree_member : Gives NoTree (member g base) := by
  refine .bind fun {kind} => ?_
  split
  · refine .bind <| .bind <| .bind <| .ite (.bind <| .bind ?_) (.bind ?_)
    all_goals exact .bind <| .ite (.bind <| .pure rfl) (.ite (.bind <| .pure rfl) (.pure rfl))
  · refine .bind fun {token} => ?_
    split
    · exact .ite (.pure rfl) noTree_badIndex
    · exact noTree_badIndex
  · exact .refuseExpected _

lemma noTree_postfixKind? : Gives (fun kind? => ∀ kind ∈ kind?, NoTree kind) (postfixKind? g base) := by
  refine .bind fun {kind} => ?_
  split
  · exact .bind <| .pure (by rintro _ ⟨⟩; rfl)
  · exact .bind <| .bind <| .bind <| .pure (by rintro _ ⟨⟩; rfl)
  · exact .bind <| .pure (by rintro _ ⟨⟩; rfl)
  · exact .bind <| .seq noTree_member fun kind hkind => .pure (by rintro _ ⟨⟩; exact hkind)
  · exact .pure (by rintro _ ⟨⟩)

lemma postfixKind?_none (h : postfixKind? g base s = (.ok none, s')) : s' = s := by
  by_cases hkind : s.kind ∈ [.symbol .lparen, .symbol .lbracket, .symbol .bang, .symbol .dot]
  · unfold postfixKind? at h
    rw [bind_run (kind_run s)] at h
    have hsome {p : Parse (Option ExprKind)} (h : p s = (.ok none, s')) (hp : Gives (· ≠ none) p) : s' = s :=
      absurd rfl (hp s none s' h)
    simp only [mem_cons, not_mem_nil, or_false] at hkind
    rcases hkind with hkind | hkind | hkind | hkind
    all_goals rw [hkind] at h
    · exact hsome h (.bind <| .pure nofun)
    · exact hsome h (.bind <| .bind <| .bind <| .pure nofun)
    · exact hsome h (.bind <| .pure nofun)
    · exact hsome h (.bind <| .bind <| .pure nofun)
  · rw [postfixKind?_run base hkind] at h
    cases h
    rfl

/-- What a primary can be: a literal, a path, something in parentheses, or no operator tree. -/
def PrimaryForm (g : Productions) (s : State) (p : Parse ExprKind) : Prop :=
  ∀ kind s', p s = (.ok kind, s') →
    s.kind ∈ literalKinds ∧ literalExpr s = (.ok kind, s') ∨
    s.kind = .ident ∧ pathExpr g s = (.ok kind, s') ∨
    s.kind = .symbol .lparen ∧ parenthesised g s = (.ok kind, s') ∨ kind.opTree? = none

lemma Gives.primaryForm (h : Gives NoTree p) : PrimaryForm g s p :=
  fun kind s' hrun => .inr (.inr (.inr (h s kind s' hrun)))

lemma primaryKind_form : PrimaryForm g s (primaryKind g) := by
  intro kind s' hrun
  unfold primaryKind at hrun
  rw [bind_run (kind_run s)] at hrun
  revert kind s'
  show PrimaryForm g s _
  split
  case h_1 hkind | h_2 hkind | h_3 hkind | h_4 hkind =>
    exact fun kind s' hrun => .inl ⟨by simp [literalKinds, hkind], hrun⟩
  case h_10 hkind => exact fun kind s' hrun => .inr (.inl ⟨hkind, hrun⟩)
  case h_11 hkind => exact fun kind s' hrun => .inr (.inr (.inl ⟨hkind, hrun⟩))
  all_goals refine Gives.primaryForm ?_
  iterate 3
    · exact .bind <| .pure rfl
  · exact .bind <| .bind <| .bind <| .bind <| .pure rfl
  · exact .bind <| .pure rfl
  · exact noTree_bracketed
  · exact noTree_conditional
  · exact noTree_matchExpr
  · exact .bind <| .pure rfl
  · exact .bind <| .bind <| .pure rfl
  · exact .bind <| .bind <| .ite (.pure rfl) (.bind <| .pure rfl)
  · exact .bind <| .pure rfl
  · exact .bind <| .pure rfl
  · exact .refuseExpected _

/-! ## Words that are passed -/

/-- The words that are left at `s` are `words` and those left at `s'`, unless generic arguments or
qualified names are among them. -/
def Passes (s : State) (words : List Word) (s' : State) : Prop :=
  s.Ended → symbolWord .colonColon ∉ s.words → s.words = words ++ s'.words

lemma Passes.trans (h : Passes s words s') (h' : Passes s' words' s'') : Passes s (words ++ words') s'' := by
  intro hended hpath
  have hwords := h hended hpath
  rw [hwords] at hpath
  rw [hwords, h' (hended.suffix words hwords) fun hmem => hpath (mem_append_right _ hmem), append_assoc]

lemma passes_advance (h : s.kind ≠ .eof) : Passes s [s.current.word] s.advance :=
  fun hended _ => advance_words hended h

lemma passes_fixed (h : s.kind = k) (hfixed : isFixed k) (hkind : k ≠ .eof) :
    Passes s [.fixed k] s.advance := by
  rw [← word_of_kind h hfixed]
  exact passes_advance (by rw [h]; exact hkind)

/-! ## Operands -/

structure Operand (s : State) (t : OpTree) (s' : State) : Prop where
  wellLevelled : t.wellLevelled
  level : 14 ≤ t.level
  words : Passes s t.words s'

/-- What holds of an operator tree that is read with operators of at least the power `least`. -/
structure Above (least : Nat) (s : State) (t : OpTree) (s' : State) : Prop where
  wellLevelled : t.wellLevelled
  level : least ≤ 10 * t.level
  closed : ∀ op, infixOp? s'.kind = some op → op.leftPower < least
  words : Passes s t.words s'

/-- The productions read operator trees as the table of operators asks. -/
def Productions.Levelled (g : Productions) : Prop :=
  ∀ least ≤ unaryPower, ∀ s e s' t, g.exprAbove least s = (.ok e, s') → e.opTree? = some t → Above least s t s'

lemma operand_literal (hkind : s.kind ∈ literalKinds) (h : literalExpr s = (.ok kind, s'))
    (ht : kind.opTree? = some t) : Operand s t s' := by
  have heof : s.kind ≠ .eof := fun heof => by simp [literalKinds, heof] at hkind
  have hword : s.current.word = .literal s.current.value := by
    simp only [literalKinds, mem_cons, not_mem_nil, or_false] at hkind
    unfold State.kind at hkind
    rcases hkind with hkind | hkind | hkind | hkind <;> simp [Token.word, hkind]
  cases hvalue : s.current.value with
  | none =>
    unfold literalExpr at h
    rw [bind_run bump_run, hvalue] at h
    exact (not_refuse h).elim
  | some value =>
    rw [literalExpr_run hvalue] at h
    cases h
    obtain ⟨n, rfl, rfl⟩ := opTree?_literal ht
    exact ⟨rfl, show 14 ≤ 15 by decide, by simpa [OpTree.words, hword, hvalue] using passes_advance heof⟩

lemma operand_path (h : pathExpr g s = (.ok kind, s')) (ht : kind.opTree? = some t) : Operand s t s' := by
  unfold pathExpr at h
  rw [bind_run (here_run s)] at h
  obtain ⟨first, s₁, hfirst, h⟩ := bind_ok h
  obtain ⟨hkind, hname, rfl⟩ := ident_ok hfirst
  obtain ⟨segments, s₂, hloop, h⟩ := bind_ok h
  obtain ⟨rfl, rfl⟩ := pure_ok h
  obtain ⟨ident, hsegments, rfl⟩ := opTree?_path ht
  refine ⟨rfl, show 14 ≤ 15 by decide, fun hended hpath => ?_⟩
  have heof : s.kind ≠ .eof := by rw [hkind]; decide
  have hwords := advance_words hended heof
  -- without `::` the path is the name alone
  have hnext : s.advance.kind ≠ .symbol .colonColon := by
    intro hnext
    apply hpath
    rw [hwords, State.words, map_cons, word_of_kind hnext rfl]
    simp [symbolWord]
  rw [repeatFrom_done (pathRound_done hnext)] at hloop
  obtain ⟨hresult, rfl⟩ := Prod.mk.inj hloop
  cases hresult.trans (congrArg Except.ok hsegments)
  have hword : s.current.word = .name s.current.text := by simp [Token.word, show s.current.kind = .ident from hkind]
  rw [hwords, hword, ← hname]
  rfl

lemma operand_parenthesised (hg : g.Levelled) (hkind : s.kind = .symbol .lparen)
    (h : parenthesised g s = (.ok kind, s')) (ht : kind.opTree? = some t) : Operand s t s' := by
  unfold parenthesised at h
  rw [bind_run (bump_run)] at h
  obtain ⟨empty, s₁, hempty, h⟩ := bind_ok h
  split at h
  · obtain ⟨rfl, -⟩ := pure_ok h
    cases ht
  obtain ⟨e, s₂, hexpr, h⟩ := bind_ok h
  obtain ⟨comma, s₃, hcomma, h⟩ := bind_ok h
  split at h
  · obtain ⟨_, _, _, h⟩ := bind_ok h
    obtain ⟨_, _, _, h⟩ := bind_ok h
    obtain ⟨rfl, -⟩ := pure_ok h
    cases ht
  obtain ⟨_, s₄, hclose, h⟩ := bind_ok h
  obtain ⟨rfl, rfl⟩ := pure_ok h
  obtain ⟨-, rfl⟩ : empty = false ∧ s₁ = s.advance := by
    rcases eat_ok hempty with ⟨htrue, -⟩ | hfalse
    · contradiction
    · exact hfalse
  obtain ⟨-, rfl⟩ : comma = false ∧ s₃ = s₂ := by
    rcases eat_ok hcomma with ⟨htrue, -⟩ | hfalse
    · contradiction
    · exact hfalse
  obtain ⟨hlast, rfl⟩ := expectText_ok hclose
  obtain ⟨inner, hinner, rfl⟩ := opTree?_paren ht
  have habove := hg 0 (Nat.zero_le _) _ _ _ _ hexpr hinner
  refine ⟨habove.wellLevelled, show 14 ≤ 15 by decide, ?_⟩
  have hopen := passes_fixed hkind rfl (by decide)
  have hclosing := passes_fixed hlast rfl (by decide)
  exact (hopen.trans habove.words).trans hclosing

lemma operand_primary (hg : g.Levelled) (h : primary g s = (.ok e, s')) (ht : e.opTree? = some t) :
    Operand s t s' := by
  unfold primary at h
  rw [bind_run (here_run s)] at h
  obtain ⟨kind, s₁, hkind, h⟩ := bind_ok h
  obtain ⟨rfl, rfl⟩ := pure_ok h
  rw [opTree?_mk] at ht
  have hoperand : Operand s t s₁ := by
    rcases primaryKind_form kind s₁ hkind with ⟨hs, hrun⟩ | ⟨-, hrun⟩ | ⟨hs, hrun⟩ | hnone
    · exact operand_literal hs hrun ht
    · exact operand_path hrun ht
    · exact operand_parenthesised hg hs hrun ht
    · rw [hnone] at ht
      cases ht
  exact ⟨hoperand.wellLevelled, hoperand.level, hoperand.words⟩

lemma postfixRound_ok {next : Expr ⊕ Expr} (h : postfixRound g start e s = (.ok next, s')) :
    (∃ e', next = .inl e' ∧ e'.opTree? = none) ∨ next = .inr e ∧ s' = s := by
  obtain ⟨kind?, s₁, hkind, h⟩ := bind_ok h
  cases kind? with
  | none =>
    obtain ⟨rfl, rfl⟩ := pure_ok h
    exact .inr ⟨rfl, postfixKind?_none hkind⟩
  | some kind =>
    obtain ⟨rfl, rfl⟩ := pure_ok h
    exact .inl ⟨_, rfl, by rw [opTree?_mk]; exact noTree_postfixKind? _ _ _ hkind kind rfl⟩

lemma operand_postfixExpr (hg : g.Levelled) (h : postfixExpr g s = (.ok e, s'))
    (ht : e.opTree? = some t) : Operand s t s' := by
  unfold postfixExpr at h
  rw [bind_run (here_run s)] at h
  obtain ⟨e₀, s₀, hprimary, h⟩ := bind_ok h
  have hstep (a : Expr) (s₁ : State) (b : Expr) (s₂ : State) (_ : a = e₀ ∧ s₁ = s₀ ∨ a.opTree? = none)
      (hrun : postfixRound g s.current.span a s₁ = (.ok (.inl b), s₂)) :
      b = e₀ ∧ s₂ = s₀ ∨ b.opTree? = none := by
    rcases postfixRound_ok hrun with ⟨_, hb, hnone⟩ | ⟨hb, -⟩
    · cases hb
      exact .inr hnone
    · cases hb
  obtain ⟨e₁, s₁, hround, hlast⟩ := iterate_ok _ hstep (.inl ⟨rfl, rfl⟩) h
  rcases postfixRound_ok hlast with ⟨_, hb, -⟩ | ⟨hb, rfl⟩
  · cases hb
  · cases hb
    rcases hround with ⟨rfl, rfl⟩ | hnone
    · exact operand_primary hg hprimary ht
    · rw [hnone] at ht
      cases ht

lemma passes_prefixWords (h : unaryOp? s.kind s.nextKind = some op) :
    Passes s (prefixWords op) (if op == .mutView then s.advance.advance else s.advance) := by
  have hsymbol {symbol : Symbol} (hkind : s.kind = .symbol symbol) : Passes s [symbolWord symbol] s.advance :=
    passes_fixed hkind rfl nofun
  unfold unaryOp? at h
  split at h
  case h_5 hkind =>
    by_cases hmut : s.nextKind = .keyword .kwMut
    · rw [if_pos (by simpa using hmut)] at h
      cases h
      intro hended hpath
      have hnext : s.advance.kind = .keyword .kwMut := by rw [kind_advance (by rw [hkind]; exact nofun), hmut]
      exact ((hsymbol hkind).trans (passes_fixed hnext rfl nofun)) hended hpath
    · rw [if_neg (by simpa using hmut)] at h
      cases h
      exact hsymbol hkind
  case h_6 => cases h
  all_goals
    rename_i hkind
    cases h
    exact hsymbol hkind

lemma unaryExpr_ok (hop : unaryOp? s.kind s.nextKind = some op)
    (h : unaryExpr g s = (.ok e, s')) : ∃ operand s₁,
      g.exprAbove unaryPower (if op == .mutView then s.advance.advance else s.advance) = (.ok operand, s₁) ∧
      e.kind = .unary op operand ∧ s' = { s₁ with nextId := s₁.nextId + 1 } := by
  unfold unaryExpr at h
  rw [bind_run (here_run s), bind_run (kind_run s), bind_run (nextKind_run s), hop] at h
  dsimp only at h
  rw [bind_run (bump_run)] at h
  split at h
  all_goals rename_i hmut
  · rw [bind_run (bump_run)] at h
    obtain ⟨operand, s₁, hoperand, h⟩ := bind_ok h
    obtain ⟨rfl, rfl⟩ := pure_ok h
    exact ⟨operand, s₁, by rw [if_pos hmut, hoperand], rfl, rfl⟩
  · obtain ⟨operand, s₁, hoperand, h⟩ := bind_ok h
    obtain ⟨rfl, rfl⟩ := pure_ok h
    exact ⟨operand, s₁, by rw [if_neg hmut, hoperand], rfl, rfl⟩

lemma operand_unaryExpr (hg : g.Levelled) (h : unaryExpr g s = (.ok e, s'))
    (ht : e.opTree? = some t) : Operand s t s' := by
  cases hop : unaryOp? s.kind s.nextKind with
  | none =>
    unfold unaryExpr at h
    rw [bind_run (here_run s), bind_run (kind_run s), bind_run (nextKind_run s), hop] at h
    exact operand_postfixExpr hg h ht
  | some op =>
    obtain ⟨operand, s₁, hoperand, hkind, rfl⟩ := unaryExpr_ok hop h
    obtain ⟨id, kind, span⟩ := e
    subst hkind
    obtain ⟨t', ht', rfl⟩ := opTree?_unary ht
    have habove := hg unaryPower (Nat.le_refl _) _ _ _ _ hoperand ht'
    have hlevel : 14 ≤ t'.level := by
      have := habove.level
      unfold unaryPower at this
      omega
    refine ⟨?_, Nat.le_refl 14, (passes_prefixWords hop).trans habove.words⟩
    rw [OpTree.wellLevelled, habove.wellLevelled]
    simpa using hlevel

/-! ## Rounds -/

/-- The invariant of the operator loop that began at `s`. -/
structure Grown (least : Nat) (s : State) (t : OpTree) (unchained : Option Nat) (s' : State) : Prop where
  wellLevelled : t.wellLevelled
  level : least ≤ 10 * t.level
  unchained : unchained = t.unchained
  closed : ∀ op, infixOp? s'.kind = some op → op.leftPower < t.edge
  words : Passes s t.words s'

lemma Operand.grown (h : Operand s t s') (hleast : least ≤ unaryPower) : Grown least s t none s' := by
  obtain ⟨hlevels, hlevel, hwords⟩ := h
  have hnot : t.unchained = none ∧ t.edge = unaryPower := by
    cases t with
    | infixed symbol lhs rhs =>
      obtain ⟨op, hop, -⟩ := OpTree.wellLevelled_infixed.1 hlevels
      rw [OpTree.level_infixed hop] at hlevel
      have := (infixOp?_listed hop).le_twelve
      omega
    | _ => exact ⟨rfl, rfl⟩
  refine ⟨hlevels, ?_, hnot.1.symm, fun op hop => ?_, hwords⟩
  · unfold unaryPower at hleast
    omega
  · rw [hnot.2]
    exact Nat.lt_of_le_of_lt (leftPower_le hop) (by decide)

/-- What a round does: it ends before a token that binds too loosely, makes a cast, or takes an
infix operator and its right operand. -/
lemma operatorRound_ok {next : (Expr × Option Nat) ⊕ Expr}
    (h : operatorRound g least start (lhs, unchained) s = (.ok next, s')) :
    (next = .inr lhs ∧ s' = s ∧ ∀ op, infixOp? s.kind = some op → op.leftPower < least) ∨
    (∃ e, next = .inl (e, none) ∧ e.opTree? = none) ∨
    ∃ op rhs s₁ e, infixOp? s.kind = some op ∧ least ≤ op.leftPower ∧
      (op.assoc = .none → unchained ≠ some op.level) ∧
      g.exprAbove op.rightPower s.advance = (.ok rhs, s₁) ∧ e.kind = op.kind.build lhs rhs ∧
      next = .inl (e, if op.assoc == .none then some op.level else none) ∧
      s' = { s₁ with nextId := s₁.nextId + 1 } := by
  unfold operatorRound at h
  dsimp only at h
  rw [bind_run (kind_run s)] at h
  by_cases hcast : s.kind = .keyword .kwAs
  · rw [if_pos (by simpa using hcast)] at h
    have hop : infixOp? s.kind = none := by rw [hcast]; rfl
    split at h
    · obtain ⟨rfl, rfl⟩ := pure_ok h
      exact .inl ⟨rfl, rfl, by rw [hop]; exact nofun⟩
    · rw [bind_run (bump_run)] at h
      obtain ⟨type, s₁, -, h⟩ := bind_ok h
      obtain ⟨rfl, rfl⟩ := pure_ok h
      exact .inr (.inl ⟨_, rfl, by rw [opTree?_mk]; rfl⟩)
  · rw [if_neg (by simpa using hcast)] at h
    cases hop : infixOp? s.kind with
    | none =>
      rw [hop] at h
      obtain ⟨rfl, rfl⟩ := pure_ok h
      exact .inl ⟨rfl, rfl, nofun⟩
    | some op =>
      rw [hop] at h
      dsimp only at h
      by_cases hpower : op.leftPower < least
      · rw [if_pos hpower] at h
        obtain ⟨rfl, rfl⟩ := pure_ok h
        refine .inl ⟨rfl, rfl, ?_⟩
        rintro _ ⟨⟩
        exact hpower
      · rw [if_neg hpower] at h
        by_cases hchain : op.assoc = .none ∧ unchained = some op.level
        · rw [if_pos (by simpa using hchain), bind_run (here_run s)] at h
          obtain ⟨_, _, _, h⟩ := bind_ok h
          exact (not_refuse h).elim
        · rw [if_neg (by simpa using hchain), bind_run (bump_run)] at h
          obtain ⟨rhs, s₁, hrhs, h⟩ := bind_ok h
          obtain ⟨rfl, rfl⟩ := pure_ok h
          exact .inr (.inr ⟨op, rhs, s₁, _, rfl, by omega, fun h₁ h₂ => hchain ⟨h₁, h₂⟩, hrhs, rfl, rfl, rfl⟩)

lemma takesLeft_of_lt_edge {lhs : OpTree}
    (hop : infixOp? (.symbol symbol) = some op) (hlhs : lhs.wellLevelled) (hlt : op.leftPower < lhs.edge)
    (hchain : op.assoc = .none → lhs.unchained ≠ some op.level) : op.takesLeft lhs.level := by
  have hle := (infixOp?_listed hop).le_twelve
  rw [takesLeft_iff]
  cases lhs with
  | infixed inner l r =>
    obtain ⟨op', hop', -⟩ := OpTree.wellLevelled_infixed.1 hlhs
    rw [OpTree.level_infixed hop']
    simp only [OpTree.edge, OpTree.unchained, hop', Option.map_some, Option.getD_some, Option.bind_some] at hlt hchain
    unfold InfixOp.leftPower at hlt
    rcases rightPower_cases op' with ⟨-, hpower⟩ | ⟨hassoc', hpower⟩
    · omega
    · rcases Nat.lt_or_eq_of_le (show op.level ≤ op'.level by omega) with h | h
      · exact .inl h
      · -- operators of one level associate alike, and these are neither chained nor associate right
        have hassoc : op.assoc = op'.assoc := by rw [(infixOp?_listed hop).assoc, (infixOp?_listed hop').assoc, h]
        cases hop'' : op'.assoc with
        | left => exact .inr ⟨hassoc.trans hop'', h⟩
        | right => exact absurd hop'' hassoc'
        | none => exact absurd (by simp [hop'', h]) (hchain (hassoc.trans hop''))
  | _ =>
    left
    simp only [OpTree.level]
    omega

lemma takesRight_of_rightPower_le {op : InfixOp} (h : op.rightPower ≤ 10 * level) : op.takesRight level := by
  rw [takesRight_iff]
  rcases rightPower_cases op with ⟨hassoc, hpower⟩ | ⟨-, hpower⟩
  · rcases Nat.lt_or_eq_of_le (show op.level ≤ level by omega) with h | h
    · exact .inl h
    · exact .inr ⟨hassoc, h⟩
  · left
    omega

/-- A round keeps the invariant: the operator takes the tree so far as its left operand, since that
ended before it, and a right operand of the power it leaves. -/
lemma Grown.round (hg : g.Levelled) (h : ∀ t, lhs.opTree? = some t → Grown least s t unchained s₁)
    (hround : operatorRound g least start (lhs, unchained) s₁ = (.ok (.inl (e, unchained')), s₂)) : ∀ t,
    e.opTree? = some t → Grown least s t unchained' s₂ := by
  intro t ht
  rcases operatorRound_ok hround with ⟨hnext, -⟩ | ⟨e', hnext, hnone⟩ |
    ⟨op, rhs, s₃, e', hop, hleast, hchain, hrhs, hkind, hnext, rfl⟩
  · cases hnext
  · cases hnext
    rw [hnone] at ht
    cases ht
  · cases hnext
    obtain ⟨symbol, hsymbol, hlisted⟩ := symbol_of_infixOp? hop
    rw [hsymbol] at hop
    obtain ⟨id, kind, span⟩ := e
    subst hkind
    obtain ⟨l, r, hl, hr, rfl⟩ := opTree?_operator hop ht
    have hgrown := h l hl
    have habove := hg op.rightPower (rightPower_le_unaryPower hop) _ _ _ _ hrhs hr
    have hleft : op.takesLeft l.level :=
      takesLeft_of_lt_edge hop hgrown.wellLevelled (hgrown.closed op (by rw [hsymbol]; exact hop))
        (by rw [← hgrown.unchained]; exact hchain)
    have hright : op.takesRight r.level := takesRight_of_rightPower_le habove.level
    have hpassed := passes_fixed hsymbol rfl nofun
    constructor
    · exact OpTree.wellLevelled_infixed.2 ⟨op, hop, hleft, hright, hgrown.wellLevelled, habove.wellLevelled⟩
    · rw [OpTree.level_infixed hop, Nat.mul_comm]
      exact hleast
    · simp [OpTree.unchained, hop]
    · rw [show (OpTree.infixed symbol l r).edge = op.rightPower by simp [OpTree.edge, hop]]
      exact habove.closed
    · exact hgrown.words.trans (hpassed.trans habove.words)

lemma above_exprAbove (hg : g.Levelled) (hleast : least ≤ unaryPower)
    (h : exprAbove g least s = (.ok e, s')) (ht : e.opTree? = some t) : Above least s t s' := by
  unfold exprAbove at h
  rw [bind_run (here_run s)] at h
  obtain ⟨e₀, s₀, hoperand, h⟩ := bind_ok h
  obtain ⟨⟨lhs, unchained⟩, s₁, hgrown, hlast⟩ :=
    iterate_ok (fun (state : Expr × Option Nat) s₁ => ∀ t, state.1.opTree? = some t → Grown least s t state.2 s₁)
      (fun _ _ _ _ hgrown hround => Grown.round hg hgrown hround)
      (fun t ht => (operand_unaryExpr hg hoperand ht).grown hleast) h
  rcases operatorRound_ok hlast with ⟨hnext, rfl, hclosed⟩ | ⟨_, hnext, -⟩ | ⟨_, _, _, _, -, -, -, -, -, hnext, -⟩
  · cases hnext
    have hgrown := hgrown t ht
    exact ⟨hgrown.wellLevelled, hgrown.level, hclosed, hgrown.words⟩
  · cases hnext
  · cases hnext

lemma productions_levelled : (productions n).Levelled := by
  induction n with
  | zero =>
    intro least _ s e s' t h
    cases h
  | succ n ih =>
    intro least hleast s e s' t h ht
    obtain ⟨s₁, hrun, rfl⟩ := nested_ok h
    have habove := above_exprAbove ih hleast hrun ht
    exact ⟨habove.wellLevelled, habove.level, habove.closed, habove.words⟩

/-! ## Whole texts -/

lemma wholeExpr_ok (h : wholeExpr g s = (.ok e, s')) :
    ∃ s₁, g.expr s = (.ok e, s₁) ∧ (s₁.kind = .eof ∨ s₁.kind = .error ∨ s'.diagnostics ≠ #[]) := by
  obtain ⟨e₁, s₁, hexpr, h⟩ := bind_ok h
  rw [bind_run (isAt_run _ s₁)] at h
  by_cases heof : s₁.kind = .eof
  · rw [if_neg (by simp [heof])] at h
    obtain ⟨rfl, rfl⟩ := pure_ok h
    exact ⟨s₁, hexpr, .inl heof⟩
  · rw [if_pos (by simp [heof])] at h
    obtain ⟨_, s₂, hreport, h⟩ := bind_ok h
    obtain ⟨rfl, rfl⟩ := pure_ok h
    refine ⟨s₁, hexpr, .inr ?_⟩
    by_cases herror : s₁.kind = .error
    · exact .inl herror
    · right
      unfold reportExpected at hreport
      rw [bind_run (get_run s₁), if_neg (by simpa [State.kind] using herror)] at hreport
      cases hreport
      simp

lemma eof_not_mem_wordsOf : .fixed .eof ∉ wordsOf file source := by
  intro hmem
  obtain ⟨t, ht, hword⟩ := mem_map.1 hmem
  have hkind := (mem_filter.1 ht).2
  rw [kind_of_word hword] at hkind
  cases hkind

lemma error_not_mem_wordsOf (h : (lex file source).diagnostics = #[]) : .fixed .error ∉ wordsOf file source := by
  intro hmem
  obtain ⟨t, ht, hword⟩ := mem_map.1 hmem
  have hsound := (Lexical.lex_tiles file source).sound.resolve_left (by simp [h, hasErrors]) t (mem_filter.1 ht).1
  simp [Token.isSound, kind_of_word hword] at hsound

lemma append_end_inj (h : a ++ [w] = b ++ w :: c) (hw : w ∉ a) : a = b := by
  rcases append_eq_append_iff.1 h with ⟨d, rfl, hd⟩ | ⟨d, rfl, hd⟩
  · cases d with
    | nil => rw [append_nil]
    | cons v d => simp at hd
  · cases d with
    | nil => rw [append_nil]
    | cons v d =>
      rw [cons_append, List.cons.injEq] at hd
      exact absurd (by simp [hd.1]) hw

lemma parseExpr_levelled (h : parseExpr file source maxDepth = (some e, [])) (ht : e.opTree? = some t) :
    t.wellLevelled ∧ (symbolWord .colonColon ∉ wordsOf file source → wordsOf file source = t.words) := by
  obtain ⟨hwords, -⟩ := startState_lex file source maxDepth
  generalize hstart : startState (lex file source).tokens.toList maxDepth = start at hwords
  match hrun : wholeExpr (productions (recursionBound start)) start with
  | (.error stop, s') =>
    rw [parseExpr_eq (by rw [hstart]; exact hrun)] at h
    cases h
  | (.ok e', s') =>
    rw [parseExpr_eq (by rw [hstart]; exact hrun)] at h
    obtain ⟨he, hdiags⟩ := Prod.mk.inj h
    cases he
    obtain ⟨hlexed, hparsed⟩ := append_eq_nil_iff.1 hdiags
    obtain ⟨s₁, hexpr, hend⟩ := wholeExpr_ok hrun
    have habove := productions_levelled 0 (Nat.zero_le _) _ _ _ _ hexpr ht
    refine ⟨habove.wellLevelled, fun hpath => ?_⟩
    have hended : start.Ended := by
      unfold State.Ended
      rw [hwords]
      simp
    have hpassed : wordsOf file source ++ [.fixed .eof] = t.words ++ s₁.words := by
      rw [← hwords]
      refine habove.words hended ?_
      rw [hwords]
      simpa [symbolWord] using hpath
    rw [State.words, map_cons] at hpassed
    rcases hend with heof | herror | hreported
    · rw [word_of_kind heof rfl] at hpassed
      exact append_end_inj hpassed eof_not_mem_wordsOf
    · have hmem : .fixed .error ∈ wordsOf file source ++ [.fixed .eof] := by
        rw [hpassed, word_of_kind herror rfl]
        simp
      exact absurd (by simpa using hmem) (error_not_mem_wordsOf (Array.toList_eq_nil_iff.1 hlexed))
    · exact absurd (Array.toList_eq_nil_iff.1 hparsed) hreported

/-! ## The table is followed -/

lemma colonColon_not_mem_words (h : t.wellLevelled) : symbolWord .colonColon ∉ t.words := by
  induction t with
  | name text | int value => simp [OpTree.words, symbolWord]
  | paren inner ih => simpa [OpTree.words, symbolWord] using ih h
  | prefixed op operand ih =>
    simp only [OpTree.wellLevelled, Bool.and_eq_true] at h
    intro hmem
    rcases mem_append.1 hmem with hmem | hmem
    · revert hmem
      cases op <;> decide
    · exact ih h.2 hmem
  | infixed symbol lhs rhs ihl ihr =>
    obtain ⟨op, hop, -, -, hlhs, hrhs⟩ := OpTree.wellLevelled_infixed.1 h
    intro hmem
    rcases mem_append.1 hmem with hmem | hmem
    · exact ihl hlhs hmem
    · rcases mem_cons.1 hmem with hmem | hmem
      · cases hmem
        cases hop
      · exact ihr hrhs hmem

/-- The expression parser follows the table of operators. The text of a well levelled tree is
parsed to that tree. What is accepted and is an operator tree is well levelled, and its words are
the words of the text exactly if the text has no `::`. Operators of the levels 2, 5 and 6 cannot be
chained, neither at the start of a text nor wherever else an expression is read that may have them. -/
theorem parseExpr_levels (file : FileId) :
    (∀ (t : OpTree) (maxDepth : Nat), t.wellLevelled = true → t.isWritable = true →
      t.words.length ≤ maxDepth → ∃ e, parseExpr file (spaced t.words) maxDepth = (some e, []) ∧ e.opTree? = some t) ∧
    (∀ (source : String) (maxDepth : Nat) (e : Expr) (t : OpTree),
      parseExpr file source maxDepth = (some e, []) → e.opTree? = some t →
        t.wellLevelled = true ∧ (wordsOf file source = t.words ↔ symbolWord .colonColon ∉ wordsOf file source)) ∧
    (∀ (t : OpTree) (symbol : Symbol) (op : InfixOp),
      infixOp? (.symbol symbol) = some op → op.level ∈ [2, 5, 6] → t.level = op.level →
      t.wellLevelled = true → t.isWritable = true →
        (∀ (more : List Word) (maxDepth : Nat), (∀ w ∈ more, w.isPlain = true) → t.words.length ≤ maxDepth →
          ∃ span, parseExpr file (spaced (t.words ++ symbolWord symbol :: more)) maxDepth
            = (none, [chainReport op span])) ∧
        ∀ (n least : Nat) (s : State) (more : List Word), least ≤ op.leftPower →
          s.words = t.words ++ symbolWord symbol :: more → t.words.length ≤ n + 1 →
          s.depth + t.words.length ≤ s.maxDepth →
            ∃ s' span, (productions (n + 1)).exprAbove least s = (.error .refused, s') ∧
              s'.diagnostics = s.diagnostics.push (chainReport op span)) := by
  refine ⟨fun t maxDepth => parseExpr_spaced, fun source maxDepth e t h ht => ?_,
    fun t symbol op hop hlevel hsame hlevels hwritable => ⟨fun more maxDepth => parseExpr_chain hop hlevel hsame hlevels
      hwritable, fun n least s more => exprAbove_chain hop hlevel hsame hlevels hwritable⟩⟩
  obtain ⟨hlevels, hwords⟩ := parseExpr_levelled h ht
  refine ⟨hlevels, fun heq => ?_, hwords⟩
  rw [heq]
  exact colonColon_not_mem_words hlevels

/-- A sum in a comparison, a sum without spaces, and a chain. -/
theorem parseExpr_levels_sums :
    let sum := OpTree.infixed .plus (.name "a") (.prefixed .neg (.int 1))
    (∃ e, parseExpr ⟨0⟩ "a + - 1 == ( b )" 8 = (some e, []) ∧
      e.opTree? = some (.infixed .eqEq sum (.paren (.name "b")))) ∧
    (∃ e, parseExpr ⟨0⟩ "a+-1" 4 = (some e, []) ∧ e.opTree? = some sum ∧ sum.wellLevelled = true ∧
      wordsOf ⟨0⟩ "a+-1" = sum.words) ∧
    ∃ span, parseExpr ⟨0⟩ "a < b < c" 3 = (none, [chainReport ⟨.binary .lt, 6, .none⟩ span]) := by
  intro sum
  obtain ⟨hread, haccept, hchain⟩ := parseExpr_levels ⟨0⟩
  have hspaced : spaced (OpTree.infixed .eqEq sum (.paren (.name "b"))).words = "a + - 1 == ( b )" := by decide +kernel
  have hspaced' : spaced ((OpTree.infixed .lt (.name "a") (.name "b")).words ++ symbolWord .lt :: [.name "c"])
      = "a < b < c" := by
    decide +kernel
  refine ⟨?_, ?_, ?_⟩
  · rw [← hspaced]
    exact hread _ 8 (by decide) (by decide) (by decide)
  · have htree : (parseExpr ⟨0⟩ "a+-1" 4).1.bind Expr.opTree? = some sum := by decide +kernel
    have hdiags : (parseExpr ⟨0⟩ "a+-1" 4).2 = [] := by decide +kernel
    obtain ⟨e, he, ht⟩ := Option.bind_eq_some_iff.1 htree
    have hparse : parseExpr ⟨0⟩ "a+-1" 4 = (some e, []) := Prod.ext he hdiags
    obtain ⟨hlevels, hwords⟩ := haccept _ 4 e sum hparse ht
    exact ⟨e, hparse, ht, hlevels, hwords.2 (by decide +kernel)⟩
  · rw [← hspaced']
    exact (hchain _ .lt _ rfl (by decide) rfl (by decide) (by decide)).1 _ 3 (by decide) (by decide)

/-- An empty list of generic arguments leaves no trace in the tree. -/
theorem empty_arguments_leave_no_trace :
    (parseExpr ⟨0⟩ "a::<>" 1).1.bind Expr.opTree? = some (.name "a") ∧ (parseExpr ⟨0⟩ "a::<>" 1).2 = [] ∧
      wordsOf ⟨0⟩ "a::<>" ≠ (OpTree.name "a").words := by
  decide +kernel

end Kite.Grammar
