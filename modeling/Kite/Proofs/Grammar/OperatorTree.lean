/-
Trees of operators: names, integers, parentheses, prefix and infix operators, without the
identities and spans of the nodes. A tree is well levelled when its operands bind as tightly as the
table of operators asks, so that its words, read left to right without further parentheses, are
meant to stand for it. An expression that is made of such nodes only has its operator tree.
-/
import Kite.Grammar.Unit
import Kite.Proofs.Token.Words

namespace Kite.Grammar

deriving instance DecidableEq for InfixKind

inductive OpTree where
  | name (text : String)
  | int (value : Nat)
  | paren (inner : OpTree)
  | prefixed (op : UnaryOp) (operand : OpTree)
  | infixed (symbol : Symbol) (lhs rhs : OpTree)
  deriving DecidableEq

def InfixOp.takesLeft (op : InfixOp) (level : Nat) : Bool :=
  op.level < level || (op.assoc == .left && op.level == level)

def InfixOp.takesRight (op : InfixOp) (level : Nat) : Bool :=
  op.level < level || (op.assoc == .right && op.level == level)

def symbolWord (s : Symbol) : Word := .fixed (.symbol s)

def prefixWords : UnaryOp → List Word
  | .neg => [symbolWord .minus]
  | .not => [symbolWord .bang]
  | .bitNot => [symbolWord .tilde]
  | .view => [symbolWord .amp]
  | .mutView => [symbolWord .amp, .fixed (.keyword .kwMut)]
  | .deref => [symbolWord .star]

namespace OpTree

/-- How tightly the outermost node binds. Nothing binds tighter than atoms and parentheses. -/
def level : OpTree → Nat
  | .name _ | .int _ | .paren _ => 15
  | .prefixed .. => 14
  | .infixed s .. => ((infixOp? (.symbol s)).map InfixOp.level).getD 0

def wellLevelled : OpTree → Bool
  | .name _ | .int _ => true
  | .paren inner => inner.wellLevelled
  | .prefixed _ operand => 14 ≤ operand.level && operand.wellLevelled
  | .infixed s lhs rhs =>
    match infixOp? (.symbol s) with
    | some op => op.takesLeft lhs.level && op.takesRight rhs.level && lhs.wellLevelled && rhs.wellLevelled
    | none => false

/-- Whether the leaves are names and integers that can be written. -/
def isWritable : OpTree → Bool
  | .name text => isName text
  | .int value => value < pow2 64
  | .paren inner => inner.isWritable
  | .prefixed _ operand => operand.isWritable
  | .infixed _ lhs rhs => lhs.isWritable && rhs.isWritable

def words : OpTree → List Word
  | .name text => [.name text]
  | .int value => [.literal (some (.int value none))]
  | .paren inner => symbolWord .lparen :: (inner.words ++ [symbolWord .rparen])
  | .prefixed op operand => prefixWords op ++ operand.words
  | .infixed s lhs rhs => lhs.words ++ symbolWord s :: rhs.words

end OpTree

def InfixKind.symbol? (kind : InfixKind) : Option Symbol :=
  (symbolTable.map Prod.snd).find? fun s => (infixOp? (.symbol s)).map InfixOp.kind == some kind

def InfixKind.tree? (kind : InfixKind) (lhs rhs : Option OpTree) : Option OpTree := do
  return .infixed (← kind.symbol?) (← lhs) (← rhs)

end Kite.Grammar

namespace Kite

open Grammar

mutual

/-- The operator tree of an expression that is made of operators, parentheses, names and
integers without suffix only. -/
def Expr.opTree? : Expr → Option OpTree
  | ⟨_, kind, _⟩ => kind.opTree?

def ExprKind.opTree? : ExprKind → Option OpTree
  | .literal (.int value none) => some (.int value)
  | .path [⟨ident, []⟩] _ => some (.name ident.name)
  | .paren inner => inner.opTree?.map .paren
  | .unary op operand => operand.opTree?.map (.prefixed op)
  | .binary op lhs rhs => (InfixKind.binary op).tree? lhs.opTree? rhs.opTree?
  | .assign op target value => (InfixKind.assign op).tree? target.opTree? value.opTree?
  | .range start stop inclusive => (InfixKind.range inclusive).tree? start.opTree? stop.opTree?
  | _ => none

end

end Kite

namespace Kite.Grammar

open Option

variable {lhs rhs : Expr} {op : InfixOp} {t : OpTree} {span : Span} {s : Symbol} {k : TokenKind}

/-! ## The table -/

def assocAt (level : Nat) : Assoc := if level == 1 then .right else if [2, 5, 6].contains level then .none else .left

/-- What holds of every line of the table: an operator has one symbol, the levels are 1 to 12, and
the operators of a level associate alike. -/
structure InfixOp.Listed (op : InfixOp) (s : Symbol) : Prop where
  symbol : op.kind.symbol? = some s
  one_le : 1 ≤ op.level
  le_twelve : op.level ≤ 12
  assoc : op.assoc = assocAt op.level

lemma infixOp?_listed (h : infixOp? (.symbol s) = some op) : op.Listed s := by
  cases s <;> simp only [infixOp?, infixOp?.assign, infixOp?.left, infixOp?.unchained] at h <;> cases h
  all_goals exact ⟨by decide, by decide, by decide, by decide⟩

lemma symbol_of_infixOp? (h : infixOp? k = some op) : ∃ s, k = .symbol s ∧ op.Listed s := by
  cases k with
  | symbol s => exact ⟨s, rfl, infixOp?_listed h⟩
  | _ => cases h

lemma leftPower_le (h : infixOp? k = some op) : op.leftPower ≤ 120 := by
  obtain ⟨s, -, hop⟩ := symbol_of_infixOp? h
  have := hop.le_twelve
  unfold InfixOp.leftPower
  omega

lemma leftPower_le_rightPower (op : InfixOp) : op.leftPower ≤ op.rightPower := by
  unfold InfixOp.rightPower
  split <;> omega

lemma opTree?_build {kind : InfixKind} : (kind.build lhs rhs).opTree? = kind.tree? lhs.opTree? rhs.opTree? := by
  cases kind <;> rfl

lemma opTree?_mk {id : NodeId} {kind : ExprKind} : (⟨id, kind, span⟩ : Expr).opTree? = kind.opTree? := rfl

lemma opTree?_literal (h : (ExprKind.literal value).opTree? = some t) : ∃ n, value = .int n none ∧ t = .int n := by
  cases value with
  | int n suffix =>
    cases suffix with
    | none => exact ⟨n, rfl, (Option.some.inj h).symm⟩
    | some suffix => cases h
  | _ => cases h

lemma opTree?_path {segments : List PathSegment} (h : (ExprKind.path segments span).opTree? = some t) :
    ∃ ident, segments = [⟨ident, []⟩] ∧ t = .name ident.name := by
  match segments with
  | [⟨ident, []⟩] => exact ⟨ident, rfl, (Option.some.inj h).symm⟩
  | [] | ⟨_, _ :: _⟩ :: _ | ⟨_, []⟩ :: _ :: _ => cases h

lemma opTree?_paren {inner : Expr} (h : (ExprKind.paren inner).opTree? = some t) :
    ∃ t', inner.opTree? = some t' ∧ t = .paren t' := by
  obtain ⟨t', ht', rfl⟩ := map_eq_some_iff.1 h
  exact ⟨t', ht', rfl⟩

lemma opTree?_unary {op : UnaryOp} (h : (ExprKind.unary op operand).opTree? = some t) :
    ∃ t', operand.opTree? = some t' ∧ t = .prefixed op t' := by
  obtain ⟨t', ht', rfl⟩ := map_eq_some_iff.1 h
  exact ⟨t', ht', rfl⟩

lemma opTree?_operator (hop : infixOp? (.symbol s) = some op) (h : (op.kind.build lhs rhs).opTree? = some t) :
    ∃ l r, lhs.opTree? = some l ∧ rhs.opTree? = some r ∧ t = .infixed s l r := by
  rw [opTree?_build, InfixKind.tree?, (infixOp?_listed hop).symbol] at h
  simp only [bind_eq_bind, bind_some, bind_eq_some_iff] at h
  obtain ⟨l, hl, r, hr, h⟩ := h
  exact ⟨l, r, hl, hr, (Option.some.inj h).symm⟩

/-! ## Words of trees -/

namespace OpTree

lemma level_infixed (h : infixOp? (.symbol s) = some op) (lhs rhs : OpTree) :
    (infixed s lhs rhs).level = op.level := by
  simp [level, h]

lemma wellLevelled_infixed {lhs rhs : OpTree} : (infixed s lhs rhs).wellLevelled ↔ ∃ op,
    infixOp? (.symbol s) = some op ∧ op.takesLeft lhs.level ∧ op.takesRight rhs.level ∧ lhs.wellLevelled ∧
    rhs.wellLevelled := by
  rw [wellLevelled]
  cases infixOp? (.symbol s) with
  | none => simp
  | some op => simp [and_assoc]

/-- The first word of a tree begins an expression. -/
def startsTree : Word → Bool
  | .name _ | .literal _ => true
  | .fixed kind =>
    [.symbol .lparen, .symbol .minus, .symbol .bang, .symbol .tilde, .symbol .amp, .symbol .star].contains kind

lemma words_cons (t : OpTree) : ∃ w ws, t.words = w :: ws ∧ startsTree w := by
  induction t with
  | name text | int value | paren inner => exact ⟨_, _, rfl, rfl⟩
  | prefixed op operand => cases op <;> exact ⟨_, _, rfl, rfl⟩
  | infixed s lhs rhs ihl ihr =>
    obtain ⟨w, ws, hwords, hw⟩ := ihl
    exact ⟨w, ws ++ symbolWord s :: rhs.words, by rw [words, hwords, List.cons_append], hw⟩

lemma prefixWords_isPlain {op : UnaryOp} : ∀ w ∈ prefixWords op, w.isPlain := by cases op <;> decide

lemma words_isPlain (h : t.isWritable) : ∀ w ∈ t.words, w.isPlain := by
  induction t with
  | name text | int value => simpa [words, Word.isPlain, isWritable] using h
  | paren inner ih => simpa [words, symbolWord, or_imp, forall_and, Word.isPlain] using ih h
  | prefixed op operand ih =>
    intro w hw
    rcases List.mem_append.1 hw with hw | hw
    · exact prefixWords_isPlain w hw
    · exact ih h w hw
  | infixed s lhs rhs ihl ihr =>
    obtain ⟨hlhs, hrhs⟩ := Bool.and_eq_true_iff.1 h
    intro w hw
    rcases List.mem_append.1 hw with hw | hw
    · exact ihl hlhs w hw
    · rcases List.mem_cons.1 hw with rfl | hw
      · rfl
      · exact ihr hrhs w hw

end OpTree

end Kite.Grammar
