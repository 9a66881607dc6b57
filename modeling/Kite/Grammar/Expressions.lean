/-
Expressions: primaries, postfix chains, prefix operators, and infix operators by precedence.
In an expression `<` is always the operator; generic arguments are written `path::<T>`.
-/
import Kite.Grammar.Patterns
import Kite.Grammar.Precedence
import Kite.Grammar.Recovery
import Kite.Grammar.Types

namespace Kite.Grammar

variable (g : Productions)

/-! ## Primaries -/

def withArgs (segments : Array PathSegment) (args : List TypeExpr) : Array PathSegment :=
  segments.modify (segments.size - 1) fun segment => { segment with args }

/-- One segment more of a path, or generic arguments for its last segment, if they follow. -/
def pathRound (segments : Array PathSegment) : Parse (Array PathSegment ⊕ List PathSegment) := do
  if !(← isAt (.symbol .colonColon)) then return .inr segments.toList
  let following ← nextKind
  let _ ← bump
  match following with
  | .symbol .lt => return .inl (withArgs segments (← genericArgs g))
  | .ident => return .inl (segments.push ⟨← ident "an identifier", []⟩)
  | _ => refuseExpected "an identifier or `<` after `::`"

def pathExpr : Parse ExprKind := do
  let start ← here
  let first ← ident "an identifier"
  let segments ← repeatFrom #[⟨first, []⟩] (pathRound g)
  return .path segments (← spanFrom start)

/-- `(a)`, `()`, or a tuple. -/
def parenthesised : Parse ExprKind := do
  let _ ← bump
  if ← eat (.symbol .rparen) then return .tuple []
  let first ← g.expr
  if ← eat (.symbol .comma) then
    let rest ← itemsBefore .rparen g.expr
    expectText (.symbol .rparen)
    return .tuple (first :: rest)
  expectText (.symbol .rparen)
  return .paren first

/-- `[a, b]` or `[value; count]`. -/
def bracketed : Parse ExprKind := do
  let _ ← bump
  if ← eat (.symbol .rbracket) then return .vector []
  let first ← g.expr
  if ← eat (.symbol .semi) then
    let count ← g.expr
    expectText (.symbol .rbracket)
    return .fill first count
  let rest ← if ← eat (.symbol .comma) then itemsBefore .rbracket g.expr else pure []
  let _ ← expect (.symbol .rbracket) "`]` or `,`"
  return .vector (first :: rest)

/-- `if c { .. } else ..`, where the alternative is a block or another conditional. -/
def conditional (g : Productions) : Parse ExprKind := do
  expectText (.keyword .kwIf)
  let cond ← g.expr
  let thenBlock ← g.block
  if ← eat (.keyword .kwElse) then
    let start ← here
    let kind ←
      if ← isAt (.keyword .kwIf) then g.conditional
      else pure (.block (← g.block))
    return .cond cond thenBlock (some ⟨← freshId, kind, ← spanFrom start⟩)
  return .cond cond thenBlock none

def alternativeRound (patterns : Array Pattern) : Parse (Array Pattern ⊕ List Pattern) := do
  if ← eat (.symbol .pipe) then return .inl (patterns.push (← g.pattern))
  return .inr patterns.toList

def matchArm : Parse MatchArm := do
  let start ← here
  let first ← g.pattern
  let patterns ← repeatFrom #[first] (alternativeRound g)
  expectText (.symbol .fatArrow)
  let body ← g.expr
  if !(← eat (.symbol .comma)) && !(← isAt (.symbol .rbrace)) && !body.kind.isBlockLike then
    refuseExpected "`,` or `\x7d`"
  return { id := ← freshId, patterns, body, span := ← spanFrom start }

/-- One arm more of a match, unless the match ends here. A broken arm is skipped. -/
def armRound (arms : Array MatchArm) : Parse (Array MatchArm ⊕ List MatchArm) := do
  match ← kind with
  | .symbol .rbrace => return .inr arms.toList
  | .eof => refuseExpected "`\x7d`"
  | _ =>
    recovering (do return .inl (arms.push (← matchArm g))) do
      syncArm
      return .inl arms

def matchExpr : Parse ExprKind := do
  expectText (.keyword .kwMatch)
  let scrutinee ← g.expr
  expectText (.symbol .lbrace)
  let arms ← repeatFrom #[] (armRound g)
  expectText (.symbol .rbrace)
  return .matchWith scrutinee arms

/-- Tokens after which `return` has no value. -/
def endsReturn (kind : TokenKind) : Bool :=
  [.symbol .semi, .symbol .rbrace, .symbol .comma, .symbol .rparen, .eof].contains kind

def primaryKind : Parse ExprKind := do
  match ← kind with
  | .intLiteral | .floatLiteral | .stringLiteral | .charLiteral => literalExpr
  | .keyword .kwTrue =>
    let _ ← bump
    return .literal (.bool true)
  | .keyword .kwFalse =>
    let _ ← bump
    return .literal (.bool false)
  | .keyword .kwNone =>
    let _ ← bump
    return .none
  | .keyword .kwSome =>
    let _ ← bump
    expectText (.symbol .lparen)
    let inner ← g.expr
    expectText (.symbol .rparen)
    return .some inner
  | .keyword .kwThis =>
    let _ ← bump
    return .this
  | .ident => pathExpr g
  | .symbol .lparen => parenthesised g
  | .symbol .lbracket => bracketed g
  | .keyword .kwIf => conditional g
  | .keyword .kwMatch => matchExpr g
  | .symbol .lbrace => return .block (← g.block)
  | .keyword .kwUnchecked =>
    let _ ← bump
    return .unchecked (← g.block)
  | .keyword .kwReturn =>
    let _ ← bump
    if endsReturn (← kind) then return .ret none
    return .ret (some (← g.expr))
  | .keyword .kwBreak =>
    let _ ← bump
    return .brk
  | .keyword .kwContinue =>
    let _ ← bump
    return .cont
  | _ => refuseExpected "an expression"

def primary : Parse Expr := do
  let start ← here
  let kind ← primaryKind g
  return ⟨← freshId, kind, ← spanFrom start⟩

/-! ## Postfix chains -/

def argument : Parse Arg := do
  if (← isAt .ident) && (← nextKind) == .symbol .colon then
    let label ← ident "a label"
    let _ ← bump
    return { label := some label, value := ← g.expr }
  return { label := none, value := ← g.expr }

def arguments : Parse (List Arg) := do
  expectText (.symbol .lparen)
  let args ← itemsBefore .rparen (argument g)
  let _ ← expect (.symbol .rparen) "`)` or `,`"
  return args

def maxTupleIndex : Nat := pow2 32 - 1

/-- What follows a dot: a field, a method call or a tuple index. -/
def member (base : Expr) : Parse ExprKind := do
  match ← kind with
  | .ident =>
    let name ← ident "a field or method name"
    let generics ←
      if (← isAt (.symbol .colonColon)) && (← nextKind) == .symbol .lt then
        let _ ← bump
        genericArgs g
      else pure []
    if ← isAt (.symbol .lparen) then
      return .methodCall base name generics (← arguments g)
    if !generics.isEmpty then refuseExpected "`(` after generic arguments"
    return .field base name
  | .intLiteral =>
    let token ← bump
    match token.value with
    | some (.int value none) =>
      if value ≤ maxTupleIndex then return .tupleIndex base value token.span
      badIndex token
    | _ => badIndex token
  | _ => refuseExpected "a field name, method name or tuple index"
where
  badIndex (token : Token) : Parse ExprKind := do
    report "E0100" token.span "invalid tuple index"
    refuse

def postfixKind? (base : Expr) : Parse (Option ExprKind) := do
  match ← kind with
  | .symbol .lparen => return some (.call base (← arguments g))
  | .symbol .lbracket =>
    let _ ← bump
    let index ← g.expr
    expectText (.symbol .rbracket)
    return some (.index base index)
  | .symbol .bang =>
    let _ ← bump
    return some (.unwrap base)
  | .symbol .dot =>
    let _ ← bump
    return some (← member g base)
  | _ => return none

def postfixRound (start : Span) (expr : Expr) : Parse (Expr ⊕ Expr) := do
  match ← postfixKind? g expr with
  | none => return .inr expr
  | some kind => return .inl ⟨← freshId, kind, ← spanFrom start⟩

def postfixExpr : Parse Expr := do
  let start ← here
  repeatFrom (← primary g) (postfixRound g start)

/-! ## Operators -/

def unaryOp? (first second : TokenKind) : Option UnaryOp :=
  match first with
  | .symbol .minus => some .neg
  | .symbol .bang => some .not
  | .symbol .tilde => some .bitNot
  | .symbol .star => some .deref
  | .symbol .amp => some (if second == .keyword .kwMut then .mutView else .view)
  | _ => none

def unaryExpr : Parse Expr := do
  let start ← here
  match unaryOp? (← kind) (← nextKind) with
  | none => postfixExpr g
  | some op =>
    let _ ← bump
    if op == .mutView then
      let _ ← bump
    let operand ← g.exprAbove unaryPower
    return ⟨← freshId, .unary op operand, ← spanFrom start⟩

def chainName (level : Nat) : String := if level == 2 then "range" else "comparison"

/-- One operator of at least the power `least` behind an expression that began at `start`, if there
is one here. The state is the expression so far and the level of the operator that built it, when
that cannot be chained. -/
def operatorRound (least : Nat) (start : Span) :
    Expr × Option Nat → Parse ((Expr × Option Nat) ⊕ Expr)
  | (lhs, unchained) => do
    let token ← kind
    if token == .keyword .kwAs then
      if castPower < least then return .inr lhs
      let _ ← bump
      let type ← g.type
      return .inl (⟨← freshId, .cast lhs type, ← spanFrom start⟩, none)
    match infixOp? token with
    | none => return .inr lhs
    | some op =>
      if op.leftPower < least then return .inr lhs
      if op.assoc == .none && unchained == some op.level then
        report "E0103" (← here)
          s!"{chainName op.level} operators cannot be chained; use parentheses"
        refuse
      let _ ← bump
      let rhs ← g.exprAbove op.rightPower
      let unchained := if op.assoc == .none then some op.level else none
      return .inl (⟨← freshId, op.kind.build lhs rhs, ← spanFrom start⟩, unchained)

def exprAbove (least : Nat) : Parse Expr := do
  let start ← here
  repeatFrom (← unaryExpr g, (none : Option Nat)) (operatorRound g least start)

end Kite.Grammar
