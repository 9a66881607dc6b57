/-
Statements and blocks.
-/
import Kite.Grammar.Expressions

namespace Kite.Grammar

variable (g : Productions)

def assertion : Parse (Expr × Option Expr) := do
  expectText (.keyword .kwAssert)
  expectText (.symbol .lparen)
  let condition ← g.expr
  let message ←
    if ← eat (.symbol .comma) then
      if ← isAt (.symbol .rparen) then pure none else pure (some (← g.expr))
    else pure none
  expectText (.symbol .rparen)
  return (condition, message)

def comptimeIf (g : Productions) : Parse StmtKind := do
  expectText (.keyword .kwIf)
  let cond ← g.expr
  let thenBlock ← g.block
  if ← eat (.keyword .kwElse) then
    let start ← here
    let kind ←
      if ← isAt (.keyword .kwIf) then g.comptimeIf
      else
        let block ← g.block
        pure (.expr ⟨← freshId, .block block, block.span⟩ false)
    return .comptimeIf cond thenBlock (some ⟨← freshId, kind, ← spanFrom start⟩)
  return .comptimeIf cond thenBlock none

def letStmt : Parse StmtKind := do
  let _ ← bump
  let isMut ← eat (.keyword .kwMut)
  let name ← ident "a binding name"
  let type ← if ← eat (.symbol .colon) then pure (some (← g.type)) else pure none
  expectText (.symbol .eq)
  let init ← g.expr
  expectText (.symbol .semi)
  return .letDecl name isMut type init

def forStmt : Parse StmtKind := do
  let _ ← bump
  let binding ← ident "a loop variable"
  expectText (.keyword .kwIn)
  let iterable ← g.expr
  return .forLoop binding iterable (← g.block)

/-- Keywords and brackets that begin an expression which needs no `;` as a statement. -/
def startsBlockLike (kind : TokenKind) : Bool :=
  [.keyword .kwIf, .keyword .kwMatch, .symbol .lbrace, .keyword .kwUnchecked].contains kind

/-- A statement of a list that ends at `closer`, or the expression at its end. -/
def stmt (g : Productions) (closer : TokenKind) : Parse StmtOrTail := do
  let start ← here
  let finish (kind : StmtKind) : Parse StmtOrTail := do
    return .stmt ⟨← freshId, kind, ← spanFrom start⟩
  let token ← kind
  match token, ← nextKind with
  | .keyword .kwLet, _ => finish (← letStmt g)
  | .keyword .kwWhile, _ =>
    let _ ← bump
    let cond ← g.expr
    finish (.whileLoop cond (← g.block))
  | .keyword .kwLoop, _ =>
    let _ ← bump
    finish (.loop (← g.block))
  | .keyword .kwFor, _ => finish (← forStmt g)
  | .keyword .kwDefer, _ =>
    let _ ← bump
    match ← g.stmt closer with
    | .stmt inner => finish (.defer inner)
    | .tail expr => finish (.defer (exprStmt (← freshId) expr false))
  | .keyword .kwComptime, .keyword .kwIf =>
    let _ ← bump
    finish (← comptimeIf g)
  | .keyword .kwComptime, .keyword .kwAssert =>
    let _ ← bump
    let (condition, message) ← assertion g
    expectText (.symbol .semi)
    finish (.assert condition message)
  | _, _ =>
    if startsItem token then
      report "E0104" start "declarations are only allowed at the top level"
      refuse
    let blockLike := startsBlockLike token
    let expr ← if blockLike then primary g else g.expr
    if ← eat (.symbol .semi) then finish (.expr expr true)
    else if ← isAt closer then return .tail expr
    else if blockLike then finish (.expr expr false)
    else refuseExpected "`;`"

/-- One statement more of a block, unless the block ends here. A broken statement is skipped. The
state is the statements so far and the expression at their end. -/
def blockRound :
    Array Stmt × Option Expr → Parse ((Array Stmt × Option Expr) ⊕ (List Stmt × Option Expr))
  | (stmts, tail) => do
    match ← kind with
    | .symbol .rbrace => return .inr (stmts.toList, tail)
    | .eof => refuseExpected "`\x7d`"
    | .symbol .semi =>
      let _ ← bump
      return .inl (stmts, tail)
    | _ =>
      recovering
        (do
          match ← stmt g (.symbol .rbrace) with
          | .stmt stmt => return .inl (stmts.push stmt, none)
          | .tail expr => return .inl (stmts, some expr))
        do
          syncStmt
          return .inl (stmts, none)

def block : Parse Block := do
  let start ← here
  expectText (.symbol .lbrace)
  let id ← freshId
  let (stmts, tail) ← repeatFrom (#[], none) (blockRound g)
  expectText (.symbol .rbrace)
  return { id, stmts, tail, span := ← spanFrom start }

end Kite.Grammar
