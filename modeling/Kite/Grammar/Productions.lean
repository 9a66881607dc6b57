/-
The productions that refer to each other recursively. The rules for types, patterns, expressions
and statements are written against such a table and use it wherever the grammar recurs, so each
rule is an ordinary function; `Grammar.Unit` ties the knot with a bound on the depth of recursion.
-/
import Kite.Grammar.Cursor

namespace Kite.Grammar

/-- What a block may hold at one place: a statement, or an expression right before its end. -/
inductive StmtOrTail where
  | stmt (stmt : Stmt)
  | tail (expr : Expr)

structure Productions where
  type : Parse TypeExpr
  pattern : Parse Pattern
  exprAbove : Nat → Parse Expr
  block : Parse Block
  conditional : Parse ExprKind
  comptimeIf : Parse StmtKind
  stmt : TokenKind → Parse StmtOrTail

def Productions.expr (g : Productions) : Parse Expr := g.exprAbove 0

/-- The table that is used when the bound on the recursion is reached. -/
def Productions.exhausted : Productions where
  type := throw .exhausted
  pattern := throw .exhausted
  exprAbove _ := throw .exhausted
  block := throw .exhausted
  conditional := throw .exhausted
  comptimeIf := throw .exhausted
  stmt _ := throw .exhausted

def exprStmt (id : NodeId) (expr : Expr) (semi : Bool) : Stmt := ⟨id, .expr expr semi, expr.span⟩

def literalKinds : List TokenKind := [.intLiteral, .floatLiteral, .stringLiteral, .charLiteral]

end Kite.Grammar
