/-
The grammar as a whole: the recursive productions with their bound, and the three things that can
be parsed: a unit, a fragment and a single expression. A unit is never given up: a broken
declaration is reported and skipped.
-/
import Kite.Grammar.Items
import Kite.Token.Lexer

namespace Kite.Grammar

variable (g : Productions)

/-- The productions with at most `n` uses of each other inside one another. Every field is a
function of the state, so that the smaller tables are made only when they are used. -/
def productions : Nat → Productions
  | 0 => .exhausted
  | n + 1 =>
    { type := fun s => nested (typeExpr (productions n)) s
      pattern := fun s => nested (pattern (productions n)) s
      exprAbove := fun least s => nested (exprAbove (productions n) least) s
      block := fun s => nested (block (productions n)) s
      conditional := fun s => conditional (productions n) s
      comptimeIf := fun s => comptimeIf (productions n) s
      stmt := fun closer s => stmt (productions n) closer s }

/-- A bound on the recursion that is never reached: on the way down from one production to the
next but one, at least one token is passed. -/
def recursionBound (s : State) : Nat := 4 * (s.weight + 1)

def startState (tokens : List Token) (maxDepth : Nat) : State :=
  match tokens.filter (!·.kind.isTrivia) with
  | [] => { current := { kind := .eof, span := {} }, ahead := [], maxDepth }
  | first :: rest => { current := first, ahead := rest, maxDepth }

def itemRound (items : Array Item) : Parse (Array Item ⊕ List Item) := do
  if ← isAt .eof then return .inr items.toList
  recovering (do return .inl (items.push (← item g))) do
    syncItem
    return .inl items

def moduleItems : Parse (List Item) := repeatFrom #[] (itemRound g)

def startsFragmentItem (first second : TokenKind) : Bool :=
  startsItem first &&
    !(first == .keyword .kwComptime && (second == .keyword .kwIf || second == .keyword .kwAssert))

def fragment : Parse Fragment :=
  repeatFrom ((#[] : Array Item), (#[] : Array Stmt), (none : Option Expr))
    fun (items, stmts, tail) => do
      if ← isAt .eof then
        return .inr { items := items.toList, stmts := stmts.toList, tail }
      if startsFragmentItem (← kind) (← nextKind) then
        recovering (do return .inl (items.push (← item g), stmts, tail)) do
          syncItem
          return .inl (items, stmts, tail)
      else if ← eat (.symbol .semi) then return .inl (items, stmts, tail)
      else
        recovering
          (do
            match ← stmt g .eof with
            | .stmt stmt => return .inl (items, stmts.push stmt, tail)
            | .tail expr => return .inl (items, stmts, some expr))
          do
            syncStmt
            return .inl (items, stmts, tail)

def wholeExpr : Parse Expr := do
  let expr ← g.expr
  if !(← isAt .eof) then reportExpected "end of input"
  return expr

structure Outcome (α : Type) where
  result : Option α
  tokens : Array Token
  /-- The reports on tokens, and after them those on the grammar. -/
  diagnostics : List Diagnostic
  extent : Span

def run (file : FileId) (source : String) (maxDepth : Nat) (p : Productions → Parse α) : Outcome α :=
  let lexed := lex file source
  let start := startState lexed.tokens.toList maxDepth
  let (result, stop) := (p (productions (recursionBound start))).run.run start
  { result := result.toOption
    tokens := lexed.tokens
    diagnostics := lexed.diagnostics.toList ++ stop.diagnostics.toList
    extent := start.current.span.through stop.current.span }

end Kite.Grammar

namespace Kite

/-- The greatest nesting that is accepted unless an option says otherwise. -/
def defaultMaxDepth : Nat := 256

structure ParsedUnit where
  file : FileId
  tokens : Array Token
  module : Module
  diagnostics : List Diagnostic

def parseUnit (file : FileId) (source : String) (maxDepth : Nat) : ParsedUnit :=
  let outcome := Grammar.run file source maxDepth Grammar.moduleItems
  { file
    tokens := outcome.tokens
    module := { file, items := outcome.result.getD [], span := outcome.extent }
    diagnostics := outcome.diagnostics }

def parseFragment (file : FileId) (source : String) (maxDepth : Nat) : Fragment × List Diagnostic :=
  let outcome := Grammar.run file source maxDepth Grammar.fragment
  (outcome.result.getD { items := [], stmts := [], tail := none }, outcome.diagnostics)

def parseExpr (file : FileId) (source : String) (maxDepth : Nat) : Option Expr × List Diagnostic :=
  let outcome := Grammar.run file source maxDepth Grammar.wholeExpr
  (outcome.result, outcome.diagnostics)

end Kite
