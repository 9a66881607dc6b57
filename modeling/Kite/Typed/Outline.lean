/-
A checked body as text: every expression with its type and place, so that two bodies with the same
outline are the same up to the handles of types.
-/
import Kite.Ownership.Copy
import Kite.Text.Form

namespace Kite.Typed.Outline

open Kite.Text

/-! ## Leaves -/

def type (p : Program) (t : TypeId) : String := formString (p.types.display t)

def types (p : Program) (ts : List TypeId) : String := sequence (ts.map (type p))

def decl (p : Program) (id : DefId) : String := s!"{p.defName id}#{id.index}"

def place (span : Span) : String := s!"{span.start}-{span.stop}"

def builtin : BuiltinFn → String
  | .println => "Println"
  | .print => "Print"
  | .eprintln => "Eprintln"
  | .panic => "Panic"

def builtinMethod : BuiltinMethod → String
  | .stringLen => "StringLen"
  | .stringIsEmpty => "StringIsEmpty"
  | .vectorLen => "VectorLen"
  | .vectorPush => "VectorPush"
  | .vectorPop => "VectorPop"
  | .vectorIsEmpty => "VectorIsEmpty"
  | .arrayLen => "ArrayLen"
  | .optionalHasValue => "OptionalHasValue"

mutual

def pattern (p : Program) : Pattern → String
  | .wildcard => "_"
  | .binding id => s!"(bind {id.index})"
  | .int value => toString value
  | .bool value => toString value
  | .char value => s!"(char {value.toNat})"
  | .str value => formString value
  | .variant id index fields =>
    form ["variant", decl p id, toString index, sequence (patterns p fields)]
  | .some inner => form ["some", pattern p inner]
  | .none => "none"

def patterns (p : Program) : List Pattern → List String
  | [] => []
  | head :: rest => pattern p head :: patterns p rest

end

/-! ## Expressions -/

section

variable (p : Program)

mutual

def expr : Expr → String
  | ⟨kind, t, span⟩ => form ([type p t, place span] ++ exprKind kind)

def exprKind : ExprKind → List String
  | .int value => ["int", toString value]
  | .float value => ["float", formDouble value]
  | .bool value => ["bool", toString value]
  | .char value => ["char", toString value.toNat]
  | .str value => ["str", formString value]
  | .void => ["void"]
  | .none => ["none"]
  | .some inner => ["some", expr inner]
  | .var id => ["local", toString id.index]
  | .global id => ["global", decl p id]
  | .constParam id => ["const-param", s!"param#{id.index}"]
  | .functionRef id args => ["function-ref", decl p id, types p args]
  | .unary op operand => ["unary", op.symbol, expr operand]
  | .binary op lhs rhs => ["binary", op.symbol, expr lhs, expr rhs]
  | .assign op target value => ["assign", assignSymbol op, expr target, expr value]
  | .range start stop inclusive => ["range", rangeSymbol inclusive, expr start, expr stop]
  | .cast inner => ["cast", expr inner]
  | .call target args => ["call", callee target, sequence (exprs args)]
  | .field base index name => ["field", expr base, toString index, name]
  | .tupleIndex base index => ["tuple-index", expr base, toString index]
  | .index base index => ["index", expr base, expr index]
  | .slice base start stop inclusive =>
    ["slice", rangeSymbol inclusive, expr base, expr start, expr stop]
  | .unwrap inner => ["unwrap", expr inner]
  | .tuple items => ["tuple", sequence (exprs items)]
  | .sequence items => ["sequence", sequence (exprs items)]
  | .fill value count => ["fill", expr value, expr count]
  | .cond cond thenBranch elseBranch =>
    ["if", expr cond, expr thenBranch, optional elseBranch]
  | .matchWith scrutinee arms' => ["match", expr scrutinee, sequence (arms arms')]
  | .block b => [block b]
  | .ret value => ["return", optional value]
  | .brk => ["break"]
  | .cont => ["continue"]
  | .error => ["error"]

def callee : Callee → String
  | .function id args => form ["function", decl p id, types p args]
  | .traitMethod id method selfType => form ["trait-method", decl p id, method, type p selfType]
  | .builtin fn => form ["builtin", builtin fn]
  | .builtinMethod method => form ["builtin-method", builtinMethod method]
  | .indirect target => form ["indirect", expr target]
  | .constructor id => form ["constructor", decl p id]
  | .variant id index => form ["variant", decl p id, toString index]

def optional : Option Expr → String
  | none => "~"
  | some e => expr e

def exprs : List Expr → List String
  | [] => []
  | e :: rest => expr e :: exprs rest

def arms : List Arm → List String
  | [] => []
  | ⟨alternatives, body⟩ :: rest =>
    form ["arm", sequence (patterns p alternatives), expr body] :: arms rest

def block : Block → String
  | ⟨body, tail⟩ => form ["block", sequence (stmts body), optional tail]

def stmts : List Stmt → List String
  | [] => []
  | s :: rest => stmt s :: stmts rest

def stmt : Stmt → String
  | .letDecl id init => form ["let", toString id.index, expr init]
  | .expr e => expr e
  | .whileLoop cond body => form ["while", expr cond, block body]
  | .loop body => form ["loop", block body]
  | .forRange id start stop inclusive body =>
    form ["for-range", toString id.index, rangeSymbol inclusive, expr start, expr stop,
      block body]
  | .forEach id iterable body => form ["for-each", toString id.index, expr iterable, block body]
  | .defer inner => form ["defer", stmt inner]

end

end

/-! ## Bodies -/

/-- A local with its index, and whether its value is copied or moved. -/
def var (p : Program) (entry : Local × Nat) : String :=
  let (v, index) := entry
  let copied := ((p.isCopy v.type).run p.types).1
  form [toString index, v.name, type p v.type, if v.isMut then "mut" else "let",
    if copied then "copy" else "move", place v.span]

def body (p : Program) (b : Body) : String :=
  form ["body", sequence (b.locals.toList.zipIdx.map (var p)),
    sequence (b.params.map fun id => toString id.index), expr p b.expr]

end Kite.Typed.Outline
