/-
Checked trees: every expression carries its type, and every name has been resolved to a local, a
declaration or a builtin. Evaluation and emission read these trees and look nothing up again.
-/
import Kite.Builtin
import Kite.Number.Double
import Kite.Scope
import Kite.Source.Span
import Kite.Tree.Operator

namespace Kite.Typed

inductive Pattern where
  | wildcard
  | binding (id : LocalId)
  | int (value : Int)
  | bool (value : Bool)
  | char (value : Char)
  | str (value : String)
  | variant (decl : DefId) (index : Nat) (fields : List Pattern)
  | some (inner : Pattern)
  | none
  deriving Inhabited

def Pattern.isIrrefutable : Pattern → Bool
  | .wildcard | .binding _ => true
  | _ => false

mutual

structure Expr where
  kind : ExprKind
  type : TypeId
  span : Span

inductive Callee where
  /-- A function or method; the receiver of a method is the first argument. The generic arguments
  stand in the order of the generics of the function. -/
  | function (decl : DefId) (args : List TypeId)
  | traitMethod (traitDef : DefId) (method : String) (selfType : TypeId)
  | builtin (fn : BuiltinFn)
  /-- The receiver is the first argument. -/
  | builtinMethod (method : BuiltinMethod)
  | indirect (callee : Expr)
  | constructor (decl : DefId)
  | variant (decl : DefId) (index : Nat)

inductive ExprKind where
  | int (value : Int)
  | float (value : Double)
  | bool (value : Bool)
  | char (value : Char)
  | str (value : String)
  | void
  | none
  | some (inner : Expr)
  | var (id : LocalId)
  | global (decl : DefId)
  | constParam (id : ParamId)
  | functionRef (decl : DefId) (args : List TypeId)
  | unary (op : UnaryOp) (operand : Expr)
  | binary (op : BinaryOp) (lhs rhs : Expr)
  | assign (op : Option BinaryOp) (target value : Expr)
  | range (start stop : Expr) (inclusive : Bool)
  | cast (inner : Expr)
  | call (callee : Callee) (args : List Expr)
  | field (base : Expr) (index : Nat) (name : String)
  | tupleIndex (base : Expr) (index : Nat)
  | index (base : Expr) (index : Expr)
  /-- `base[a..b]` on a string or a sequence. -/
  | slice (base start stop : Expr) (inclusive : Bool)
  | unwrap (inner : Expr)
  | tuple (items : List Expr)
  /-- A vector or an array, as the type says. -/
  | sequence (items : List Expr)
  | fill (value count : Expr)
  | cond (cond thenBranch : Expr) (elseBranch : Option Expr)
  | matchWith (scrutinee : Expr) (arms : List Arm)
  | block (block : Block)
  | ret (value : Option Expr)
  | brk
  | cont
  | error

structure Block where
  stmts : List Stmt
  tail : Option Expr

structure Arm where
  patterns : List Pattern
  body : Expr

inductive Stmt where
  | letDecl (id : LocalId) (init : Expr)
  | expr (expr : Expr)
  | whileLoop (cond : Expr) (body : Block)
  | loop (body : Block)
  | forRange (id : LocalId) (start stop : Expr) (inclusive : Bool) (body : Block)
  | forEach (id : LocalId) (iterable : Expr) (body : Block)
  | defer (inner : Stmt)

end

def Expr.error (span : Span) : Expr := ⟨.error, .error, span⟩

def Expr.void (span : Span) : Expr := ⟨.void, .void, span⟩

instance : Inhabited Expr := ⟨.void {}⟩

structure Local where
  name : String
  type : TypeId
  isMut : Bool
  span : Span
  deriving Inhabited

structure Body where
  locals : Array Local
  /-- `this` and the declared parameters. -/
  params : List LocalId
  expr : Expr
  deriving Inhabited

end Kite.Typed
