/-
Whether control may leave a checked expression by a `return`, `break` or `continue` rather than
with a value. A `break` or `continue` inside a loop of the expression stays in it.
-/
import Kite.Typed.Basic

namespace Kite.Typed.Jumps

mutual

/-- Whether an expression inside `loops` loops may jump out of all of them. -/
def expr (loops : Nat) : Expr → Bool
  | ⟨kind, _, _⟩ => exprKind loops kind

def exprKind (loops : Nat) : ExprKind → Bool
  | .ret _ => true
  | .brk | .cont => loops == 0
  | .block b => block loops b
  | .cond c thenBranch elseBranch => expr loops c || expr loops thenBranch || exprOption loops elseBranch
  | .matchWith scrutinee as => expr loops scrutinee || arms loops as
  | .some inner | .cast inner | .unwrap inner | .unary _ inner | .field inner _ _
  | .tupleIndex inner _ => expr loops inner
  | .binary _ a b | .assign _ a b | .range a b _ | .index a b | .fill a b => expr loops a || expr loops b
  | .slice a b c _ => expr loops a || expr loops b || expr loops c
  | .tuple items | .sequence items => exprs loops items
  | .call f args => exprs loops args || callee loops f
  | .int _ | .float _ | .bool _ | .char _ | .str _ | .void | .none | .var _ | .global _
  | .constParam _ | .functionRef .. | .error => false

def callee (loops : Nat) : Callee → Bool
  | .indirect f => expr loops f
  | .function .. | .traitMethod .. | .builtin _ | .builtinMethod _ | .constructor _
  | .variant .. => false

def exprs (loops : Nat) : List Expr → Bool
  | [] => false
  | e :: es => expr loops e || exprs loops es

def exprOption (loops : Nat) : Option Expr → Bool
  | some e => expr loops e
  | none => false

def arms (loops : Nat) : List Arm → Bool
  | [] => false
  | ⟨_, body⟩ :: rest => expr loops body || arms loops rest

def block (loops : Nat) : Block → Bool
  | ⟨ss, tail⟩ => stmts loops ss || exprOption loops tail

def stmts (loops : Nat) : List Stmt → Bool
  | [] => false
  | s :: ss => stmt loops s || stmts loops ss

def stmt (loops : Nat) : Stmt → Bool
  | .letDecl _ init => expr loops init
  | .expr e => expr loops e
  | .whileLoop cond body => expr loops cond || block (loops + 1) body
  | .loop body => block (loops + 1) body
  | .forRange _ start stop _ body => expr loops start || expr loops stop || block (loops + 1) body
  | .forEach _ iterable body => expr loops iterable || block (loops + 1) body
  | .defer inner => stmt loops inner

end

end Kite.Typed.Jumps

namespace Kite.Typed

def Expr.escapes (e : Expr) : Bool := Jumps.expr 0 e

end Kite.Typed
