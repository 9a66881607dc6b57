/-
What a checked body needs from outside of it: the types of its expressions, and the globals and
functions that it names, in the order in which they stand in the text.
-/
import Kite.Typed.Basic

namespace Kite.Typed

inductive Mention where
  | exprType (id : TypeId)
  | global (decl : DefId)
  | function (decl : DefId) (args : List TypeId)
  | traitMethod (traitDef : DefId) (method : String) (selfType : TypeId)
  deriving DecidableEq, Inhabited

namespace Mention

mutual

def ofExpr : Expr → List Mention
  | ⟨kind, type, _⟩ => .exprType type :: ofKind kind

def ofKind : ExprKind → List Mention
  | .global decl => [.global decl]
  | .functionRef decl args => [.function decl args]
  | .call callee args => ofCallee callee ++ ofExprs args
  | .some inner | .cast inner | .unwrap inner | .unary _ inner | .field inner _ _
  | .tupleIndex inner _ => ofExpr inner
  | .binary _ a b | .assign _ a b | .range a b _ | .index a b | .fill a b => ofExpr a ++ ofExpr b
  | .slice a b c _ => ofExpr a ++ ofExpr b ++ ofExpr c
  | .tuple items | .sequence items => ofExprs items
  | .cond cond thenBranch elseBranch => ofExpr cond ++ ofExpr thenBranch ++ ofOption elseBranch
  | .matchWith scrutinee arms => ofExpr scrutinee ++ ofArms arms
  | .block block => ofBlock block
  | .ret value => ofOption value
  | .int _ | .float _ | .bool _ | .char _ | .str _ | .void | .none | .var _ | .constParam _ | .brk
  | .cont | .error => []

def ofCallee : Callee → List Mention
  | .function decl args => [.function decl args]
  | .traitMethod traitDef method selfType => [.traitMethod traitDef method selfType]
  | .indirect callee => ofExpr callee
  | .builtin _ | .builtinMethod _ | .constructor _ | .variant .. => []

def ofExprs : List Expr → List Mention
  | [] => []
  | e :: es => ofExpr e ++ ofExprs es

def ofOption : Option Expr → List Mention
  | some e => ofExpr e
  | none => []

def ofArms : List Arm → List Mention
  | [] => []
  | ⟨_, body⟩ :: arms => ofExpr body ++ ofArms arms

def ofBlock : Block → List Mention
  | ⟨stmts, tail⟩ => ofStmts stmts ++ ofOption tail

def ofStmts : List Stmt → List Mention
  | [] => []
  | s :: ss => ofStmt s ++ ofStmts ss

def ofStmt : Stmt → List Mention
  | .letDecl _ init => ofExpr init
  | .expr e => ofExpr e
  | .whileLoop cond body => ofExpr cond ++ ofBlock body
  | .loop body => ofBlock body
  | .forRange _ start stop _ body => ofExpr start ++ ofExpr stop ++ ofBlock body
  | .forEach _ iterable body => ofExpr iterable ++ ofBlock body
  | .defer inner => ofStmt inner

end

end Mention

def Body.mentions (body : Body) : List Mention :=
  body.locals.toList.map (fun l => .exprType l.type) ++ Mention.ofExpr body.expr

end Kite.Typed
