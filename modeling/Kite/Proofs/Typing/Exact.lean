/-
Exact typing of checked trees. A tree is exact when every value it passes on has, before any
conversion, the type of the place it goes to: arguments, bindings, results and the branches of a
conditional. Checking accepts more than that, since it lets a value stand where its type coerces;
evaluation passes such a value on as it is.

Calls of methods through a bound are not exact: which method runs is found while evaluating.
-/
import Kite.Proofs.Typing.Shape

namespace Kite.Typed.Exact

/-- Whether a value of one type is a value of another as it is. There are none of type `never`. -/
def flows (source target : Ty) : Bool := source == .never || source == target

def flowAll : List Ty → List Ty → Bool
  | [], [] => true
  | s :: ss, t :: ts => flows s t && flowAll ss ts
  | _, _ => false

/-- What exactness depends on, apart from the tree. -/
structure Context where
  program : Program
  locals : Array Local
  /-- The type that `return` gives; absent where there is nothing to return from. -/
  result : Option Ty
  /-- Whether a `break` has a loop to leave. -/
  breaks : Bool

variable (cx : Context) (p : Program)

namespace Context

def ty (type : TypeId) : Ty := cx.program.types.ty type

def localTy (id : LocalId) : Ty := cx.ty (cx.locals.getD id.index default).type

def tys (es : List Expr) : List Ty := es.map fun e => cx.ty e.type

def inLoop : Context := { cx with breaks := true }

/-- The context inside a loop that is never left. -/
def inEndless : Context := { cx with breaks := false }

end Context

/-! ## Rules without recursion -/

def isInt : Ty → Bool
  | .node (.int _) _ => true
  | _ => false

def isFloat : Ty → Bool
  | .node (.float _) _ => true
  | _ => false

def element? : Ty → Option Ty
  | .node .vector (element :: _) | .node .array (element :: _) => some element
  | _ => none

def unaryFits (op : UnaryOp) (operand type : Ty) : Bool := if op == .not then type == .bool else flows operand type

def binaryFits (op : BinaryOp) (lhs type : Ty) : Bool :=
  if op.isLogical || op.isComparison then type == .bool else flows lhs type

/-- A conversion to a type of the given shape. A type that is no number is only passed on. -/
def castFits (shape : TypeShape) (source target : Ty) : Bool :=
  match shape, source with
  | .int _, .node (.int _) _ | .int _, .node (.float _) _ | .int _, .node .bool _
  | .int _, .node .char _ | .float _, .node (.int _) _ | .float _, .node (.float _) _
  | .char, .node (.int _) _ => true
  | .int _, .node (.named decl) _ => (p.struct? decl).isNone
  | _, _ => flows source target

/-- An argument for each parameter of the body, and the result as declared. -/
def callFits (decl : DefId) (generics : List TypeId) (args : List Ty) (type : Ty) : Bool :=
  match cx.program.function? decl with
  | none => true
  | some f =>
    let s := Ty.bind f.generics (generics.map cx.ty)
    !f.isComptime || f.body.all fun body =>
      flowAll args (body.params.map fun id => (cx.ty (body.locals.getD id.index default).type).subst s) &&
      type == (cx.ty f.result).subst s

def methodFits (method : BuiltinMethod) (args : List Ty) (type : Ty) : Bool :=
  match method, args with
  | .stringLen, _ | .vectorLen, _ | .arrayLen, _ => type == .int .usize
  | .stringIsEmpty, _ | .vectorIsEmpty, _ | .optionalHasValue, _ => type == .bool
  | .vectorPush, .node .vector (element :: _) :: value :: _ => type == .void && flows value element
  | .vectorPop, [.node .vector (element :: _)] => type == .node .optional [element]
  | _, _ => false

def calleeFits (callee : Callee) (args : List Ty) (type : Ty) : Bool :=
  match callee with
  | .function decl generics => callFits cx decl generics args type
  | .traitMethod .. => false
  | .builtin _ | .indirect _ => true
  | .builtinMethod method => methodFits method args type
  | .constructor decl =>
    match type with
    | .node (.named named) given =>
      decl == named && (cx.program.fieldTys? decl given).any fun types => flowAll args types
    | _ => false
  | .variant decl index =>
    match type with
    | .node (.named named) given =>
      decl == named && (cx.program.payloadTys? decl index given).any fun types => flowAll args types
    | _ => false

def fieldFits (index : Nat) (base type : Ty) : Bool :=
  match base with
  | .node (.named decl) args => (p.fieldTys? decl args).any fun types => types[index]? == some type
  | _ => false

def itemFits (index : Nat) (base type : Ty) : Bool :=
  match base with
  | .node .tuple types => types[index]? == some type
  | _ => false

def indexFits (base type : Ty) : Bool :=
  match base with
  | .node .string _ => type == .int .u8
  | _ => element? base == some type

def sliceFits (base type : Ty) : Bool :=
  match base with
  | .node .string _ => type == .string
  | _ => (element? base).any fun element => type == .node .vector [element]

mutual

def pattern (cx : Context) : Pattern → Ty → Bool
  | .binding id, type => cx.localTy id == type
  | .variant decl index fields, .node (.named named) args =>
    decl == named && (cx.program.payloadTys? decl index args).any fun types => patterns cx fields types
  | .variant .., _ => false
  | .some inner, .node .optional (part :: _) => pattern cx inner part
  | .some _, _ => false
  | _, _ => true

def patterns (cx : Context) : List Pattern → List Ty → Bool
  | p :: ps, t :: ts => pattern cx p t && patterns cx ps ts
  | _, _ => true

end

/-! ## The tree -/

mutual

def expr (cx : Context) : Expr → Bool
  | ⟨kind, type, _⟩ => exprKind cx type kind

def exprKind (cx : Context) (type : TypeId) : ExprKind → Bool
  | .int _ | .constParam _ => isInt (cx.ty type)
  | .float _ => isFloat (cx.ty type)
  | .bool _ => cx.ty type == .bool
  | .char _ => cx.ty type == .node .char []
  | .str _ => cx.ty type == .string
  | .void => cx.ty type == .void
  | .none =>
    match cx.ty type with
    | .node .optional (_ :: _) => true
    | _ => false
  | .some inner =>
    expr cx inner &&
      match cx.ty type with
      | .node .optional (part :: _) => flows (cx.ty inner.type) part
      | _ => false
  | .var id => cx.localTy id == cx.ty type
  | .global decl => (cx.program.global? decl).all fun g => cx.ty g.type == cx.ty type
  | .functionRef .. | .range .. | .cont | .error => true
  | .unary op operand => expr cx operand && unaryFits op (cx.ty operand.type) (cx.ty type)
  | .binary op lhs rhs => expr cx lhs && expr cx rhs && binaryFits op (cx.ty lhs.type) (cx.ty type)
  | .assign op target value =>
    expr cx target && expr cx value && cx.ty type == .void &&
      (op.isSome || flows (cx.ty value.type) (cx.ty target.type))
  | .cast inner =>
    expr cx inner && castFits cx.program (cx.program.types.shape type) (cx.ty inner.type) (cx.ty type)
  | .call callee args => exprs cx args && calleeFits cx callee (cx.tys args) (cx.ty type)
  | .field base index _ => expr cx base && fieldFits cx.program index (cx.ty base.type) (cx.ty type)
  | .tupleIndex base index => expr cx base && itemFits index (cx.ty base.type) (cx.ty type)
  | .index base index => expr cx base && expr cx index && indexFits (cx.ty base.type) (cx.ty type)
  | .slice base start stop _ =>
    expr cx base && expr cx start && expr cx stop && sliceFits (cx.ty base.type) (cx.ty type)
  | .unwrap inner =>
    expr cx inner &&
      match cx.ty inner.type with
      | .node .optional (part :: _) => part == cx.ty type
      | _ => false
  | .tuple items =>
    exprs cx items &&
      match cx.ty type with
      | .node .tuple types => flowAll (cx.tys items) types
      | _ => false
  | .sequence items =>
    exprs cx items && (element? (cx.ty type)).any fun element => (cx.tys items).all (flows · element)
  | .fill value count =>
    expr cx value && expr cx count && (element? (cx.ty type)).any fun element => flows (cx.ty value.type) element
  | .cond cond thenBranch elseBranch =>
    expr cx cond && expr cx thenBranch && exprOption cx elseBranch &&
      flows (cx.ty thenBranch.type) (cx.ty type) &&
      flows ((elseBranch.map fun e => cx.ty e.type).getD .void) (cx.ty type)
  | .matchWith scrutinee as => expr cx scrutinee && arms cx (cx.ty scrutinee.type) (cx.ty type) as
  | .block b => block cx b && blockFits cx (cx.ty type) b
  | .ret value =>
    exprOption cx value && cx.result.any fun result => flows ((value.map fun e => cx.ty e.type).getD .void) result
  | .brk => cx.breaks

def exprs (cx : Context) : List Expr → Bool
  | [] => true
  | e :: es => expr cx e && exprs cx es

def exprOption (cx : Context) : Option Expr → Bool
  | some e => expr cx e
  | none => true

def arms (cx : Context) (scrutinee type : Ty) : List Arm → Bool
  | [] => true
  | ⟨ps, body⟩ :: rest =>
    (ps.all fun p => pattern cx p scrutinee) && expr cx body && flows (cx.ty body.type) type &&
      arms cx scrutinee type rest

def block (cx : Context) : Block → Bool
  | ⟨ss, tail⟩ => stmts cx ss && exprOption cx tail

/-- A block has the type of its tail, or any type if its end is not reached. -/
def blockFits (cx : Context) (type : Ty) : Block → Bool
  | ⟨ss, tail⟩ => diverge cx ss || flows ((tail.map fun e => cx.ty e.type).getD .void) type

def stmts (cx : Context) : List Stmt → Bool
  | [] => true
  | s :: ss => stmt cx s && stmts cx ss

def stmt (cx : Context) : Stmt → Bool
  | .letDecl id init => expr cx init && flows (cx.ty init.type) (cx.localTy id)
  | .expr e => expr cx e
  | .whileLoop cond body => expr cx cond && block cx.inLoop body
  | .loop body => block cx.inLoop body
  | .forRange id start stop _ body =>
    expr cx start && expr cx stop && flows (cx.ty start.type) (cx.localTy id) && block cx.inLoop body
  | .forEach id iterable body =>
    expr cx iterable && element? (cx.ty iterable.type) == some (cx.localTy id) && block cx.inLoop body
  | .defer inner => stmt cx inner

/-- Whether one of the statements never ends normally. -/
def diverge (cx : Context) : List Stmt → Bool
  | [] => false
  | s :: ss => diverges cx s || diverge cx ss

def diverges (cx : Context) : Stmt → Bool
  | .letDecl _ init => cx.ty init.type == .never
  | .expr e => cx.ty e.type == .never
  | .loop body => block cx.inEndless body
  | _ => false

end

end Kite.Typed.Exact

namespace Kite.Program

open Typed.Exact

variable (p : Program)

def exactContext (f : FunctionDef) (body : Typed.Body) : Context :=
  { program := p, locals := body.locals, result := some (p.types.ty f.result), breaks := false }

/-- Whether the body of a function that may run while compiling is exact. -/
def functionExact (f : FunctionDef) : Bool :=
  !f.isComptime || f.body.all fun body =>
    expr (p.exactContext f body) body.expr && flows (p.types.ty body.expr.type) (p.types.ty f.result)

def globalExact (g : GlobalDef) : Bool := g.value.all fun v => v.fits p (p.types.ty g.type)

/-- Whether the bodies that may run while compiling and the values of globals are exact. -/
def exact : Bool :=
  p.defs.all fun d =>
    match d.kind with
    | .function f => p.functionExact f
    | .const g | .static g => p.globalExact g
    | _ => true

end Kite.Program
