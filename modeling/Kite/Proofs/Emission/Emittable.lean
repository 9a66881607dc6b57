/-
What emission asks of a checked program. A type that is written down holds no error and no parameter
that the instance leaves open; a body holds no node in the place of something wrong; what is passed
for the generics of a function can stand for them. Each is a check of a single declaration under its
own generics, however many instances it has.
-/
import Kite.Instance.Collect
import Kite.Proofs.Types.Growth

namespace Kite

/-! ## Types -/

variable (p : Program) (generics : List Generic) (decl : DefId)

/-- Whether a type of the given arity can be made with the head: declared types are structs, classes
or enums, with an argument for each generic. -/
def Program.makesType : TyHead → Nat → Bool
  | .error, _ => false
  | .named decl, arity =>
    match (p.getDef decl).kind with
    | .struct s => arity == s.generics.length
    | .enum e => arity == e.generics.length
    | _ => false
  | _, _ => true

namespace Ty

mutual

/-- Whether a type can be written down once the given parameters are bound. -/
def proper (params : List ParamId) : Ty → Bool
  | .param id => params.contains id
  | .node head parts => p.makesType head parts.length && properAll params parts

def properAll (params : List ParamId) : List Ty → Bool
  | [] => true
  | t :: ts => t.proper params && properAll params ts

end

/-- The arguments of generics, one by one. A parameter without an argument stays. -/
def bindOpen (args : List Ty) : ParamId → Ty := fun id =>
  (((generics.map (·.id)).zip args).lookup id).getD (.param id)

end Ty

namespace Program

/-- Whether a type can be written down once the generics are bound. -/
def isProper (type : TypeId) : Bool :=
  (p.types.tree type).proper p (generics.map (·.id))

/-- Whether every instance of a declared type can be emitted. -/
def emittableMembers : Bool :=
  let (generics, groups) := p.memberGroups decl
  groups.all (·.all (p.isProper generics))

/-- The types of a group of members of a declared type with the given arguments. -/
def memberTys (group : Nat) (args : List Ty) : List Ty :=
  let (generics, groups) := p.memberGroups decl
  ((groups[group]?).getD []).map fun member => (p.types.tree member).subst (.bindOpen generics args)

end Program

/-! ## Generic arguments -/

namespace Program

def generic? (id : ParamId) : Option Generic := generics.find? (·.id == id)

/-- Whether a type stands for a number, as an argument for a constant parameter has to. -/
def isNumber (type : TypeId) : Bool :=
  match p.types.shape type with
  | .const _ => true
  | .param id _ => (generic? generics id).any (·.constType.isSome)
  | _ => false

/-- Whether the arguments that an implementation gives to the generics of its method leave nothing
open, and no bound to be met. -/
def isClosedCall (args : List TypeId) : Bool :=
  match p.function? decl with
  | some f => (f.generics.zip args).all fun (g, arg) =>
      p.isProper [] arg && (g.constType.isNone || p.isNumber [] arg) && g.bounds.isEmpty
  | none => true

/-- Whether a method of a trait has an implementation for a type that can be called. -/
def provides (traitDef : DefId) (type : TypeId) (method : String) : Bool :=
  match p.traitMethod? traitDef method type with
  | some (decl, args) => p.isClosedCall decl args
  | none => false

def traitMethodNames (traitDef : DefId) : List String :=
  match p.trait? traitDef with
  | some t => t.methods.map (·.name)
  | none => []

/-- Whether a type has the methods of a trait: it is a parameter that the trait bounds, or a type
without parameters that there is an implementation for. -/
def meetsBound (type : TypeId) (traitDef : DefId) : Bool :=
  match p.types.shape type with
  | .param id _ => (generic? generics id).any (·.bounds.contains traitDef)
  | _ => p.types.isFixed type && (p.traitMethodNames traitDef).all (p.provides traitDef type)

def fitsGeneric (g : Generic) (arg : TypeId) : Bool :=
  p.isProper generics arg && (g.constType.isNone || p.isNumber generics arg) && g.bounds.all (p.meetsBound generics arg)

def fitsFunction (args : List TypeId) : Bool :=
  match p.function? decl with
  | some f => f.isForeign || args.length == f.generics.length &&
      (f.generics.zip args).all fun (g, arg) => p.fitsGeneric generics g arg
  | none => true

end Program

/-! ## Trees -/

namespace Typed.Emittable

structure Scope where
  generics : List Generic
  locals : Array Local

variable (scope : Scope)

def declares (id : LocalId) : Bool :=
  match scope.locals[id.index]? with
  | some l => p.isProper scope.generics l.type
  | none => false

mutual

def pattern : Pattern → Bool
  | .binding id => declares p scope id
  | .some inner => pattern inner
  | .variant _ _ fields => patterns fields
  | _ => true

def patterns : List Pattern → Bool
  | [] => true
  | q :: qs => pattern q && patterns qs

end

/-- Whether the type of a node is written down where the node is emitted. -/
def spells : ExprKind → Bool
  | .none | .some _ | .cast _ | .tuple _ | .sequence _ | .fill .. | .cond .. | .matchWith ..
  | .block _ => true
  | _ => false

mutual

def expr : Expr → Bool
  | ⟨kind, type, _⟩ => (p.isProper scope.generics type || type == .error && !spells kind) && exprKind kind

def exprKind : ExprKind → Bool
  | .int _ | .float _ | .bool _ | .char _ | .str _ | .void | .none | .var _ | .global _ | .brk
  | .cont => true
  | .constParam id => (Program.generic? scope.generics id).any (·.constType.isSome)
  | .functionRef decl args => p.fitsFunction scope.generics decl args
  | .some inner | .cast inner | .unwrap inner | .unary _ inner | .field inner _ _
  | .tupleIndex inner _ => expr inner
  | .binary _ a b | .assign _ a b | .index a b | .fill a b => expr a && expr b
  | .slice a b c _ => expr a && expr b && expr c
  | .call target args => callee target && exprs args
  | .tuple items | .sequence items => exprs items
  | .cond cond thenBranch elseBranch => expr cond && expr thenBranch && exprOption elseBranch
  | .matchWith scrutinee branches => expr scrutinee && arms branches
  | .block inner => block inner
  | .ret value => exprOption value
  | .range .. | .error => false

def callee : Callee → Bool
  | .function decl args => p.fitsFunction scope.generics decl args
  | .traitMethod traitDef method selfType =>
    match p.types.shape selfType with
    | .param id _ => (Program.generic? scope.generics id).any (·.bounds.contains traitDef) &&
        (p.traitMethodNames traitDef).contains method
    | _ => false
  | .indirect inner => expr inner
  | .builtin _ | .builtinMethod _ | .constructor _ | .variant .. => true

def exprs : List Expr → Bool
  | [] => true
  | e :: es => expr e && exprs es

def exprOption : Option Expr → Bool
  | some e => expr e
  | none => true

def arms : List Arm → Bool
  | [] => true
  | ⟨tests, body⟩ :: rest => patterns p scope tests && expr body && arms rest

def block : Block → Bool
  | ⟨body, tail⟩ => stmts body && exprOption tail

def stmts : List Stmt → Bool
  | [] => true
  | s :: ss => stmt s && stmts ss

def stmt : Stmt → Bool
  | .letDecl id init => declares p scope id && expr init
  | .expr e => expr e
  | .whileLoop cond body => expr cond && block body
  | .loop body => block body
  | .forRange id start stop _ body => declares p scope id && expr start && expr stop && block body
  | .forEach id iterable body => declares p scope id && expr iterable && block body
  | .defer inner => stmt inner

end

end Typed.Emittable

/-! ## Values -/

namespace Value

mutual

/-- Whether the sequences in a value stand where its type has sequences, and its structs and variants
have types whose members can be written down. -/
def sits : Value → Ty → Bool
  | .tuple items, .node .tuple parts => sitAll items parts
  | .sequence items, .node .vector (element :: _) => sitEach items element
  | .sequence items, .node .array (element :: _) => sitEach items element
  | .sequence _, _ => false
  | .some inner, .node .optional (part :: _) => inner.sits part
  | .some inner, type => inner.sits type
  | .struct _ fields, .node (.named decl) args => p.emittableMembers decl && sitAll fields (p.memberTys decl 0 args)
  | .variant _ index fields, .node (.named decl) args =>
    p.emittableMembers decl && sitAll fields (p.memberTys decl index args)
  | _, _ => true

def sitAll : List Value → List Ty → Bool
  | v :: vs, t :: ts => v.sits t && sitAll vs ts
  | _, _ => true

def sitEach : List Value → Ty → Bool
  | [], _ => true
  | v :: vs, t => v.sits t && sitEach vs t

end

end Value

/-! ## Declarations -/

namespace Program

def emittableBody (body : Typed.Body) : Bool :=
  body.locals.all (fun l => p.isProper generics l.type) && Typed.Emittable.expr p ⟨generics, body.locals⟩ body.expr

def emittableFunction : Bool :=
  match p.function? decl with
  | some f => (Instance.signatureTypes f).all (p.isProper f.generics) && f.body.all (p.emittableBody f.generics)
  | none => true

/-- Whether a function that is defined elsewhere can be declared. -/
def emittableForeign : Bool :=
  match p.function? decl with
  | some f => (Instance.signatureTypes f).all (p.isProper [])
  | none => true

/-- Whether a constant or static has a value that can be written down as one of its type. -/
def emittableGlobal : Bool :=
  match p.global? decl with
  | some g => p.isProper [] g.type && g.value.any (·.sits p (p.types.tree g.type))
  | none => true

def emittableType : TypeShape → Bool
  | .named decl _ _ => p.emittableMembers decl
  | _ => true

def emittable (entry : UnitId) : Bool :=
  match collectInstances p entry with
  | some (instances, q) =>
    instances.functions.all (fun i => p.emittableFunction i.decl) &&
      instances.types.all (fun id => p.emittableType (q.types.shape id)) &&
      instances.foreign.all p.emittableForeign && instances.globals.all p.emittableGlobal &&
      p.impls.all fun impl => impl.target.index < p.types.size
  | none => false

end Program

end Kite
