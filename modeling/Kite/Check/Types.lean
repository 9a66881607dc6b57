/-
Types as written, resolved to handles. Array lengths and constant generic arguments are
expressions that are checked and evaluated on the way.
-/
import Kite.Check.Body

namespace Kite.Check

/-! ## Bounds -/

/-- Whether a type has a trait. A parameter has the traits it is bounded by in `generics`. -/
def satisfies (p : Program) (generics : List Generic) (type : TypeId) (traitDef : DefId) : Bool :=
  let type := p.types.stripViews type
  if p.types.containsError type then true
  else
    match p.types.shape type with
    | .param id _ => generics.any fun g => g.id == id && g.bounds.contains traitDef
    | _ => p.implements type traitDef

def checkBound (bound : DeferredBound) : CheckM Unit := do
  match ((← program).genericsOf bound.owner)[bound.param]? with
  | none => return
  | some param =>
    for traitDef in param.bounds do
      let p ← program
      if !satisfies p bound.generics bound.type traitDef then
        report bound.span (.boundNotMet (p.defName traitDef) (← display bound.type) param.name
          (p.defName bound.owner))

/-- Checks the bounds of a parameter now, or when the implementations are known. -/
def checkBoundsAt (bound : DeferredBound) : CheckM Unit := do
  match (← get).deferredBounds with
  | some waiting => modify fun c => { c with deferredBounds := some (waiting.push bound) }
  | none => checkBound bound

def deferBounds : CheckM Unit := modify fun c => { c with deferredBounds := some #[] }

def flushBounds : CheckM Unit := do
  let waiting := (← get).deferredBounds.getD #[]
  modify fun c => { c with deferredBounds := none }
  for bound in waiting do
    checkBound bound

/-- An associated function of a struct or enum with its implementation. Those of the type itself
come before those of traits. -/
def findAssociated? (p : Program) (owner : DefId) (name : String) : Option (DefId × ImplDef) :=
  let candidate (impl : ImplDef) : Option (DefId × ImplDef) :=
    match p.types.shape impl.target with
    | .named decl _ _ => if decl == owner then (p.methodOf? impl name).map (·, impl) else none
    | _ => none
  let impls := p.impls.toList
  ((impls.filter (·.traitDef.isNone)).findSome? candidate).or
    ((impls.filter (·.traitDef.isSome)).findSome? candidate)

/-! ## Types -/

variable (env : Env)

inductive TypeForm where
  /-- A constant expression; its value, if it has the given integer type. -/
  | constant (value : TypeId → CheckM (Option Int))
  /-- A single name without arguments, which may name a constant. -/
  | name (ident : Ident)
  | other

structure TypeReading where
  span : Span
  resolve : CheckM TypeId
  form : TypeForm

/-! ## Constants in types -/

def constArg (value : Int) (span : Span) : CheckM TypeId := do
  if 0 ≤ value ∧ value < pow2 64 then build (TypeM.const value.toNat)
  else
    report span (.constArgNegative value)
    return .error

def constArg? (value : Option Int) (span : Span) : CheckM TypeId :=
  match value with
  | some value => constArg value span
  | none => return .error

def constInt (check : ExprCheck) (type : TypeId) : CheckM (Option Int) := do
  let body ← runBody none (checkAgainst check (some type))
  if body.expr.type == .error then return none
  return (← env.demand.evaluate body.expr body.locals.size).bind Value.int?

def arrayLength (name : Option Ident) (check : ExprCheck) (span : Span) : CheckM TypeId := do
  match name.bind (env.generic? ·.name) with
  | some generic =>
    if generic.constType.isSome then return generic.type
    report span (.typeParamAsLength generic.name)
    return .error
  | none => constArg? (← constInt env check .usize) span

def arrayType (element length : TypeId) : CheckM TypeId :=
  if element == .error || length == .error then return .error
  else build (TypeM.intern (.array element length))

/-! ## Generic arguments -/

def namedConstArg (ident : Ident) (param : Generic) (span : Span) : CheckM TypeId := do
  let notConst : CheckM TypeId := do
    report span (.constArgIsName param.name ident.name)
    return .error
  match ← lookupItem env.unit [ident] with
  | .failed => return .error
  | .notFound => notConst
  | .found decl _ =>
    match (← getDef decl).kind with
    | .const _ =>
      match ← env.demand.global decl with
      | .error error =>
        reportFailure { error, span }
        return .error
      | .ok value =>
        match value.int? with
        | some value => constArg value span
        | none =>
          report span (.constArgNotInteger ident.name)
          return .error
    | _ => notConst

def genericArg (arg : TypeReading) (param : Generic) : CheckM TypeId := do
  match param.constType, arg.form with
  | none, .constant _ =>
    report arg.span (.typeArgIsConst param.name)
    return .error
  | none, _ => arg.resolve
  | some type, .constant value => constArg? (← value type) arg.span
  | some _, .name ident =>
    match env.generic? ident.name with
    | some generic =>
      if generic.constType.isSome then return generic.type
      report arg.span (.constArgIsTypeParam param.name ident.name)
      return .error
    | none => namedConstArg env ident param arg.span
  | some _, .other =>
    report arg.span (.constArgExpected param.name)
    return .error

def boundedArgs (env : Env) (owner : DefId) :
    Nat → List Generic → List TypeReading → CheckM (List TypeId)
  | index, param :: params, arg :: args => do
    let type ← genericArg env arg param
    checkBoundsAt { generics := env.generics, owner, param := index, type, span := arg.span }
    return type :: (← boundedArgs env owner (index + 1) params args)
  | _, _, _ => return []

def instantiate (decl : DefId) (args : List TypeReading) (span : Span) : CheckM TypeId := do
  let d ← getDef decl
  let apply (params : List Generic) : CheckM TypeId := do
    if args.length != params.length then
      report span (.genericArgCount d.name params.length args.length)
      return .error
    let args ← boundedArgs env decl 0 params args
    build (TypeM.named decl d.name args)
  match d.kind with
  | .struct s => apply s.generics
  | .enum e => apply e.generics
  | kind =>
    report span (.notAType kind.describe d.name)
    return .error

/-! ## Named types -/

def declaredType (path : List Ident) (args : List TypeReading) (span : Span) : CheckM TypeId := do
  let unknown : CheckM TypeId := do
    report span (.unknownType (pathText path))
    return .error
  match ← lookupItem env.unit path with
  | .failed => return .error
  | .notFound => unknown
  | .found decl segments => if segments == path.length then instantiate env decl args span else unknown

def paramType (generic : Generic) (name : Ident) (args : List TypeReading) (span : Span) : CheckM TypeId := do
  if generic.constType.isSome then
    report name.span (.constParamAsType name.name)
    return .error
  if !args.isEmpty then report span (.typeParamTakesNoArgs name.name)
  return generic.type

def pathType (path : List Ident) (args : List TypeReading) (span : Span) : CheckM TypeId := do
  match path with
  | [name] =>
    match TypeId.ofName? name.name, env.generic? name.name with
    | some type, _ =>
      if !args.isEmpty then report span (.takesNoArgs name.name)
      return type
    | none, some generic => paramType generic name args span
    | none, none => declaredType env path args span
  | _ => declaredType env path args span

end Kite.Check
