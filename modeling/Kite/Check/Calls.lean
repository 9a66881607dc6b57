/-
Calls of functions, constructors and variants. Explicit generic arguments bind first, then the
expected result type, then each argument in turn. An argument whose parameter type is bound is
checked against it; otherwise its own type is matched to bind the parameters that remain.
-/
import Kite.Check.Types

namespace Kite.Check

variable (env : Env)

structure ArgReading where
  label : Option Ident
  span : Span
  text : Option String
  check : ExprCheck

def checkForErrors : List ArgReading → BodyM Unit
  | [] => return
  | arg :: rest => do
    let _ ← synth arg.check none
    checkForErrors rest

def failCall (args : List ArgReading) (span place : Span) (problem : Problem) : BodyM Typed.Expr := do
  report place problem
  checkForErrors args
  return .error span

/-! ## Binding generic parameters -/

def unbound (s : Subst) (params : List ParamId) : List ParamId := params.filter fun id => (s.get? id).isNone

def bindEach (env : Env) : List Generic → List TypeReading → Subst → CheckM Subst
  | generic :: generics, arg :: args, s => do
    let type ← genericArg env arg generic
    bindEach env generics args ((generic.id, type) :: s)
  | _, _, s => return s

def bindExplicit (name : String) (own : List Generic) (explicit : List TypeReading)
    (s : Subst) (span : Span) : CheckM Subst := do
  if explicit.isEmpty then return s
  if explicit.length != own.length then
    report span (.explicitArgCount name own.length explicit.length)
    return s
  bindEach env own explicit s

/-- Lets the expected type bind what the result type mentions, if the two agree. -/
def bindExpected (result : TypeId) (pending : List ParamId) (expected : Option TypeId) (s : Subst) : CheckM Subst := do
  match expected with
  | none => return s
  | some expected =>
    let result ← build (TypeM.subst s result)
    let table ← types
    if !table.mentions (unbound s pending) result then return s
    match (table.matchTypes result expected).run s with
    | (true, bound) => return bound
    | (false, _) =>
      match table.optionalInner? expected with
      | none => return s
      | some inner =>
        match (table.matchTypes result inner).run s with
        | (true, bound) => return bound
        | (false, _) => return s

/-- A sequence literal for a vector parameter is a vector; only the parameter could tell. -/
def widenToVector (pattern : TypeId) (value : Typed.Expr) : CheckM Typed.Expr := do
  let table ← types
  match value.kind, table.shape pattern, table.shape value.type with
  | .sequence _, .vector _, .array element _
  | .fill .., .vector _, .array element _ => return { value with type := ← build (TypeM.vector element) }
  | _, _, _ => return value

/-- Binds the parameters that an argument with a problem would have bound, so that they are not
reported again. -/
def bindToError (table : TypeTable) (pattern : TypeId) (params : List ParamId) (s : Subst) : Subst :=
  params.foldl (fun (s : Subst) id =>
    if (s.get? id).isNone && table.mentions [id] pattern then (id, .error) :: s else s) s

def checkArg (arg : ArgReading) (declared : TypeId) (pending : List ParamId) (s : Subst) :
    BodyM (Typed.Expr × Subst) := do
  let pattern ← build (TypeM.subst s declared)
  let free := unbound s pending
  if !(← types).mentions free pattern then
    let value ← synth arg.check (some pattern)
    if !(← types).coerces value.type pattern then
      let shown ← build (TypeM.subst s pattern)
      mismatch shown value.type arg.span
    consume value
    return (value, s)
  else
    let value ← widenToVector pattern (← synth arg.check none)
    let table ← types
    let (fits, s) := if value.type.isAbsorbing then (true, s) else (table.matchTypes pattern value.type).run s
    if !fits then
      let shown ← build (TypeM.subst s pattern)
      mismatch shown value.type arg.span
    let s := if !fits || value.type.isAbsorbing then bindToError table pattern free s else s
    consume value
    return (value, s)

def checkArgs (pending : List ParamId) :
    List ArgReading → List TypeId → Subst → BodyM (List Typed.Expr × Subst)
  | arg :: args, declared :: rest, s => do
    let (value, s) ← checkArg arg declared pending s
    let (values, s) ← checkArgs pending args rest s
    return (value :: values, s)
  | _, _, s => return ([], s)

def genericArgs (name : String) (generics : List Generic) (s : Subst) (span : Span) :
    CheckM (Option (List TypeId)) := do
  let missing := generics.filter fun g => (s.get? g.id).isNone
  if missing.isEmpty then return some (generics.filterMap fun g => s.get? g.id)
  report span (.cannotInfer (missing.map (·.name)) name)
  return none

def checkBounds (generics : List Generic) (args : List TypeId) (span : Span) : CheckM Unit := do
  for (generic, type) in generics.zip args do
    for traitDef in generic.bounds do
      let p ← program
      if !satisfies p env.generics type traitDef then
        report span (.notImplemented (p.defName traitDef) (p.types.display type))

def checkLabels (names : List String) (args : List ArgReading) : CheckM Unit := do
  for (name, arg) in names.zip args do
    match arg.label with
    | some label => if label.name != name then report label.span (.labelMismatch label.name name)
    | none => pure ()

/-! ## Functions -/

/-- A call of a function or method. The bindings of the generics of its implementation are known
as far as the receiver or the path tells them. -/
def callTo (decl : DefId) (s : Subst) (explicit : List TypeReading) (receiver : Option Typed.Expr)
    (args : List ArgReading) (expected : Option TypeId) (span : Span) : BodyM Typed.Expr := do
  env.demand.signature decl span
  let p ← program
  match p.function? decl with
  | none =>
    checkForErrors args
    return .error span
  | some f =>
    let name := p.defName decl
    let s ← bindExplicit env name (f.generics.drop (p.ownerGenerics f)) explicit s span
    if args.length != f.paramTypes.length then
      failCall args span span (.argCount name f.paramTypes.length args.length)
    else
      checkLabels f.paramNames args
      let pending := f.generics.map (·.id)
      let s ← bindExpected f.result pending expected s
      let (values, s) ← checkArgs pending args f.paramTypes s
      match ← genericArgs name f.generics s span with
      | none => return .error span
      | some generics =>
        checkBounds env f.generics generics span
        let result ← build (TypeM.subst s f.result)
        return ⟨.call (.function decl generics) (receiver.toList ++ values), result, span⟩

/-! ## Constructors -/

def placeLabelled (decl : DefId) (name : String) (s : StructDef) :
    List ArgReading → List (Option ArgReading) → BodyM (List (Option ArgReading))
  | [], slots => return slots
  | arg :: rest, slots => do
    match arg.label with
    | none => placeLabelled decl name s rest slots
    | some label =>
      match s.fieldIndex? label.name with
      | none =>
        report label.span (.labelUnknown name label.name)
        let _ ← synth arg.check none
        placeLabelled decl name s rest slots
      | some index =>
        if (slots[index]?.join).isSome then
          report label.span (.labelTwice label.name)
          let _ ← synth arg.check none
          placeLabelled decl name s rest slots
        else
          match (← getThe Checker).fieldSymbols.lookup (decl, index) with
          | some symbol => referTo label.span symbol
          | none => pure ()
          placeLabelled decl name s rest (slots.set index (some arg))

def checkFields (pending : List ParamId) (span : Span) :
    List FieldDef → List (Option ArgReading) → Subst → BodyM (List Typed.Expr × Subst)
  | field :: fields, slot :: slots, s => do
    let (value, s) ← match slot with
      | some arg => checkArg arg field.type pending s
      | none => pure (.error span, s)
    let (values, s) ← checkFields pending span fields slots s
    return (value :: values, s)
  | _, _, s => return ([], s)

def constructFrom (decl : DefId) (name : String) (d : StructDef)
    (slots : List (Option ArgReading)) (s : Subst) (span : Span) : BodyM Typed.Expr := do
  let (values, s) ← checkFields (d.generics.map (·.id)) span d.fields slots s
  match ← genericArgs name d.generics s span with
  | none => return .error span
  | some args =>
    checkBounds env d.generics args span
    let type ← build (TypeM.named decl name args)
    return ⟨.call (.constructor decl) values, type, span⟩

/-- `Point(x: 1, y: 2)` or `Point(1, 2)` -/
def constructor (decl : DefId) (explicit : List TypeReading) (args : List ArgReading)
    (expected : Option TypeId) (span : Span) : BodyM Typed.Expr := do
  let p ← program
  match p.struct? decl with
  | none =>
    checkForErrors args
    return .error span
  | some d =>
    let name := p.defName decl
    let s ← bindExplicit env name d.generics explicit [] span
    let s ← bindExpected d.selfType (d.generics.map (·.id)) expected s
    let labelled := (args.filter (·.label.isSome)).length
    if labelled == 0 then
      if args.length != d.fields.length then
        failCall args span span (.fieldCount name d.fields.length args.length)
      else constructFrom env decl name d (args.map some) s span
    else if labelled != args.length then
      failCall args span span .labelsMixed
    else
      let slots ← placeLabelled decl name d args (d.fields.map fun _ => none)
      let missing := (d.fields.zip slots).filter fun (_, slot) => slot.isNone
      if !missing.isEmpty then
        report span (.fieldsMissing (missing.map fun (field, _) => field.name) name)
      constructFrom env decl name d slots s span

/-! ## Variants -/

def checkPayload (pending : List ParamId) :
    List ArgReading → List TypeId → Subst → BodyM (List Typed.Expr × Subst)
  | arg :: args, declared :: rest, s => do
    match arg.label with
    | some label => report label.span .variantLabel
    | none => pure ()
    let (value, s) ← checkArg arg declared pending s
    let (values, s) ← checkPayload pending args rest s
    return (value :: values, s)
  | _, _, s => return ([], s)

/-- `Shape::Circle(1.0)`, or `Color::Red` when there are no arguments at all. -/
def variantExpr (decl : DefId) (index : Nat) (explicit : List TypeReading) (args : Option (List ArgReading))
    (expected : Option TypeId) (span : Span) : BodyM Typed.Expr := do
  let p ← program
  match p.enum? decl with
  | none => return .error span
  | some d =>
    let name := p.defName decl
    let variant := d.variants.getD index default
    let s ← bindExplicit env name d.generics explicit [] span
    let pending := d.generics.map (·.id)
    let s ← bindExpected d.selfType pending expected s
    let given := args.getD []
    if given.length != variant.payload.length then
      failCall given span span <|
        if args.isNone then .variantNeedsPayload name variant.name variant.payload.length
        else .variantArgCount name variant.name variant.payload.length given.length
    else
      let (values, s) ← checkPayload pending given variant.payload s
      match ← genericArgs name d.generics s span with
      | none => return .error span
      | some args =>
        checkBounds env d.generics args span
        let type ← build (TypeM.named decl name args)
        return ⟨.call (.variant decl index) values, type, span⟩

end Kite.Check
