/-
Declarations: first their names, then their signatures. All names of a unit are known before the
first signature is resolved, so declarations may refer to each other in any order.
-/
import Kite.Check.Settle

namespace Kite.Check

variable (unit : UnitId)

/-! ## Names -/

def placeholderFunction : FunctionDef where
  generics := []
  receiver := none
  selfType := none
  paramNames := []
  paramTypes := []
  result := .error
  body := none
  isComptime := false
  isForeign := false
  owner := none

def symbolKindOf : DefKind → SymbolKind
  | .function _ => .function
  | .struct s => if s.isClass then .class_ else .struct
  | .enum _ => .enum
  | .trait _ => .trait
  | .const _ => .const
  | .static _ => .static

def addDef (d : Def) : CheckM DefId :=
  modifyGet fun c =>
    let (id, program) := c.program.addDef d
    (id, { c with program })

/-- Enters a declaration into the scope of its unit. Of two with one name the unit knows the first. -/
def enterName (name : Ident) (id : DefId) : CheckM Unit := do
  match ((← get).scope unit).define name.name id with
  | .ok scope => modify fun c => { c with scopes := c.scopes.setIfInBounds unit.index scope }
  | .error previous => report name.span (.redefinition (.item name.name) (← getDef previous).span)

def declare (name : Ident) (kind : DefKind) : CheckM DefId := do
  let id ← addDef { name := name.name, unit, span := name.span, kind }
  enterName unit name id
  let _ ← defineSymbol (some id) name (symbolKindOf kind) ""
  return id

def constParamType (name : Ident) (type : TypeExpr) : CheckM TypeId := do
  let type ← resolveType (← envIn unit) type
  let table ← types
  if type != .error && !table.isInteger type then
    report name.span (.constParamNotInteger name.name (table.display type))
  return type

def declareGeneric (param : GenericParam) : CheckM Generic := do
  let id : ParamId := ⟨(← program).nextParam⟩
  modifyProgram fun p => { p with nextParam := p.nextParam + 1 }
  let name := param.name
  let type ← build (TypeM.param id name.name)
  let constType ← match param.kind with
    | .type _ => pure none
    | .const type => do pure (some (← constParamType unit name type))
  let detail ← match constType with
    | some type => do pure (s!"const {name.name}: " ++ (← display type))
    | none => pure name.name
  let _ ← defineSymbol none name .genericParam detail
  return { id, name := name.name, type, bounds := [], constType, span := name.span }

def declareGenerics (params : List GenericParam) : CheckM (List Generic) :=
  params.mapM (declareGeneric unit)

def setSelfType (id : DefId) : CheckM Unit := do
  let d ← getDef id
  let type ← build (TypeM.named id d.name (((← program).genericsOf id).map (·.type)))
  modifyProgram (·.modifyKind id fun
    | .struct s => .struct { s with selfType := type }
    | .enum e => .enum { e with selfType := type }
    | kind => kind)
  setDetail id d.name

/-- Lets a global wait until its type or value is needed. -/
def registerGlobal (id : DefId) (pending : PendingGlobal) : CheckM Unit := do
  modify fun c => { c with globals := (id, pending) :: c.globals }
  setStage id .pending

def declareGlobal (name : Ident) (kind : DefKind) (type : TypeExpr) (value : Expr) : CheckM DefId := do
  let id ← declare unit name kind
  registerGlobal id { unit, type := some type, value, typed := false, atRunTime := false }
  return id

def newGlobal (isMut : Bool) : GlobalDef where
  type := .error
  isMut
  init := none
  value := none

def declareItem (item : Item) : CheckM (Option DefId) := do
  match item.kind with
  | .function decl => return some (← declare unit decl.name (.function placeholderFunction))
  | .struct name generics _ _ isClass =>
    let generics ← declareGenerics unit generics
    let id ← declare unit name (.struct { generics, fields := [], isClass, selfType := .error })
    setSelfType id
    return some id
  | .enum name generics _ _ _ =>
    let generics ← declareGenerics unit generics
    let id ← declare unit name
      (.enum { generics, repr := none, variants := [], selfType := .error })
    setSelfType id
    return some id
  | .trait name _ => return some (← declare unit name (.trait { methods := [] }))
  | .const name type value => return some (← declareGlobal unit name (.const (newGlobal false)) type value)
  | .static name isMut type value =>
    return some (← declareGlobal unit name (.static (newGlobal isMut)) type value)
  | .importUnit _ | .impl .. | .assert .. => return none

/-! ## Bounds -/

def resolveTrait (path : PathType) : CheckM (Option DefId) := do
  let unknown : CheckM (Option DefId) := do
    report path.span (.unknownTrait (pathText path.segments))
    return none
  match ← lookupItem unit path.segments with
  | .failed => return none
  | .notFound => unknown
  | .found decl segments =>
    if segments != path.segments.length then unknown
    else
      match (← getDef decl).kind with
      | .trait _ =>
        if !path.args.isEmpty then report path.span (.traitTakesNoArgs (pathText path.segments))
        return some decl
      | kind =>
        report path.span (.notATrait kind.describe (pathText path.segments))
        return none

def resolveBound (generic : Generic) (param : GenericParam) : CheckM Generic := do
  match param.kind with
  | .const _ => return generic
  | .type bounds =>
    let found ← bounds.mapM (resolveTrait unit)
    return { generic with bounds := generic.bounds ++ found.filterMap id }

def resolveBounds (unit : UnitId) : List Generic → List GenericParam → CheckM (List Generic)
  | generic :: generics, param :: params => do
    let generic ← resolveBound unit generic param
    return generic :: (← resolveBounds unit generics params)
  | generics, _ => return generics

/-! ## Signatures of functions -/

def checkFunctionShape (decl : FunctionDecl) (isMethod : Bool) : CheckM Unit := do
  let name := decl.name.name
  match decl.receiver with
  | some (_, span) => if !isMethod then report span (.thisInFunction name)
  | none => pure ()
  let hasBody := decl.body.isPresent
  if decl.isForeign then
    if hasBody then report decl.name.span (.foreignWithBody name)
    if decl.isComptime then report decl.name.span (.foreignComptime name)
    if !decl.generics.isEmpty then report decl.name.span (.foreignGeneric name)
  else if !hasBody then report decl.name.span (.noBody name)

structure MethodOwner where
  generics : List Generic
  selfType : TypeId
  impl : Nat

/-- Leaves the body of a function for later. -/
def awaitBody (id : DefId) (decl : FunctionDecl) (infersResult : Bool) : CheckM Unit := do
  if decl.body.isPresent && !decl.isForeign then
    modify fun c => { c with functions := (id, { unit, decl, infersResult }) :: c.functions }
    setStage id .pending
  setDetail id (functionDetail (← program) id)

def functionSignature (id : DefId) (decl : FunctionDecl)
    (owner : Option MethodOwner) : CheckM Unit := do
  let own ← declareGenerics unit decl.generics
  let own ← resolveBounds unit own decl.generics
  let generics := ((owner.map (·.generics)).getD []) ++ own
  let env ← envIn unit generics
  let paramTypes ← decl.params.mapM fun param => resolveType env param.type
  let infersResult := decl.result.isNone && decl.body.isExpr
  let result ← match decl.result with
    | some type => resolveType env type
    | none => pure (if infersResult then .error else .void)
  checkFunctionShape decl owner.isSome
  modifyProgram (·.modifyKind id fun _ => .function {
    generics
    receiver := if owner.isSome then decl.receiver.map (·.1) else none
    selfType := owner.map (·.selfType)
    paramNames := decl.params.map (·.name.name)
    paramTypes
    result
    body := none
    isComptime := decl.isComptime
    isForeign := decl.isForeign
    owner := owner.map (·.impl) })
  awaitBody unit id decl infersResult

/-! ## Implementations -/

/-- Adds the methods of an implementation; `seen` has the last place of each name. -/
def addMethods (unit : UnitId) (owner : MethodOwner) :
    List FunctionDecl → List (String × Span) → CheckM (List DefId)
  | [], _ => return []
  | method :: rest, seen => do
    let name := method.name
    match seen.lookup name.name with
    | some previous => report name.span (.redefinition (.method name.name) previous)
    | none => pure ()
    let id ← addDef
      { name := name.name, unit, span := name.span, kind := .function placeholderFunction }
    let _ ← defineSymbol (some id) name .method ""
    functionSignature unit id method (some owner)
    return id :: (← addMethods unit owner rest ((name.name, name.span) :: seen))

def addImpl (generics : List Generic) (traitDef : Option DefId) (target : TypeId)
    (methods : List FunctionDecl) (span : Span) : CheckM Unit := do
  let index := (← program).impls.size
  modifyProgram fun p =>
    { p with impls := p.impls.push { unit, generics, traitDef, target, methods := [], span } }
  let methods ← addMethods unit { generics, selfType := target, impl := index } methods []
  modifyProgram fun p => { p with impls := p.impls.modify index ({ · with methods }) }

/-- `impl Trait for Type { .. }` or `impl Type { .. }` -/
def implBlock (generics : List GenericParam) (traitRef : Option PathType)
    (target : TypeExpr) (methods : List FunctionDecl) (span : Span) : CheckM Unit := do
  let declared ← declareGenerics unit generics
  let generics ← resolveBounds unit declared generics
  let type ← resolveType (← envIn unit generics) target
  let traitDef ← match traitRef with
    | some path => resolveTrait unit path
    | none => pure none
  if ((← types).shape type).isParam then report target.span .implForParam
  else addImpl unit generics traitDef type methods span

def inlineMethods (id : DefId) (methods : List FunctionDecl) (span : Span) : CheckM Unit := do
  if methods.isEmpty then return
  match (← getDef id).kind with
  | .struct s => addImpl unit s.generics none s.selfType methods span
  | .enum e => addImpl unit e.generics none e.selfType methods span
  | _ => return

/-! ## Structs and enums -/

def structFields (env : Env) (id : DefId) : List FieldDecl → List FieldDef → CheckM (List FieldDef)
  | [], before => return before
  | field :: rest, before => do
    let name := field.name
    let type ← resolveType env field.type
    match before.find? (·.name == name.name) with
    | some previous => report name.span (.redefinition (.field name.name) previous.span)
    | none => pure ()
    let symbol ← defineSymbol none name .field (name.name ++ ": " ++ (← display type))
    modify fun c => { c with fieldSymbols := ((id, before.length), symbol) :: c.fieldSymbols }
    structFields env id rest (before ++ [{ name := name.name, type, span := name.span }])

def structSignature (id : DefId) (params : List GenericParam)
    (fields : List FieldDecl) : CheckM Unit := do
  let generics ← resolveBounds unit ((← program).genericsOf id) params
  let fields ← structFields (← envIn unit generics) id fields []
  modifyProgram (·.modifyKind id fun
    | .struct s => .struct { s with generics, fields }
    | kind => kind)

def enumRepr (repr : TypeExpr) : CheckM (Option IntTy) := do
  let type ← resolveType (← envIn unit) repr
  let table ← types
  let int := table.int? type
  if int.isNone && type != .error then report repr.span (.reprNotInteger (table.display type))
  return int

def enumVariants (env : Env) (id : DefId) (enum : String) (hasRepr : Bool) :
    List VariantDecl → List VariantDef → CheckM (List VariantDef)
  | [], before => return before
  | variant :: rest, before => do
    let name := variant.name
    let payload ← variant.payload.mapM (resolveType env)
    match before.find? (·.name == name.name) with
    | some previous => report name.span (.redefinition (.variant name.name) previous.span)
    | none => pure ()
    if hasRepr && !payload.isEmpty then
      report variant.span (.reprWithPayload enum name.name)
    let symbol ← defineSymbol none name .variant s!"{enum}::{name.name}"
    modify fun c => { c with variantSymbols := ((id, before.length), symbol) :: c.variantSymbols }
    enumVariants env id enum hasRepr rest
      (before ++ [{ name := name.name, payload, discriminant := none, span := name.span }])

def enumSignature (id : DefId) (name : Ident) (params : List GenericParam)
    (repr : Option TypeExpr) (variants : List VariantDecl) : CheckM Unit := do
  let generics ← resolveBounds unit ((← program).genericsOf id) params
  let repr ← match repr with
    | some repr => enumRepr unit repr
    | none => pure none
  let variants ← enumVariants (← envIn unit generics) id name.name repr.isSome variants []
  modifyProgram (·.modifyKind id fun
    | .enum e => .enum { e with generics, repr, variants }
    | kind => kind)

structure UsedDiscriminant where
  value : Int
  variant : Ident

/-- The discriminants of variants: explicit ones, or one more than the variant before. -/
def discriminants (unit : UnitId) (repr : IntTy) :
    List VariantDecl → Int → List UsedDiscriminant → CheckM (List (Option Int))
  | [], _, _ => return []
  | variant :: rest, next, used => do
    let value ← match variant.discriminant with
      | none => pure (some next)
      | some expr => do
        let env ← envIn unit
        constInt env (exprCheck env expr) (TypeId.ofInt repr)
    match value with
    | none => return none :: (← discriminants unit repr rest (next + 1) used)
    | some value =>
      let name := variant.name
      if !repr.fits value then
        report name.span (.discriminantRange value name.name repr.name)
      let used ← match used.find? (·.value == value) with
        | some earlier => do
          report name.span
            (.discriminantReused value name.name earlier.variant.name earlier.variant.span)
          pure used
        | none => pure ({ value, variant := name } :: used)
      return some value :: (← discriminants unit repr rest (value + 1) used)

def enumDiscriminants (id : DefId) (variants : List VariantDecl) : CheckM Unit := do
  match (← program).enum? id with
  | none => return
  | some e =>
    if !e.isPlain then
      for variant in variants do
        match variant.discriminant with
        | some value => report value.span .explicitDiscriminant
        | none => pure ()
    else
      let values ← discriminants unit e.reprType variants 0 []
      modifyProgram (·.modifyKind id fun
        | .enum e => .enum { e with
            variants := (e.variants.zip values).map fun (v, discriminant) => { v with discriminant } }
        | kind => kind)

/-! ## Traits -/

/-- Reports a method of a trait that has more than a signature, or the name of one before it. -/
def checkTraitMethod (method : FunctionDecl) (before : List TraitMethod) : CheckM Unit := do
  let name := method.name
  if !method.generics.isEmpty then report name.span (.traitMethodGeneric name.name)
  if method.body.isPresent then report name.span (.traitMethodBody name.name)
  match before.find? (·.name == name.name) with
  | some previous => report name.span (.redefinition (.traitMethod name.name) previous.span)
  | none => return

def traitMethod (env : Env) (method : FunctionDecl) (before : List TraitMethod) : CheckM TraitMethod := do
  checkTraitMethod method before
  let name := method.name
  let params ← method.params.mapM fun param => resolveType env param.type
  let result ← match method.result with
    | some type => resolveType env type
    | none => pure .void
  let table ← types
  let shown := ", ".intercalate (params.map table.display)
  let detail := s!"function {name.name}({shown}) -> " ++ table.display result
  let _ ← defineSymbol none name .method detail
  return { name := name.name, receiver := method.receiver.map (·.1), params, result,
           span := name.span }

def traitMethods (env : Env) : List FunctionDecl → List TraitMethod → CheckM (List TraitMethod)
  | [], before => return before
  | method :: rest, before => do
    let next ← traitMethod env method before
    traitMethods env rest (before ++ [next])

def traitSignature (id : DefId) (methods : List FunctionDecl) : CheckM Unit := do
  let methods ← traitMethods (← envIn unit) methods []
  modifyProgram (·.modifyKind id fun
    | .trait t => .trait { t with methods }
    | kind => kind)

end Kite.Check
