/-
Parts of values and values made of parts: fields, elements, slices, tuples and sequences.
-/
import Kite.Check.Body

namespace Kite.Check

/-! ## Parts -/

def structField? (p : Program) (type : TypeId) (name : String) : Option (DefId × Nat × TypeId × Subst) :=
  match p.types.shape type with
  | .named decl _ args => do
    let s ← p.struct? decl
    let index ← s.fieldIndex? name
    let field ← s.fields[index]?
    return (decl, index, field.type, Program.bindings s.generics args)
  | _ => none

def fieldExpr (base : ExprCheck) (name : Ident) (span : Span) : BodyM Typed.Expr := do
  let base ← synth base none
  let p ← program
  let type := p.types.stripViews base.type
  if type.isAbsorbing then return .error span
  match structField? p type name.name with
  | some (decl, index, fieldType, s) =>
    let type ← build (TypeM.subst s fieldType)
    match (← getThe Checker).fieldSymbols.lookup (decl, index) with
    | some symbol => referTo name.span symbol
    | none => pure ()
    return ⟨.field base index name.name, type, span⟩
  | none =>
    report name.span (.noField name.name (p.types.display type))
    return .error span

def tupleItem? (table : TypeTable) (type : TypeId) (index : Nat) : Option TypeId :=
  match table.shape type with
  | .tuple items => items[index]?
  | _ => none

def tupleIndexExpr (base : ExprCheck) (index : Nat) (indexSpan span : Span) : BodyM Typed.Expr := do
  let base ← synth base none
  let table ← types
  let type := table.stripViews base.type
  if type.isAbsorbing then return .error span
  match tupleItem? table type index with
  | some item => return ⟨.tupleIndex base index, item, span⟩
  | none =>
    report indexSpan (.noField (toString index) (table.display type))
    return .error span

def indexOperand (check : ExprCheck) : BodyM Typed.Expr := do
  let value ← synth check (some .usize)
  let table ← types
  if !table.isInteger value.type && !value.type.isAbsorbing then
    report value.span (.indexNotInteger (table.display value.type))
  return value

/-- `base[start..stop]` -/
def sliceExpr (base start stop : ExprCheck) (inclusive : Bool) (span : Span) : BodyM Typed.Expr := do
  let base ← synth base none
  let table ← types
  let type := table.stripViews base.type
  let start ← indexOperand start
  let stop ← indexOperand stop
  let result ← match table.shape type with
    | .string => pure .string
    | .vector element | .array element _ => build (TypeM.vector element)
    | .error | .never => pure .error
    | _ => do
      report span (.sliceOf (table.display type))
      pure .error
  return ⟨.slice base start stop inclusive, result, span⟩

def indexExpr (base index : ExprCheck) (span : Span) : BodyM Typed.Expr := do
  let base ← synth base none
  let table ← types
  let type := table.stripViews base.type
  let index ← indexOperand index
  let element ← match table.shape type with
    | .vector element | .array element _ => pure element
    | .string => pure .u8
    | .error | .never => pure .error
    | _ => do
      report span (.indexInto (table.display type))
      pure .error
  return ⟨.index base index, element, span⟩

/-- `inner!` -/
def unwrapExpr (inner : ExprCheck) (expected : Option TypeId) (span : Span) : BodyM Typed.Expr := do
  let hint ← expected.mapM fun type => build (TypeM.optional type)
  let value ← synth inner hint
  let table ← types
  let type := table.stripViews value.type
  match table.shape type with
  | .optional inner => return ⟨.unwrap value, inner, span⟩
  | .error | .never => return ⟨.unwrap value, .error, span⟩
  | _ =>
    report span (.unwrapOf (table.display type))
    return ⟨.unwrap value, .error, span⟩

/-! ## Aggregates -/

def tupleItems : List ExprCheck → List (Option TypeId) → BodyM (List Typed.Expr × List TypeId)
  | item :: items, hint :: hints => do
    let value ← takeAgainst item hint
    let (values, types) ← tupleItems items hints
    return (value :: values, hint.getD value.type :: types)
  | _, _ => return ([], [])

def tupleExpr (items : List ExprCheck) (expected : Option TypeId) (span : Span) : BodyM Typed.Expr := do
  let table ← types
  let hints := match expected.map fun type => table.shape (literalTarget table type) with
    | some (.tuple types) => if types.length == items.length then types.map some else items.map fun _ => none
    | _ => items.map fun _ => none
  let (values, types) ← tupleItems items hints
  let type ← build (TypeM.tuple types)
  return ⟨.tuple values, type, span⟩

def sequenceHint (table : TypeTable) (expected : Option TypeId) : Option TypeId × Bool :=
  match expected.map fun type => table.shape (literalTarget table type) with
  | some (.vector element) => (some element, true)
  | some (.array element _) => (some element, false)
  | _ => (none, false)

/-- The items of a sequence. The first one that has a type decides for the others when the place
suggests none. -/
def sequenceItems : List ExprCheck → Option TypeId → BodyM (List Typed.Expr × Option TypeId)
  | [], element => return ([], element)
  | item :: items, element => do
    let value ← takeAgainst item element
    let element := if element.isNone && value.type != .never then some value.type else element
    let (values, element) ← sequenceItems items element
    return (value :: values, element)

def sequenceType (vector : Bool) (element : TypeId) (length : Nat) : TypeM TypeId :=
  if vector then TypeM.vector element else TypeM.array element length

def sequenceExpr (items : List ExprCheck) (expected : Option TypeId) (span : Span) : BodyM Typed.Expr := do
  let (hint, vector) := sequenceHint (← types) expected
  if items.isEmpty && hint.isNone then
    report span .untypedLiteral
    return .error span
  let (values, element) ← sequenceItems items hint
  let type ← build (sequenceType vector (element.getD .error) items.length)
  return ⟨.sequence values, type, span⟩

def fillLength (env : Env) (count : Typed.Expr) : BodyM (Option TypeId) := do
  match count.kind with
  | .constParam id => return (env.param? id).map (·.type)
  | _ =>
    match (← env.demand.evaluate count (← get).locals.size).bind Value.int? with
    | none => return none
    | some value =>
      if 0 ≤ value ∧ value < pow2 64 then return some (← build (TypeM.const value.toNat))
      else return none

/-- `[value; count]` -/
def fillExpr (env : Env) (value count : ExprCheck) (expected : Option TypeId) (span : Span) : BodyM Typed.Expr := do
  let (hint, vector) := sequenceHint (← types) expected
  let value ← checkAgainst value hint
  let element := hint.getD value.type
  let count ← indexOperand count
  let type ←
    if vector then build (TypeM.vector element)
    else do
      match ← fillLength env count with
      | some length => build (TypeM.intern (.array element length))
      | none => pure .error
  return ⟨.fill value count, type, span⟩

end Kite.Check
