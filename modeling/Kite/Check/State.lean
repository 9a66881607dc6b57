/-
The state of checking: the program as far as it is known, the scopes of its units, and the bodies
that wait to be checked. Function bodies and initializers are checked when they are first needed,
so each has a stage, and one that is under way is never entered again.
-/
import Kite.Check.Problem
import Kite.Eval.Failure
import Kite.Program

namespace Kite.Check

inductive Stage where
  | pending
  | inProgress
  | done
  | failed
  deriving DecidableEq, Inhabited

structure PendingFunction where
  unit : UnitId
  decl : FunctionDecl
  infersResult : Bool

/-- A constant or static whose type and value are found when they are needed. -/
structure PendingGlobal where
  unit : UnitId
  type : Option TypeExpr
  value : Expr
  typed : Bool
  /-- Whether the value may be known only at run time. -/
  atRunTime : Bool

structure DeferredBound where
  generics : List Generic
  owner : DefId
  param : Nat
  type : TypeId
  span : Span

structure Checker where
  program : Program := {}
  scopes : Array ModuleScope := #[]
  unitIds : List (String × UnitId) := []
  diagnostics : Array Diagnostic := #[]
  limits : EvalLimits := {}
  /-- What is known of declarations and their members; the latest entry counts. -/
  functions : List (DefId × PendingFunction) := []
  globals : List (DefId × PendingGlobal) := []
  stages : List (DefId × Stage) := []
  fieldSymbols : List ((DefId × Nat) × SymbolId) := []
  variantSymbols : List ((DefId × Nat) × SymbolId) := []
  /-- Bounds that wait, while the implementations of a unit are not known yet. -/
  deferredBounds : Option (Array DeferredBound) := none

abbrev CheckM := StateM Checker

/-! ## Reading and reporting -/

def emit (diagnostic : Diagnostic) : CheckM Unit :=
  modify fun c => { c with diagnostics := c.diagnostics.push diagnostic }

def report (span : Span) (problem : Problem) : CheckM Unit := emit (problem.toDiagnostic span)

def reportFailure (failure : EvalFailure) : CheckM Unit :=
  if failure.error == .poisoned then return else emit failure.toDiagnostic

def errors : CheckM Nat := do
  return Kite.errorCount (← get).diagnostics.toList

def program : CheckM Program := do
  return (← get).program

def types : CheckM TypeTable := do
  return (← get).program.types

def build (x : TypeM α) : CheckM α :=
  modifyGet fun c =>
    let (a, types) := x.run c.program.types
    (a, { c with program := { c.program with types } })

def modifyProgram (f : Program → Program) : CheckM Unit := modify fun c => { c with program := f c.program }

def display (type : TypeId) : CheckM String := do
  return (← types).display type

def getDef (id : DefId) : CheckM Def := do
  return (← program).getDef id

def stageOf (id : DefId) : CheckM (Option Stage) := do
  return (← get).stages.lookup id

def setStage (id : DefId) (stage : Stage) : CheckM Unit :=
  modify fun c => { c with stages := (id, stage) :: c.stages }

/-! ## Symbols -/

def defineSymbol (decl : Option DefId) (name : Ident) (kind : SymbolKind) (detail : String) : CheckM SymbolId :=
  modifyGet fun c =>
    let (id, symbols) := c.program.symbols.define
      { name := name.name, kind, span := name.span, decl, detail }
    (id, { c with program := { c.program with symbols } })

def referTo (span : Span) (symbol : SymbolId) : CheckM Unit :=
  modifyProgram fun p => { p with symbols := p.symbols.addReference span symbol }

def referToDef (span : Span) (decl : DefId) : CheckM Unit :=
  modifyProgram fun p => { p with symbols := p.symbols.addReferenceTo span decl }

def setDetail (decl : DefId) (detail : String) : CheckM Unit :=
  modifyProgram fun p =>
    match p.symbols.symbolFor? decl with
    | some symbol => { p with symbols := p.symbols.setDetail symbol detail }
    | none => p

/-! ## Units -/

def addUnit (name : String) (file : FileId) (isLibrary : Bool) : CheckM UnitId :=
  modifyGet fun c =>
    let unit : UnitId := ⟨c.program.units.size⟩
    let info : UnitInfo := { name, file, defs := #[], isLibrary }
    (unit, { c with
      program := { c.program with units := c.program.units.push info }
      scopes := c.scopes.push {}
      unitIds := (name, unit) :: c.unitIds })

def Checker.unitId? (c : Checker) (name : String) : Option UnitId := c.unitIds.lookup name

def Checker.scope (c : Checker) (unit : UnitId) : ModuleScope := c.scopes.getD unit.index {}

/-- The imports of a unit, in their order. The imported units have been checked before. -/
def resolveImports (unit : UnitId) : List ImportDecl → CheckM Unit
  | [] => return
  | decl :: rest => do
    match (← get).unitId? decl.unit.name with
    | some target =>
      if target == unit then
        report decl.unit.span (.unresolvedImport decl.unit.name)
      else
        let shown := decl.localName
        modify fun c => { c with scopes := c.scopes.modify unit.index (·.addImport shown.name target) }
        let _ ← defineSymbol none shown .unit s!"import {decl.unit.name}"
    | none => report decl.unit.span (.unresolvedImport decl.unit.name)
    resolveImports unit rest

/-! ## Names of declarations -/

inductive ItemLookup where
  | found (decl : DefId) (segments : Nat)
  | notFound
  | failed

def pathText (path : List Ident) : String := "::".intercalate (path.map (·.name))

def lookupImported (target : UnitId) (name : Ident) : CheckM ItemLookup := do
  match ((← get).scope target).get? name.name with
  | some decl =>
    referToDef name.span decl
    return .found decl 2
  | none =>
    report name.span (.missingInUnit ((← program).unitName target) name.name)
    return .failed

def lookupUnqualified (unit : UnitId) (name : Ident) : CheckM ItemLookup := do
  match lookupModule (← get).scopes unit name.name with
  | .found decl =>
    referToDef name.span decl
    return .found decl 1
  | .notFound => return .notFound
  | .ambiguous units =>
    let names := units.map (← program).unitName
    let first := names.headD ""
    report name.span (.ambiguous name.name names s!"{first}::{name.name}")
    return .failed

/-- Resolves the first segments of a path: `name`, or `unit::name` for an imported unit. -/
def lookupItem (unit : UnitId) : List Ident → CheckM ItemLookup
  | [] => return .notFound
  | [name] => lookupUnqualified unit name
  | first :: second :: _ => do
    let scope := (← get).scope unit
    match scope.get? first.name, scope.import? first.name with
    | none, some target => lookupImported target second
    | _, _ => lookupUnqualified unit first

end Kite.Check
