/-
Interactive sessions. A session keeps one growing unit: each submission is checked against all
that was submitted before it.
-/
import Kite.Compilation.Load
import Kite.Check.Unit

/-! ## Pieces of a program -/

namespace Kite.Check

def takeDiagnostics : CheckM (List Diagnostic) :=
  modifyGet fun c => (c.diagnostics.toList, { c with diagnostics := #[] })

def checkSnippet (unit : UnitId) (stmts : List Stmt) (tail : Option Expr) (span : Span) : CheckM Typed.Body := do
  let env ← envIn unit
  let block : Block := { id := .root, stmts, tail, span }
  runBody none (blockExpr (blockCheck env block) span none)

def runSnippet (body : Typed.Body) : CheckM (Except EvalFailure Value) := do
  (← demand).tryEvaluate body.expr body.locals.size

/-- Declares a binding of a session as a static. It hides an earlier one of its name, and its value
may be known only at run time. -/
def declareBinding (unit : UnitId) (name : Ident) (isMut : Bool) (type : Option TypeExpr)
    (value : Expr) : CheckM Unit := do
  let id ← addDef { name := name.name, unit, span := name.span, kind := .static (newGlobal isMut) }
  modify fun c => { c with scopes := c.scopes.modify unit.index (·.rebind name.name id) }
  let _ ← defineSymbol (some id) name .static ""
  registerGlobal id { unit, type, value, typed := false, atRunTime := true }
  let _ ← ensureGlobal id
  let type ← ensureGlobalType id
  setDetail id (← display type)

end Kite.Check

/-! ## Sessions -/

namespace Kite

inductive Outcome where
  | value (value : Value) (text type : String)
  | declared (names : List String)
  /-- Something that is computed only when the program runs. -/
  | runtime (body : Typed.Body) (type : String)

structure Submission where
  /-- Absent when an error was reported. -/
  outcome : Option Outcome
  diagnostics : List Diagnostic

structure Session where
  checker : Check.Checker
  unit : UnitId
  sources : SourceMap
  maxDepth : Nat
  library : List LibraryUnit
  submissions : Nat := 0

namespace Session

abbrev SessionM := StateM Session

def unitName : String := "<repl>"

def start (options : CompileOptions) : Except ToolError Session := do
  let library ← options.library.load
  let (file, sources) := SourceMap.add {} unitName ""
  let module : Module := { file, items := [], span := .ofFile file }
  let (unit, checker) := Check.checkUnit unitName module false { limits := options.limits }
  return { checker, unit, sources, maxDepth := options.maxDepth, library }

def program (s : Session) : Program := s.checker.program

def check (x : Check.CheckM α) : SessionM α :=
  modifyGet fun s =>
    let (a, checker) := x.run s.checker
    (a, { s with checker })

def addSource (name text : String) : SessionM FileId :=
  modifyGet fun s =>
    let (file, sources) := s.sources.add name text
    (file, { s with sources })

/-! ## Libraries -/

def loadEach (load : String → SessionM (List Diagnostic)) :
    List ImportDecl → SessionM (List Diagnostic)
  | [] => return []
  | decl :: rest => do
    let first ← load decl.unit.name
    return first ++ (← loadEach load rest)

/-- Checks a unit of the library and the units it imports, once. The units in `loading` are under
way; they are different units of the library, so they are never more than it has. -/
def loadLibrary : Nat → List String → String → SessionM (List Diagnostic)
  | 0, _, _ => return []
  | n + 1, loading, name => do
    let s ← get
    if (s.checker.unitId? name).isSome || loading.contains name then return []
    match s.library.find? (·.name == name) with
    | none => return []
    | some unit =>
      let file ← addSource unit.name unit.text
      let parsed := parseUnit file unit.text s.maxDepth
      let imported ← loadEach (loadLibrary n (unit.name :: loading)) parsed.module.imports
      let checked ← check do
        let _ ← Check.checkUnit unit.name parsed.module true
        Check.takeDiagnostics
      return parsed.diagnostics ++ imported ++ checked

/-! ## Submissions -/

def declareBindings (unit : UnitId) : List Stmt → Check.CheckM (List String × List Stmt)
  | [] => return ([], [])
  | ⟨_, .letDecl name isMut type init, _⟩ :: rest => do
    Check.declareBinding unit name isMut type init
    let (names, others) ← declareBindings unit rest
    return (name.name :: names, others)
  | stmt :: rest => do
    let (names, others) ← declareBindings unit rest
    return (names, stmt :: others)

def evaluate (stmts : List Stmt) (tail : Option Expr) (span : Span) (before : List Diagnostic) :
    SessionM Submission := do
  let unit := (← get).unit
  let (body, checked) ← check do
    let body ← Check.checkSnippet unit stmts tail span
    return (body, ← Check.takeDiagnostics)
  let found := before ++ checked
  let diagnostics := sortDiagnostics found
  if hasErrors found then return { outcome := none, diagnostics }
  let type := (← get).program.types.display body.expr.type
  match ← check (Check.runSnippet body) with
  | .ok value =>
    let text := (← get).program.showValue value
    return { outcome := some (.value value text type), diagnostics }
  | .error failure =>
    if failure.error.isLate then return { outcome := some (.runtime body type), diagnostics }
    return { outcome := none, diagnostics := diagnostics ++ [failure.toDiagnostic] }

/-- Takes a fragment that parses: its imports, its declarations, its bindings, and then the rest. -/
def submitFragment (fragment : Fragment) (span : Span) (parsed : List Diagnostic) : SessionM Submission := do
  let imports := fragment.imports
  let libraries ← loadEach (loadLibrary ((← get).library.length + 1) []) imports
  let before := parsed ++ libraries
  let unit := (← get).unit
  let items := fragment.items.filterMap (·.kind.declaredName)
  let (bound, rest) ← check do
    Check.resolveImports unit imports
    Check.checkItems unit fragment.items
    declareBindings unit fragment.stmts
  if rest.isEmpty && fragment.tail.isNone then
    let found := before ++ (← check Check.takeDiagnostics)
    let names := imports.map (·.localName.name) ++ items.map (·.name) ++ bound
    let outcome := if hasErrors found then none else some (Outcome.declared names)
    return { outcome, diagnostics := sortDiagnostics found }
  else evaluate rest fragment.tail span before

/-- Checks one text against everything submitted before, and runs it as far as possible. -/
def submit (source : String) : SessionM Submission := do
  modify fun s => { s with submissions := s.submissions + 1 }
  let number := (← get).submissions
  let file ← addSource s!"<repl:{number}>" source
  let (fragment, diagnostics) := parseFragment file source (← get).maxDepth
  if hasErrors diagnostics then return { outcome := none, diagnostics }
  let span : Span := { file, start := 0, stop := source.utf8ByteSize }
  submitFragment fragment span diagnostics

end Session

end Kite
