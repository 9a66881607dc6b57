/-
Checking a set of units without generating code. Errors never stop the analysis: it keeps what it
could build of a broken program.
-/
import Kite.Check.Unit
import Kite.Compilation.ImportOrder
import Kite.Tree.Parents

namespace Kite

def checkNext (units : List LoadedUnit) (c : Check.Checker) (index : Nat) : Check.Checker :=
  match units[index]? with
  | some unit => (Check.checkUnit unit.name unit.parsed.module unit.isLibrary c).2
  | none => c

def checkInOrder (units : List LoadedUnit) (order : List Nat) (limits : EvalLimits) : Check.Checker :=
  order.foldl (checkNext units) { limits }

/-- Keeps the first of reports with one place, code and message. -/
def uniqueDiagnostics (ds : List Diagnostic) : List Diagnostic :=
  let same (a b : Diagnostic) : Bool := a.span == b.span && a.code == b.code && a.message == b.message
  (ds.foldl (fun (kept : Array Diagnostic) d =>
    if kept.any (same d) then kept else kept.push d) #[]).toList

structure Analysis where
  frontend : Frontend
  program : Program
  diagnostics : List Diagnostic

namespace Analysis

def parents? (a : Analysis) (name : String) : Option ParentMap :=
  (a.frontend.find? name).map fun unit => .ofModule unit.parsed.module

def definitionAt? (a : Analysis) (name : String) (offset : Nat) : Option SymbolDef := do
  let unit ← a.frontend.find? name
  a.program.symbols.definitionAt? unit.parsed.file offset

end Analysis

def analyze (units : List SourceUnit) (options : CompileOptions) : Except ToolError Analysis := do
  let frontend ← loadUnits units options
  let (order, driver) := importOrder frontend.units
  let checker := checkInOrder frontend.units order options.limits
  let all := frontend.diagnostics ++ driver ++ checker.diagnostics.toList
  return { frontend, program := checker.program,
           diagnostics := uniqueDiagnostics (sortDiagnostics all) }

end Kite
