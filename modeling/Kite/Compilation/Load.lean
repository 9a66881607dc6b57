/-
The units of a compilation: those that are given, and the units of the library that they import,
directly or not.
-/
import Kite.Compilation.Failure
import Kite.Eval.Failure
import Kite.Grammar.Unit

namespace Kite

structure SourceUnit where
  name : String
  text : String
  deriving DecidableEq, Inhabited

structure CompileOptions where
  maxDepth : Nat := defaultMaxDepth
  limits : EvalLimits := {}
  emitMain : Bool := true
  library : LibraryRoot := .files Library.bundled

structure LoadedUnit where
  name : String
  parsed : ParsedUnit
  isLibrary : Bool

structure Frontend where
  sources : SourceMap := {}
  units : List LoadedUnit := []

namespace Frontend

def diagnostics (f : Frontend) : List Diagnostic := f.units.flatMap (·.parsed.diagnostics)

def find? (f : Frontend) (name : String) : Option LoadedUnit := f.units.find? (·.name == name)

def add (f : Frontend) (name text : String) (maxDepth : Nat) (isLibrary : Bool) : Frontend :=
  let (file, sources) := f.sources.add name text
  { sources, units := f.units ++ [{ name, parsed := parseUnit file text maxDepth, isLibrary }] }

def wanted (f : Frontend) (library : List LibraryUnit) : List LibraryUnit :=
  let imported := f.units.flatMap fun unit => unit.parsed.module.imports.map (·.unit.name)
  library.filter fun unit => (f.find? unit.name).isNone && imported.contains unit.name

def closeWithin (library : List LibraryUnit) (maxDepth : Nat) : Nat → Frontend → Frontend
  | 0, f => f
  | n + 1, f =>
    match f.wanted library with
    | [] => f
    | batch =>
      closeWithin library maxDepth n
        (batch.foldl (fun f unit => f.add unit.name unit.text maxDepth true) f)

/-- The given units and what they import of the library. Every round adds a unit of the library,
so there are no more rounds than units. -/
def load (units : List SourceUnit) (library : List LibraryUnit) (maxDepth : Nat) : Frontend :=
  let given := units.foldl (fun f unit => Frontend.add f unit.name unit.text maxDepth false) {}
  closeWithin library maxDepth library.length given

end Frontend

def loadUnits (units : List SourceUnit) (options : CompileOptions) : Except ToolError Frontend := do
  let library ← options.library.load
  return Frontend.load units library options.maxDepth

end Kite
