/-
Compiling a set of units: they are loaded and put in the order of their imports, checked, and
emitted if nothing is wrong.
-/
import Kite.Compilation.Analysis
import Kite.Emission.Output

namespace Kite

structure Compiled where
  sources : SourceMap
  diagnostics : List Diagnostic
  /-- The emitted program, or why it could not be emitted; nothing if the units have errors. -/
  output : Option (Except ToolError String)

namespace Compiled

def text? (c : Compiled) : Option String := c.output.bind (·.toOption)

def failure? (c : Compiled) : Option ToolError :=
  match c.output with
  | some (.error e) => some e
  | _ => none

def success (c : Compiled) : Bool := c.text?.isSome

end Compiled

def hasMain (p : Program) (unit : UnitId) : Bool :=
  match p.units[unit.index]? with
  | some info => info.defs.any fun decl => p.defName decl == "main" && (p.function? decl).isSome
  | none => false

def missingMain (entry : String) (file : FileId) : Diagnostic :=
  { severity := .error
    category := .driver
    code := some "E0902"
    message := s!"entry unit `{entry}` has no `main` function"
    span := .ofFile file
    notes := ["declare `function main() \x7b .. \x7d` or compile as a library"] }

def entryReports (p : Program) (entry : String) (unit : UnitId) : List Diagnostic :=
  if hasMain p unit then []
  else [missingMain entry ((p.units[unit.index]?.map (·.file)).getD default)]

def compile (units : List SourceUnit) (entry : String) (options : CompileOptions) : Except ToolError Compiled := do
  if !units.any (·.name == entry) then throw (.unknownEntry entry)
  let frontend ← loadUnits units options
  let (order, driver) := importOrder frontend.units
  let loaded := frontend.diagnostics ++ driver
  if driver.any (·.isImportCycle) then
    return { sources := frontend.sources, diagnostics := sortDiagnostics loaded, output := none }
  let checker := checkInOrder frontend.units order options.limits
  let unit ← match checker.unitId? entry with
    | some unit => pure unit
    | none => throw (.unknownEntry entry)
  let start := if options.emitMain then entryReports checker.program entry unit else []
  let diagnostics := sortDiagnostics (loaded ++ checker.diagnostics.toList ++ start)
  let output :=
    if hasErrors diagnostics then none
    else some (Emission.generate checker.program unit options.emitMain)
  return { sources := frontend.sources, diagnostics, output }

end Kite
