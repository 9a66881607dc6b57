/-
Failures of the tool itself, as opposed to problems in the program that is compiled.
-/
import Kite.Library.Basic
import Kite.Source.Span

namespace Kite

inductive ToolError where
  | missingLibrary (path : String)
  | unknownEntry (name : String)
  /-- The checked program has a shape that emission is not defined for. -/
  | invariant (message : String) (span : Span)
  /-- The program needs more instances of its generics than can be made. -/
  | endlessInstances

def ToolError.message : ToolError → String
  | .missingLibrary path => s!"standard library directory was not found at {path}"
  | .unknownEntry name => s!"entry unit `{name}` is not part of the compilation"
  | .invariant text span => s!"internal compiler error: {text} (at byte {span.start})"
  | .endlessInstances => "the instances of the generic declarations do not end"

def LibraryRoot.load : LibraryRoot → Except ToolError (List LibraryUnit)
  | .none => .ok []
  | .missing path => .error (.missingLibrary path)
  | .files list => .ok (Library.units list)

end Kite
