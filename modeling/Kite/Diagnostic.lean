/-
Messages about a program. A diagnostic is a value, not a failure: every part of the compiler
collects them and goes on. A compilation has failed as soon as one of them is an error.
-/
import Kite.Source.Text

namespace Kite

inductive Severity where
  | error
  | warning
  | note
  deriving DecidableEq, Inhabited

def Severity.label : Severity → String
  | .error => "error"
  | .warning => "warning"
  | .note => "note"

inductive Category where
  | lexical
  | grammar
  | nameResolution
  | type
  | genericBinding
  | constEval
  /-- Import cycles, a missing entry point and other questions of the compilation as a whole. -/
  | driver
  deriving DecidableEq, Inhabited

structure Related where
  span : Span
  message : String
  deriving DecidableEq, Inhabited

structure Diagnostic where
  severity : Severity
  category : Category
  code : Option String := none
  message : String
  span : Span
  related : List Related := []
  notes : List String := []
  deriving DecidableEq, Inhabited

variable (d : Diagnostic) (ds : List Diagnostic) (sources : SourceMap)

namespace Diagnostic

def error (category : Category) (code : String) (span : Span) (message : String) : Diagnostic :=
  { severity := .error, category, code := some code, message, span }

def withRelated (span : Span) (message : String) : Diagnostic :=
  { d with related := d.related ++ [{ span, message }] }

def withNote (note : String) : Diagnostic := { d with notes := d.notes ++ [note] }

def isError : Bool := d.severity == .error

def heading : String :=
  match d.code with
  | some code => s!"{d.severity.label}[{code}]"
  | none => d.severity.label

def summary : String :=
  s!"{d.heading}: {d.message} at {d.span.line}:{d.span.column}"

end Diagnostic

/-! ## Collections -/

def hasErrors : Bool := ds.any (·.isError)

def errorCount : Nat := ds.countP (·.isError)

def Diagnostic.notAfter (a b : Diagnostic) : Bool :=
  let key (d : Diagnostic) := (d.span.file.index, d.span.start, d.span.stop)
  let (f, s, e) := key a
  let (f', s', e') := key b
  f < f' || f == f' && (s < s' || s == s' && e ≤ e')

/-- By position; diagnostics at one place keep their order. -/
def sortDiagnostics : List Diagnostic := ds.mergeSort Diagnostic.notAfter

/-! ## Rendering -/

def lineNumber (n : Nat) : String :=
  let digits := toString n
  "".pushn ' ' (4 - digits.length) ++ digits

/-- File, position, the line itself and an underline below the span. Nothing for an unknown
file. -/
def renderPlace (span : Span) (label : Option String) : String :=
  match sources.get? span.file with
  | none => ""
  | some file =>
    let (line, column) := if span.line = 0 then file.lineColumn span.start else (span.line, span.column)
    let width := max 1 ((file.slice span).toList.takeWhile (· ≠ '\n')).length
    let underline := "     | " ++ "".pushn ' ' (column - 1) ++ "".pushn '^' width
    s!"  --> {file.name}:{line}:{column}\n" ++
      s!"{lineNumber line} | {file.lineText line}\n" ++
      underline ++ (match label with | some text => s!" {text}" | none => "") ++ "\n"

def Diagnostic.render (d : Diagnostic) : String :=
  s!"{d.heading}: {d.message}\n" ++
    renderPlace sources d.span none ++
    String.join (d.related.map fun r => renderPlace sources r.span (some r.message)) ++
    String.join (d.notes.map fun note => s!"  = note: {note}\n")

def renderAll (ds : List Diagnostic) : String :=
  "\n".intercalate (ds.map (·.render sources))

end Kite
