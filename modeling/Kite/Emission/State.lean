/-
The state of emission: the program, whose table of types grows by the types of instances, the text
so far, and the number of temporaries of the function at hand. Emission fails on a tree that a
checked program does not have.
-/
import Kite.Compilation.Failure
import Kite.Emission.Literal
import Kite.Instance.Name

namespace Kite.Emission

/-! ## Lines -/

structure Writer where
  text : String := ""
  indent : Nat := 0
  deriving DecidableEq, Inhabited

variable (w : Writer)

namespace Writer

def margin (indent : Nat) : String := String.join (List.replicate indent "    ")

def line (text : String) : Writer :=
  { w with text := w.text ++ margin w.indent ++ text ++ "\n" }

def blank : Writer := { w with text := w.text ++ "\n" }

def append (text : String) : Writer := { w with text := w.text ++ text }

def openBrace (text : String) : Writer :=
  let w := w.line text
  { w with indent := w.indent + 1 }

def closeBrace (text : String) : Writer := { w with indent := w.indent - 1 }.line text

def nextBrace (text : String) : Writer :=
  let w := w.closeBrace text
  { w with indent := w.indent + 1 }

end Writer

/-! ## State -/

structure Context where
  naming : Naming
  bindings : Subst := []
  localNames : Array String := #[]
  localTypes : Array TypeId := #[]

structure Emitter where
  program : Program
  out : Writer := {}
  temps : Nat := 0

abbrev EmitM := ReaderT Context (StateT Emitter (Except ToolError))

def violation (message : String) (span : Span) : EmitM α := throw (.invariant message span)

/-! ## Text -/

def write (f : Writer → Writer) : EmitM Unit := modify fun s => { s with out := f s.out }

def line (text : String) : EmitM Unit := write (·.line text)

def blank : EmitM Unit := write (·.blank)

def inBraces (head stop : String) (body : EmitM Unit) : EmitM Unit := do
  write (·.openBrace (head ++ "\x7b"))
  body
  write (·.closeBrace ("\x7d" ++ stop))

def nextBranch (head : String) : EmitM Unit := write (·.nextBrace ("\x7d " ++ head ++ "\x7b"))

/-- The text that `body` writes one level deeper, instead of writing it. -/
def capture (body : EmitM Unit) : EmitM String := do
  let outer := (← get).out
  modify fun s => { s with out := { indent := outer.indent + 1 } }
  body
  let text := (← get).out.text
  modify fun s => { s with out := outer }
  return text

def freshTemp : EmitM String :=
  modifyGet fun s => (s!"kite_t{s.temps}", { s with temps := s.temps + 1 })

/-! ## Types and names -/

def program : EmitM Program := do
  return (← get).program

def types : EmitM TypeTable := do
  return (← get).program.types

def build (x : TypeM α) : EmitM α :=
  modifyGet fun s =>
    let (a, types) := x.run s.program.types
    (a, { s with program := { s.program with types } })

def concrete (id : TypeId) : EmitM TypeId := do
  build (TypeM.subst (← read).bindings id)

def typeName (id : TypeId) : EmitM String := do
  return (← read).naming.typeName (← program) id

def baseName (id : DefId) : EmitM String := do
  return (← read).naming.base (← program) id

def functionName (id : DefId) (args : List TypeId) : EmitM String := do
  return (← read).naming.functionName (← program) id args

def localName (id : LocalId) : EmitM String := do
  return (← read).localNames.getD id.index ""

def localType (id : LocalId) : EmitM TypeId := do
  concrete ((← read).localTypes.getD id.index .error)

end Kite.Emission
