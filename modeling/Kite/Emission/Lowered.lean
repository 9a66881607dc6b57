/-
Expressions on their way to text. The text of a value can stand in the middle of a statement.
Control flow cannot: an `if`, a `match` or a block that delivers a value there becomes a function
that is called in place, or, if control may jump out of it, statements that fill a temporary before
the statement at hand.
-/
import Kite.Emission.Layout
import Kite.Emission.Parens
import Kite.Typed.Jumps

namespace Kite.Emission

inductive Dest where
  | discard
  | ret
  | assign (target : String)
  deriving DecidableEq, Inhabited

structure Lowered where
  /-- The text of the value; the statements that it needs are written first. -/
  value : EmitM String
  place : EmitM String
  into : Dest → EmitM Unit
  /-- Statements that deliver the value, in braces of their own that are already open. -/
  branch : Dest → EmitM Unit
  elseIf : Dest → EmitM Unit

def voidText : String := "(void)0"

def Lowered.bare (l : Lowered) : EmitM String := do
  return unparen (← l.value)

/-! ## Delivering a value -/

def deliver (type : TypeId) (value : EmitM String) (dest : Dest) : EmitM Unit := do
  let type ← concrete type
  let text := unparen (← value)
  match dest with
  | .discard => line s!"{text};"
  | .ret =>
    if ← isVoidLike type then
      line s!"{text};"
      if type != .never then line "return;"
    else line s!"return {text};"
  | .assign target => if ← isVoidLike type then line s!"{text};" else line s!"{target} = {text};"

def Lowered.plain (type : TypeId) (value : EmitM String) : Lowered where
  value := value
  place := value
  into := deliver type value
  branch := deliver type value
  elseIf _ := return

def controlValue (type : TypeId) (escapes : Bool) (into : Dest → EmitM Unit) : EmitM String := do
  let type ← concrete type
  let isVoid ← isVoidLike type
  if escapes && !isVoid then
    let temp ← freshTemp
    let text ← typeText type
    line s!"{text} {temp}\x7b\x7d;"
    into (.assign temp)
    return temp
  else
    let result ← typeText type
    let margin := Writer.margin (← get).out.indent
    let body ← capture (into .ret)
    return s!"[&]() -> {result} " ++ braced ("\n" ++ body ++ margin) ++ "()"

def Lowered.control (e : Typed.Expr) (into : Dest → EmitM Unit) : Lowered where
  value := controlValue e.type e.escapes into
  place := controlValue e.type e.escapes into
  into := into
  branch := into
  elseIf _ := return

/-- An expression that does not come back. -/
def Lowered.jump (statements : EmitM Unit) : Lowered where
  value := do statements; return voidText
  place := do statements; return voidText
  into _ := statements
  branch _ := statements
  elseIf _ := return

end Kite.Emission
