/-
Values as text, for people.
-/
import Kite.Number.Shortest
import Kite.Program
import Kite.Text.Quoted

namespace Kite.Program

mutual

/-- A value the way it would be written in a program, as far as it can be. -/
def showValue (p : Program) : Value → String
  | .int value _ => toString value
  | .float value => value.toText
  | .bool value => toString value
  | .char value => Text.quotedChar value
  | .str value => Text.quotedString value
  | .void => "()"
  | .tuple items => "(" ++ ", ".intercalate (showValues p items) ++ ")"
  | .sequence items => "[" ++ ", ".intercalate (showValues p items) ++ "]"
  | .none => "none"
  | .some inner => "some(" ++ showValue p inner ++ ")"
  | .struct decl fields => p.defName decl ++ "(" ++ ", ".intercalate (showValues p fields) ++ ")"
  | .variant decl index fields =>
    let variant := ((p.enum? decl).bind (·.variants[index]?)).map (·.name)
    let head := p.defName decl ++ "::" ++ variant.getD "?"
    match showValues p fields with
    | [] => head
    | texts => head ++ "(" ++ ", ".intercalate texts ++ ")"

def showValues (p : Program) : List Value → List String
  | [] => []
  | v :: rest => showValue p v :: showValues p rest

end

end Kite.Program
