/-
Values as text without loss: integers with their type, and doubles by their bits.
-/
import Kite.Program
import Kite.Text.Form

namespace Kite.Value.Outline

open Kite.Text (form formString formDouble)

mutual

def value (p : Program) : Value → String
  | .int n ty => s!"{n}:{ty.name}"
  | .float x => form ["float", formDouble x]
  | .bool b => toString b
  | .char c => s!"(char {c.toNat})"
  | .str text => formString text
  | .void => "(void)"
  | .tuple items => form ["tuple", Text.sequence (values p items)]
  | .sequence items => form ["seq", Text.sequence (values p items)]
  | .none => "none"
  | .some inner => form ["some", value p inner]
  | .struct decl fields => form ["struct", p.defName decl, Text.sequence (values p fields)]
  | .variant decl index fields =>
    form ["variant", p.defName decl, toString index, Text.sequence (values p fields)]

def values (p : Program) : List Value → List String
  | [] => []
  | v :: rest => value p v :: values p rest

end

end Kite.Value.Outline
