/-
How types are laid out in C++. Vectors, arrays and optionals are those of the standard library,
views are references, the values of classes are shared pointers, plain enums are enumerations, and
other enums are a struct around a variant of the structs of their payloads.
-/
import Kite.Emission.State

namespace Kite.Program

variable (p : Program)

def declOf? (id : TypeId) : Option DefId :=
  match p.types.shape (p.types.stripViews id) with
  | .named decl _ _ => some decl
  | _ => none

def isShared (id : TypeId) : Bool := (p.declOf? id).any p.isClass

def plainEnum? (id : TypeId) : Option EnumDef := do
  let e ← p.enum? (← p.declOf? id)
  if e.isPlain then some e else none

def isVoidLike (id : TypeId) : Bool :=
  match p.types.shape id with
  | .void | .never => true
  | _ => false

/-! ## Spelling -/

open Emission in
def typeTextFrom (n : Naming) (p : Program) : Nat → TypeId → Except ToolError String
  | 0, _ => .ok ""
  | k + 1, id => do
    match p.types.shape id with
    | .error | .param .. =>
      throw (.invariant s!"type `{p.types.display id}` reached code generation" {})
    | .void | .never => return "void"
    | .bool => return "bool"
    | .char => return "char32_t"
    | .string => return "std::string"
    | .int ty => return intType ty
    | .float ty => return floatType ty
    | .named .. =>
      let name := n.typeName p id
      return if p.isShared id then s!"std::shared_ptr<{name}>" else name
    | .const value => return toString value
    | .vector element =>
      let element ← typeTextFrom n p k element
      return s!"std::vector<{element}>"
    | .array element length =>
      let element ← typeTextFrom n p k element
      let length ← typeTextFrom n p k length
      return s!"std::array<{element}, {length}>"
    | .optional inner =>
      let inner ← typeTextFrom n p k inner
      return s!"std::optional<{inner}>"
    | .tuple items =>
      let items ← items.mapM (typeTextFrom n p k)
      return s!"std::tuple<{commas items}>"
    | .view isMut inner =>
      let inner ← typeTextFrom n p k inner
      return if isMut then s!"{inner}&" else s!"{inner} const&"
    | .raw inner =>
      let inner ← typeTextFrom n p k inner
      return s!"{inner}*"
    | .function params result =>
      let params ← params.mapM (typeTextFrom n p k)
      let result ← typeTextFrom n p k result
      return s!"std::function<{result}({commas params})>"

def typeText (n : Naming) (p : Program) (id : TypeId) : Except ToolError String :=
  p.typeTextFrom n (id.index + 1) id

end Kite.Program

namespace Kite.Emission

def typeText (id : TypeId) : EmitM String := do
  (← program).typeText (← read).naming id

def bodyTypeText (id : TypeId) : EmitM String := do
  typeText (← concrete id)

def isVoidLike (id : TypeId) : EmitM Bool := do
  return (← program).isVoidLike id

def isShared (id : TypeId) : EmitM Bool := do
  return (← program).isShared id

/-- A group of members of a concrete type: the fields of a struct or class are its first group, and
the payload of a variant has the index of the variant. -/
def memberTypes (id : TypeId) (group : Nat) : EmitM (List TypeId) := do
  let groups ← build ((← program).concreteGroups id)
  return (groups[group]?).getD []

end Kite.Emission
