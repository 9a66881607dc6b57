/-
The emission of calls: of functions and methods, of constructors, and of what is built in.
-/
import Kite.Emission.Operations
import Kite.Instance.Dispatch
import Kite.Emission.Definitions

namespace Kite.Emission

/-! ## Values known while compiling -/

def structText (id : TypeId) (fields : List String) : EmitM String := do
  let name ← typeName id
  let init := name ++ braced (commas fields)
  return if ← isShared id then s!"std::make_shared<{name}>({init})" else init

def variantText (id : TypeId) (decl : DefId) (index : Nat) (payload : List String) : EmitM String := do
  let name ← typeName id
  match (← program).enum? decl with
  | none => return ""
  | some e =>
    let variant := ((e.variants[index]?).map (·.name)).getD ""
    return if e.isPlain then s!"{name}::{escapeIdent variant}"
      else name ++ braced (variantName name variant ++ braced (commas payload))

mutual

def valueText : Value → TypeId → EmitM String
  | .int value own, id => do return intLiteral (((← types).int? id).getD own) value
  | .float value, id => do return floatLiteral (((← types).float? id).getD .f64) value
  | .bool value, _ => return toString value
  | .char value, _ => return charLiteral value
  | .str value, _ => return stringLiteral value
  | .void, _ => return "(void)0"
  | .tuple items, id => do
    let itemTypes := match (← types).shape id with
      | .tuple ids => ids
      | _ => []
    let items ← valueTexts items itemTypes
    return (← typeText id) ++ braced (commas items)
  | .sequence items, id => do
    let element := match (← types).shape id with
      | .vector element | .array element _ => element
      | _ => .error
    let items ← valueTexts items (List.replicate items.length element)
    return (← typeText id) ++ braced (commas items)
  | .none, id => do return (← typeText id) ++ braced ""
  | .some inner, id => do
    let inner ← valueText inner (((← types).optionalInner? id).getD id)
    return (← typeText id) ++ "(" ++ inner ++ ")"
  | .struct _ fields, id => do
    let fields ← valueTexts fields (← memberTypes id 0)
    structText id fields
  | .variant decl index fields, id => do
    let payload ← valueTexts fields (← memberTypes id index)
    variantText id decl index payload

def valueTexts : List Value → List TypeId → EmitM (List String)
  | v :: vs, id :: ids => do
    let text ← valueText v id
    return text :: (← valueTexts vs ids)
  | _, _ => return []

end

/-! ## Calls -/

abbrev Arg := TypeId × Lowered

def argTexts (args : List Arg) : EmitM String := do
  return commas (← bareAll (args.map (·.2)))

def callFunction (decl : DefId) (args : List TypeId) (values : List Arg) : EmitM String := do
  let values ← argTexts values
  let name ← functionText decl args
  return s!"{name}({values})"

def callTraitMethod (traitDef : DefId) (method : String) (selfType : TypeId) (span : Span)
    (values : List Arg) : EmitM String := do
  let values ← argTexts values
  let selfType ← concrete selfType
  let p ← program
  match p.traitMethod? traitDef method selfType with
  | some (decl, args) =>
    let name ← functionName decl args
    return s!"{name}({values})"
  | none => violation s!"no implementation of `{method}` for `{p.types.display selfType}`" span

def callValue (callee : Lowered) (values : List Arg) : EmitM String := do
  let values ← argTexts values
  return (← callee.value) ++ "(" ++ values ++ ")"

def callConstructor (type : TypeId) (values : List Arg) : EmitM String := do
  let type ← concrete type
  let values ← bareAll (values.map (·.2))
  structText type values

def callVariant (type : TypeId) (decl : DefId) (index : Nat) (values : List Arg) : EmitM String := do
  let type ← concrete type
  let values ← bareAll (values.map (·.2))
  variantText type decl index values

def shownText (arg : Arg) : EmitM String := do
  let type ← concrete arg.1
  let text ← arg.2.bare
  match (← program).plainEnum? type with
  | some e => return s!"kite_rt::show(static_cast<{intType e.reprType}>({text}))"
  | none => return s!"kite_rt::show({text})"

def callBuiltin (fn : BuiltinFn) (args : List Arg) : EmitM String := do
  match fn, args with
  | .panic, [] => return "kite_rt::panic()"
  | .panic, message :: _ =>
    let message ← message.2.bare
    return s!"kite_rt::panic({message})"
  | _, [] => return s!"kite_rt::{fn.name}(\"\")"
  | _, format :: rest =>
    let format ← format.2.value
    let rest ← rest.mapM shownText
    return s!"kite_rt::{fn.name}(kite_rt::format({format}, {braced (commas rest)}))"

def callBuiltinMethod (method : BuiltinMethod) (args : List Arg) : EmitM String := do
  let texts ← (args.map (·.2)).mapM Lowered.value
  let receiver := texts.headD ""
  match method with
  | .stringLen | .vectorLen | .arrayLen => return s!"{receiver}.size()"
  | .stringIsEmpty | .vectorIsEmpty => return s!"{receiver}.empty()"
  | .vectorPush =>
    let item := unparen (texts.getD 1 "")
    return s!"{receiver}.push_back({item})"
  | .vectorPop => return s!"kite_rt::pop({unparen receiver})"
  | .optionalHasValue => return s!"{receiver}.has_value()"

end Kite.Emission
