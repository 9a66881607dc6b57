/-
The emission of literals, names, operators, accesses and aggregates. A rule is given its operands in
all their uses and knows nothing of the trees below them.
-/
import Kite.Emission.Lowered

namespace Kite.Emission

variable (type : TypeId)

/-! ## Leaves -/

def lowerVoid : Lowered where
  value := return voidText
  place := return voidText
  into _ := return
  branch _ := return
  elseIf _ := return

def intText (value : Int) : EmitM String := do
  let type ← concrete type
  return intLiteral (((← types).int? type).getD .i64) value

def floatText (value : Double) : EmitM String := do
  let type ← concrete type
  return floatLiteral (((← types).float? type).getD .f64) value

def constParamText (id : ParamId) (span : Span) : EmitM String := do
  let type ← concrete type
  let table ← types
  match ((← read).bindings.get? id).map table.shape with
  | some (.const value) => return intLiteral ((table.int? type).getD .usize) value
  | _ => violation "unbound const parameter" span

def functionText (decl : DefId) (args : List TypeId) : EmitM String := do
  functionName decl (← args.mapM concrete)

/-! ## Operators -/

/-- Arithmetic on small integers gives a larger type, which is converted back. -/
def narrow (text : String) : EmitM String := do
  match (← types).int? type with
  | some ty => return if ty.bits < 32 then s!"static_cast<{intType ty}>({unparen text})" else text
  | none => return text

/-- A view is a reference, which binds directly. -/
def unaryText (op : UnaryOp) (type operandType : TypeId) (operand : Lowered) : EmitM String := do
  let type ← concrete type
  let operandType ← concrete operandType
  let text ← operand.value
  match op with
  | .neg => narrow type s!"(-{text})"
  | .not => return s!"(!{text})"
  | .bitNot => narrow type s!"(~{text})"
  | .view | .mutView => return text
  | .deref =>
    match (← types).shape operandType with
    | .raw _ => return s!"(*{text})"
    | _ => return text

def binaryText (op : BinaryOp) (type leftType : TypeId) (left right : Lowered) : EmitM String := do
  let type ← concrete type
  let leftType ← concrete leftType
  let a ← left.value
  let b ← right.value
  let table ← types
  if op == .rem && (table.float? (table.stripViews leftType)).isSome then
    return s!"std::fmod({unparen a}, {unparen b})"
  let text := s!"({a} {op.symbol} {b})"
  if op.isLogical || op.isComparison then return text else narrow type text

def assignText (op : Option BinaryOp) (target value : Lowered) : EmitM String := do
  let target ← target.place
  let value ← value.bare
  return s!"{target} {assignSymbol op} {value}"

def lowerAssign (op : Option BinaryOp) (target value : Lowered) : Lowered :=
  let text := assignText op target value
  let plain := Lowered.plain type do return "(" ++ (← text) ++ ")"
  let into : Dest → EmitM Unit
    | .discard => do line ((← text) ++ ";")
    | dest => plain.into dest
  { plain with into, branch := into }

def castText (type innerType : TypeId) (inner : Lowered) : EmitM String := do
  let type ← concrete type
  let source ← concrete innerType
  let text ← inner.value
  if source == type then return text
  let target ← typeText type
  let table ← types
  let cast := match table.shape source, table.shape type with
    | .raw _, .raw _ => "reinterpret_cast"
    | _, _ => "static_cast"
  return s!"{cast}<{target}>({unparen text})"

/-! ## Access -/

def fieldText (baseType : TypeId) (name : String) (base : Lowered) : EmitM String := do
  let access := if ← isShared (← concrete baseType) then "->" else "."
  return (← base.value) ++ access ++ escapeIdent name

def elementPlace (base index : Lowered) : EmitM String := do
  let base ← base.place
  let index ← index.bare
  return s!"kite_rt::at({base}, {index})"

/-- A byte of a string is unsigned. -/
def elementValue (baseType : TypeId) (base index : Lowered) : EmitM String := do
  let baseType ← concrete baseType
  let text ← elementPlace base index
  return if (← types).stripViews baseType == .string then s!"static_cast<uint8_t>({text})" else text

def lowerIndex (type baseType : TypeId) (base index : Lowered) : Lowered :=
  { Lowered.plain type (elementValue baseType base index) with place := elementPlace base index }

def sliceText (base start stop : Lowered) (inclusive : Bool) : EmitM String := do
  let base ← base.bare
  let start ← start.bare
  let stop ← stop.value
  let stop := if inclusive then stop ++ " + 1" else unparen stop
  return s!"kite_rt::slice({base}, {start}, {stop})"

/-! ## Aggregates -/

def bareAll (items : List Lowered) : EmitM (List String) := items.mapM Lowered.bare

def wrapText (inner : Lowered) : EmitM String := do
  let type ← concrete type
  let inner ← inner.bare
  return (← typeText type) ++ "(" ++ inner ++ ")"

def sequenceText (items : List Lowered) : EmitM String := do
  let type ← concrete type
  let items ← bareAll items
  return (← typeText type) ++ braced (commas items)

def fillText (value count : Lowered) : EmitM String := do
  let type ← concrete type
  let value ← value.bare
  match (← types).shape type with
  | .array element length =>
    let element ← typeText element
    let length ← typeText length
    return s!"kite_rt::fill<{element}, {length}>({value})"
  | _ =>
    let count ← count.bare
    let text ← typeText type
    return s!"{text}({count}, {value})"

end Kite.Emission
