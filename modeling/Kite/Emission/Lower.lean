/-
The emission of checked trees, by recursion on them: the operands of a node are lowered, and the
rule for the form of the node puts them together.
-/
import Kite.Emission.Branches
import Kite.Emission.Calls

namespace Kite.Emission

/-! ## Statements -/

def letLines (id : LocalId) (init : Typed.Expr) (value : Lowered) : EmitM Unit := do
  let type ← localType id
  let isVoid ← isVoidLike type
  if isVoid || init.type == .never then value.into .discard
  else
    let type ← typeText type
    let text ← value.bare
    let name ← localName id
    line s!"{type} {name} = {text};"

/-- A condition that control may jump out of is evaluated inside the loop. -/
def whileLines (cond : Typed.Expr) (value : Lowered) (body : Dest → EmitM Unit) : EmitM Unit := do
  if cond.escapes then
    inBraces "while (true) " "" do
      let text ← value.bare
      line s!"if (!({text})) break;"
      body .discard
  else
    let text ← value.bare
    inBraces s!"while ({text}) " "" (body .discard)

def rangeLines (id : LocalId) (start stop : Lowered) (inclusive : Bool) (body : Dest → EmitM Unit) : EmitM Unit := do
  let type ← typeText (← localType id)
  let name ← localName id
  let limit ← freshTemp
  let start ← start.bare
  let stop ← stop.bare
  let op := if inclusive then "<=" else "<"
  inBraces s!"for ({type} {name} = {start}, {limit} = {stop}; {name} {op} {limit}; ++{name}) " ""
    (body .discard)

def eachLines (id : LocalId) (iterable : Lowered) (body : Dest → EmitM Unit) : EmitM Unit := do
  let type ← typeText (← localType id)
  let name ← localName id
  let items ← iterable.bare
  inBraces s!"for ({type} const& {name} : {items}) " "" (body .discard)

def deferLines (inner : EmitM Unit) : EmitM Unit := do
  let guard ← freshTemp
  inBraces s!"kite_rt::Defer {guard}([&]() " ");" inner

/-! ## Trees -/

mutual

def lower : Typed.Expr → Lowered
  | ⟨kind, type, span⟩ => lowerKind kind type span

def lowerKind : Typed.ExprKind → TypeId → Span → Lowered
  | .int value, type, _ => .plain type (intText type value)
  | .float value, type, _ => .plain type (floatText type value)
  | .bool value, type, _ => .plain type (return toString value)
  | .char value, type, _ => .plain type (return charLiteral value)
  | .str value, type, _ => .plain type (return stringLiteral value)
  | .void, _, _ => lowerVoid
  | .none, type, _ => .plain type do return (← bodyTypeText type) ++ braced ""
  | .some inner, type, _ => .plain type (wrapText type (lower inner))
  | .var id, type, _ => .plain type (localName id)
  | .global decl, type, _ => .plain type (baseName decl)
  | .constParam id, type, span => .plain type (constParamText type id span)
  | .functionRef decl args, type, _ => .plain type (functionText decl args)
  | .unary op operand, type, _ => .plain type (unaryText op type operand.type (lower operand))
  | .binary op lhs rhs, type, _ => .plain type (binaryText op type lhs.type (lower lhs) (lower rhs))
  | .assign op target value, type, _ => lowerAssign type op (lower target) (lower value)
  | .range .., type, span => .plain type (violation "range used as a value" span)
  | .cast inner, type, _ => .plain type (castText type inner.type (lower inner))
  | .call callee args, type, span => .plain type (lowerCall callee (lowerArgs args) type span)
  | .field base _ name, type, _ => .plain type (fieldText base.type name (lower base))
  | .tupleIndex base index, type, _ =>
    let base := lower base
    .plain type do return s!"std::get<{index}>(" ++ (← base.bare) ++ ")"
  | .index base index, type, _ => lowerIndex type base.type (lower base) (lower index)
  | .slice base start stop inclusive, type, _ =>
    .plain type (sliceText (lower base) (lower start) (lower stop) inclusive)
  | .unwrap inner, type, _ =>
    let inner := lower inner
    .plain type do return (← inner.value) ++ ".value()"
  | .tuple items, type, _ => .plain type (sequenceText type (lowerAll items))
  | .sequence items, type, _ => .plain type (sequenceText type (lowerAll items))
  | .fill value count, type, _ => .plain type (fillText type (lower value) (lower count))
  | .cond cond thenBranch elseBranch, type, span =>
    lowerCond ⟨.cond cond thenBranch elseBranch, type, span⟩ (lower cond)
      (thenBranch, lower thenBranch) (lowerElse elseBranch)
  | .matchWith scrutinee arms, type, span =>
    .control ⟨.matchWith scrutinee arms, type, span⟩
      (matchInto scrutinee.type (lower scrutinee) (lowerArms arms))
  | .block ⟨stmts, tail⟩, type, span =>
    lowerBlockExpr ⟨.block ⟨stmts, tail⟩, type, span⟩ (!stmts.isEmpty) (lowerStmts stmts)
      (lowerTail tail)
  | .ret value, _, _ => .jump (returnLines (lowerReturned value))
  | .brk, _, _ => .jump (line "break;")
  | .cont, _, _ => .jump (line "continue;")
  | .error, type, span =>
    .plain type (violation "erroneous expression reached code generation" span)

def lowerCall : Typed.Callee → List Arg → TypeId → Span → EmitM String
  | .function decl args, values, _, _ => callFunction decl args values
  | .traitMethod traitDef method selfType, values, _, span => callTraitMethod traitDef method selfType span values
  | .builtin fn, values, _, _ => callBuiltin fn values
  | .builtinMethod method, values, _, _ => callBuiltinMethod method values
  | .indirect callee, values, _, _ => callValue (lower callee) values
  | .constructor _, values, type, _ => callConstructor type values
  | .variant decl index, values, type, _ => callVariant type decl index values

def lowerAll : List Typed.Expr → List Lowered
  | [] => []
  | e :: es => lower e :: lowerAll es

def lowerArgs : List Typed.Expr → List Arg
  | [] => []
  | e :: es => (e.type, lower e) :: lowerArgs es

def lowerElse : Option Typed.Expr → Option (Typed.Expr × Lowered)
  | some e => some (e, lower e)
  | none => none

def lowerTail : Option Typed.Expr → Option Lowered
  | some e => some (lower e)
  | none => none

def lowerReturned : Option Typed.Expr → Option (TypeId × Lowered)
  | some e => some (e.type, lower e)
  | none => none

def lowerArms : List Typed.Arm → List LoweredArm
  | [] => []
  | ⟨patterns, body⟩ :: arms => ⟨patterns, lower body⟩ :: lowerArms arms

def lowerBlock : Typed.Block → Dest → EmitM Unit
  | ⟨stmts, tail⟩, dest => blockContents (lowerStmts stmts) (lowerTail tail) dest

def lowerStmts : List Typed.Stmt → EmitM Unit
  | [] => return
  | s :: ss => do
    lowerStmt s
    lowerStmts ss

def lowerStmt : Typed.Stmt → EmitM Unit
  | .letDecl id init => letLines id init (lower init)
  | .expr e => (lower e).into .discard
  | .whileLoop cond body => whileLines cond (lower cond) (lowerBlock body)
  | .loop body => inBraces "while (true) " "" (lowerBlock body .discard)
  | .forRange id start stop inclusive body => rangeLines id (lower start) (lower stop) inclusive (lowerBlock body)
  | .forEach id iterable body => eachLines id (lower iterable) (lowerBlock body)
  | .defer inner => deferLines (lowerStmt inner)

end

end Kite.Emission
