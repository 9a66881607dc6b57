/-
The emission of blocks, conditionals, `match` and `return`.
-/
import Kite.Emission.Lowered
import Kite.Emission.Definitions

namespace Kite.Emission

/-! ## Patterns as tests -/

/-- The conditions and bindings of a pattern. Without conditions it always matches. -/
structure PatternTest where
  conditions : List String := []
  bindings : List (LocalId × String) := []
  deriving Inhabited

def PatternTest.and (a b : PatternTest) : PatternTest :=
  { conditions := a.conditions ++ b.conditions, bindings := a.bindings ++ b.bindings }

def PatternTest.of (condition : String) : PatternTest := { conditions := [condition] }

inductive VariantTest where
  | number (condition : String)
  | payload (members : List TypeId)
  | unknown

def variantTest (subject : String) (id : TypeId) (decl : DefId) (index : Nat) : EmitM VariantTest := do
  let name ← typeName id
  match (← program).enum? decl with
  | none => return .unknown
  | some e =>
    if e.isPlain then
      let variant := ((e.variants[index]?).map (·.name)).getD ""
      return .number s!"{subject} == {name}::{escapeIdent variant}"
    else return .payload (← memberTypes id index)

mutual

def patternTest : Typed.Pattern → String → TypeId → EmitM PatternTest
  | .wildcard, _, _ => return {}
  | .binding id, subject, _ => return { bindings := [(id, subject)] }
  | .int value, subject, type => do
    let ty := ((← types).int? type).getD .i64
    return .of s!"{subject} == {intLiteral ty value}"
  | .bool value, subject, _ => return .of (if value then subject else "!" ++ subject)
  | .char value, subject, _ => return .of s!"{subject} == {charLiteral value}"
  | .str value, subject, _ => return .of s!"{subject} == {stringLiteral value}"
  | .none, subject, _ => return .of s!"!{subject}.has_value()"
  | .some inner, subject, type => do
    let type := ((← types).optionalInner? type).getD .error
    let inner ← patternTest inner s!"(*{subject})" type
    return PatternTest.and (.of s!"{subject}.has_value()") inner
  | .variant decl index fields, subject, type => do
    match ← variantTest subject type decl index with
    | .unknown => return {}
    | .number condition => return .of condition
    | .payload members =>
      let fields ← patternTests fields members s!"std::get<{index}>({subject}.value)._" 0
      return PatternTest.and (.of s!"{subject}.value.index() == {index}") fields

def patternTests : List Typed.Pattern → List TypeId → String → Nat → EmitM PatternTest
  | field :: fields, member :: members, access, position => do
    let first ← patternTest field s!"{access}{position}" member
    return first.and (← patternTests fields members access (position + 1))
  | _, _, _, _ => return {}

end

/-- The condition of alternative tests; none if one of them always matches. -/
def anyTest (tests : List PatternTest) : Option String :=
  if tests.isEmpty || tests.any (·.conditions.isEmpty) then none
  else
    match tests.map fun t => " && ".intercalate t.conditions with
    | [one] => some one
    | several => some (" || ".intercalate (several.map fun c => s!"({c})"))

/-! ## Branches -/

def blockContents (stmts : EmitM Unit) (tail : Option Lowered) (dest : Dest) : EmitM Unit := do
  stmts
  match tail with
  | some tail => tail.into dest
  | none => return

/-- A block. Without statements it is written as its value. -/
def lowerBlockExpr (e : Typed.Expr) (hasStmts : Bool) (stmts : EmitM Unit) (tail : Option Lowered) : Lowered :=
  let contents := blockContents stmts tail
  let into (dest : Dest) : EmitM Unit :=
    if !hasStmts && tail.isNone then return else inBraces "" "" (contents dest)
  let value := match hasStmts, tail with
    | true, _ => controlValue e.type e.escapes into
    | false, some tail => tail.value
    | false, none => return voidText
  { value, place := value, into, branch := contents, elseIf := fun _ => return }

def conditionLine (cond : Lowered) (isFirst : Bool) : EmitM Unit := do
  let cond ← cond.bare
  if isFirst then write (·.openBrace s!"if ({cond}) \x7b") else nextBranch s!"else if ({cond}) "

def elseLines (elseBranch : Option (Typed.Expr × Lowered)) (dest : Dest) : EmitM Unit := do
  match elseBranch with
  | none => return
  | some (⟨.cond cond _ _, _, _⟩, branch) =>
    if cond.escapes then
      nextBranch "else "
      branch.branch dest
    else branch.elseIf dest
  | some (_, branch) =>
    nextBranch "else "
    branch.branch dest

/-- The value that a branch is, if it has no statements and is not control flow itself. -/
def plainValue? : Typed.Expr → Option Typed.Expr
  | ⟨.block ⟨[], some tail⟩, _, _⟩ => plainValue? tail
  | ⟨.block _, _, _⟩ | ⟨.cond .., _, _⟩ | ⟨.matchWith .., _, _⟩ | ⟨.ret _, _, _⟩ | ⟨.brk, _, _⟩
  | ⟨.cont, _, _⟩ => none
  | e => some e

def isChoice (type : TypeId) (thenBranch : Typed.Expr) (elseBranch : Option Typed.Expr) : EmitM Bool := do
  match plainValue? thenBranch, elseBranch.bind plainValue? with
  | some a, some b =>
    let type ← concrete type
    let isVoid ← isVoidLike type
    let aType ← concrete a.type
    let bType ← concrete b.type
    return !isVoid && aType == type && bType == type
  | _, _ => return false

/-- A conditional. In an expression it is a choice between values where that is possible. -/
def lowerCond (e : Typed.Expr) (cond : Lowered) (thenBranch : Typed.Expr × Lowered)
    (elseBranch : Option (Typed.Expr × Lowered)) : Lowered :=
  let lines (isFirst : Bool) (dest : Dest) : EmitM Unit := do
    conditionLine cond isFirst
    thenBranch.2.branch dest
    elseLines elseBranch dest
  let into (dest : Dest) : EmitM Unit := do
    lines true dest
    write (·.closeBrace "\x7d")
  let value : EmitM String := do
    match ← isChoice e.type thenBranch.1 (elseBranch.map (·.1)), elseBranch with
    | true, some (_, elseBranch) =>
      let cond ← cond.value
      let a ← thenBranch.2.value
      let b ← elseBranch.value
      return s!"({cond} ? {a} : {b})"
    | _, _ => controlValue e.type e.escapes into
  { value, place := value, into, branch := into, elseIf := lines false }

structure LoweredArm where
  patterns : List Typed.Pattern
  body : Lowered

def armLine (condition : Option String) (isFirst : Bool) : EmitM Unit :=
  match condition, isFirst with
  | none, true => write (·.openBrace "\x7b")
  | none, false => nextBranch "else "
  | some c, true => write (·.openBrace s!"if ({c}) \x7b")
  | some c, false => nextBranch s!"else if ({c}) "

def bindLocal (id : LocalId) (access : String) : EmitM Unit := do
  let type ← typeText (← localType id)
  let name ← localName id
  line s!"{type} {name} = {access};"

/-- The arms of a `match` on a subject, up to the first that always matches. -/
def armLines (subject : String) (type : TypeId) (dest : Dest) : List LoweredArm → Bool → EmitM Unit
  | [], true => line "kite_rt::unreachable();"
  | [], false => do
    nextBranch "else "
    line "kite_rt::unreachable();"
    write (·.closeBrace "\x7d")
  | arm :: arms, isFirst => do
    let tests ← arm.patterns.mapM fun pattern => patternTest pattern subject type
    let condition := anyTest tests
    armLine condition isFirst
    (tests.flatMap (·.bindings)).forM fun (id, access) => bindLocal id access
    arm.body.branch dest
    match condition with
    | none => write (·.closeBrace "\x7d")
    | some _ => armLines subject type dest arms false

def matchInto (scrutineeType : TypeId) (scrutinee : Lowered) (arms : List LoweredArm) (dest : Dest) : EmitM Unit := do
  let subject ← freshTemp
  let text ← scrutinee.bare
  let type ← concrete scrutineeType
  let type := (← types).stripViews type
  inBraces "" "" do
    line s!"auto const& {subject} = {text};"
    armLines subject type dest arms true

def returnLines (value : Option (TypeId × Lowered)) : EmitM Unit := do
  match value with
  | none => line "return;"
  | some (type, value) =>
    if ← isVoidLike type then
      value.into .discard
      line "return;"
    else value.into .ret

end Kite.Emission
