/-
Statements and blocks. A statement gives the checked statements it stands for and whether control
never continues after it.
-/
import Kite.Check.Branches

namespace Kite.Check

variable (env : Env)

/-! ## Blocks -/

def sequenceStmts : List StmtCheck → StmtCheck
  | [] => return ([], false)
  | stmt :: rest => do
    let (first, firstDiverges) ← stmt
    let (others, otherDiverges) ← sequenceStmts rest
    return (first ++ others, firstDiverges || otherDiverges)

def blockType (hasTail diverges : Bool) (tailType : TypeId) (expected : Option TypeId)
    (span : Span) : CheckM TypeId := do
  if tailType == .never || (diverges && !hasTail) then return .never
  match expected with
  | none => return tailType
  | some expected =>
    if !hasTail && expected != .void then mismatch expected .void span
    return expected

/-- A block in a scope of its own. Where no value is wanted the tail is one more statement. -/
def checkBlock (stmts : StmtCheck) (tail : Option ExprCheck) (span : Span) : BlockCheck :=
  fun expected => do
    let (stmts, diverges, last, tailType) ← inScope do
      let (stmts, diverges) ← stmts
      match tail with
      | none => return (stmts, diverges, none, .void)
      | some tail =>
        if expected == some .void then
          let value ← tail .effect
          return (stmts ++ [.expr value], diverges, none, value.type)
        else
          let value ← checkAgainst tail expected
          return (stmts, diverges, some value, value.type)
    let type ← blockType tail.isSome diverges tailType expected span
    return ({ stmts, tail := last }, type)

/-! ## Simple statements -/

def letStmt (name : Ident) (isMut : Bool) (type : Option (CheckM TypeId)) (init : ExprCheck) : StmtCheck := do
  let annotated ← match type with
    | some type => do pure (some (← type))
    | none => pure none
  let value ← takeAgainst init annotated
  let id ← declareLocal name (annotated.getD value.type) isMut .local_
  return ([.letDecl id value], value.type == .never)

def exprStmt (check : ExprCheck) : StmtCheck := do
  let value ← check .effect
  return ([.expr value], value.type == .never)

def deferStmt (inner : StmtCheck) : StmtCheck := do
  let (stmts, _) ← inner
  return (stmts.map .defer, false)

def deferredLet (span : Span) : StmtCheck := do
  report span .deferredLet
  return ([], false)

/-! ## Loops -/

def loopBody (body : BlockCheck) (firstInner : Nat) : BodyM (Typed.Block × Bool) := do
  let before := (← get).moves
  modify fun s => { s with loops := false :: s.loops }
  let (block, _) ← body (some .void)
  let broke := (← get).loops.headD false
  modify fun s => { s with loops := s.loops.tail }
  checkLoopMoves before firstInner
  return (block, broke)

def whileStmt (cond : ExprCheck) (body : BlockCheck) : StmtCheck := do
  let cond ← checkAgainst cond (some .bool)
  let (body, _) ← loopBody body (← get).locals.size
  return ([.whileLoop cond body], false)

def loopStmt (body : BlockCheck) : StmtCheck := do
  let (body, broke) ← loopBody body (← get).locals.size
  return ([.loop body], !broke)

/-- The bounds of a range. A number as written takes the type of the other bound. -/
def rangeBounds (start stop : ExprCheck) (startPlain stopPlain : Bool) : BodyM (Typed.Expr × Typed.Expr) := do
  if startPlain && !stopPlain then
    let stop ← synth stop none
    let start ← synth start (some stop.type)
    return (start, stop)
  else
    let start ← synth start none
    let stop ← synth stop (some start.type)
    return (start, stop)

def rangeType (start stop : TypeId) (span : Span) : CheckM TypeId := do
  let table ← types
  match table.join start stop with
  | some type =>
    if table.isInteger type || table.containsError type then return type
    report span (.rangeBounds (table.display start) (table.display stop))
    return .error
  | none =>
    report span (.rangeBounds (table.display start) (table.display stop))
    return .error

def bindingLoop (binding : Ident) (type : TypeId) (body : BlockCheck) (firstInner : Nat) :
    BodyM (LocalId × Typed.Block) :=
  inScope do
    let id ← declareLocal binding type false .local_
    let (body, _) ← loopBody body firstInner
    return (id, body)

def forRangeStmt (binding : Ident) (start stop : ExprCheck) (startPlain stopPlain : Bool)
    (inclusive : Bool) (rangeSpan : Span) (body : BlockCheck) : StmtCheck := do
  let firstInner := (← get).locals.size
  let (start, stop) ← rangeBounds start stop startPlain stopPlain
  let type ← rangeType start.type stop.type rangeSpan
  let (id, body) ← bindingLoop binding type body firstInner
  return ([.forRange id start stop inclusive body], false)

def elementType (type : TypeId) (span : Span) : CheckM TypeId := do
  let table ← types
  match table.shape type with
  | .vector element | .array element _ => return element
  | .error | .never => return .error
  | _ =>
    report span (.iterate (table.display type))
    return .error

def forEachStmt (binding : Ident) (iterable : ExprCheck) (body : BlockCheck) : StmtCheck := do
  let firstInner := (← get).locals.size
  let iterable ← synth iterable none
  let element ← elementType ((← types).stripViews iterable.type) iterable.span
  let (id, body) ← bindingLoop binding element body firstInner
  return ([.forEach id iterable body], false)

/-! ## Compile-time statements -/

def assertionText (message : Option Typed.Expr) (locals : Nat) : CheckM (Option String) := do
  match message with
  | none => return some "condition is false"
  | some ⟨.str text, _, _⟩ => return some text
  | some message =>
    match ← env.demand.evaluate message locals with
    | some (.str text) => return some text
    | some other => return some ((← program).showValue other)
    | none => return none

def checkAssertion (condition : ExprCheck) (conditionSpan : Span)
    (message : Option ExprCheck) : BodyM Unit := do
  let condition ← checkAgainst condition (some .bool)
  let message ← message.mapM fun message => checkAgainst message (some .string)
  let locals := (← get).locals.size
  match (← env.demand.evaluate condition locals).bind Value.bool? with
  | some false =>
    match ← assertionText env message locals with
    | some text => reportFailure { error := .assertionFailed text, span := conditionSpan }
    | none => return
  | _ => return

def assertStmt (condition : ExprCheck) (conditionSpan : Span) (message : Option ExprCheck) : StmtCheck := do
  checkAssertion env condition conditionSpan message
  return ([], false)

/-- `comptime if`: only the branch that the condition selects is checked. -/
def comptimeIfStmt (cond : ExprCheck) (thenBlock : BlockCheck) (elseBranch : StmtCheck)
    (span : Span) : StmtCheck := do
  let cond ← checkAgainst cond (some .bool)
  match (← env.demand.evaluate cond (← get).locals.size).bind Value.bool? with
  | some true =>
    let (block, type) ← thenBlock (some .void)
    return ([.expr ⟨.block block, type, span⟩], type == .never)
  | some false => elseBranch
  | none => return ([], false)

end Kite.Check
