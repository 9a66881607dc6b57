/-
Settling declarations: the body of a function, the type and the value of a global. Each is settled
when it is first asked for, which may be while another one is being checked. A declaration is
entered only while it is pending, so the nesting of demands is bounded by the number of
declarations.
-/
import Kite.Check.Tree

namespace Kite.Check

variable (d : Demand)

/-! ## Functions -/

def receiverText : Option Receiver → List String
  | some .view => ["this"]
  | some .mutable => ["mut this"]
  | none => []

def functionDetail (p : Program) (id : DefId) : String :=
  match p.function? id with
  | none => ""
  | some f =>
    let params := receiverText f.receiver ++ (f.paramNames.zip f.paramTypes).map
      fun (name, type) => name ++ ": " ++ p.types.display type
    let generics :=
      if f.generics.isEmpty then ""
      else "<" ++ ", ".intercalate (f.generics.map (·.name)) ++ ">"
    "function " ++ p.defName id ++ generics ++ "(" ++ ", ".intercalate params ++ ") -> " ++
      p.types.display f.result

def declareParam (name : Ident) (type : TypeId) (isMut : Bool) : BodyM LocalId := do
  let id ← declareLocal name type isMut .param
  modify fun s => { s with params := s.params ++ [id] }
  return id

def checkFunction (env : Env) (f : FunctionDef) (decl : FunctionDecl) (result : Option TypeId) : CheckM Typed.Body :=
  runBody (some (result.getD .error)) do
    match decl.receiver, f.selfType with
    | some (kind, span), some selfType =>
      let id ← declareParam { name := "this", span } selfType (kind == .mutable)
      modify fun s => { s with thisLocal := some id }
    | _, _ => pure ()
    for (param, type) in decl.params.zip f.paramTypes do
      let _ ← declareParam param.name type param.isMut
    match decl.body with
    | .block block => blockExpr (blockCheck env block) block.span result
    | .expr expr => checkAgainst (exprCheck env expr) result
    | .none => return .void decl.span

def modifyFunction (id : DefId) (f : FunctionDef → FunctionDef) : CheckM Unit :=
  modifyProgram (·.modifyKind id fun
    | .function g => .function (f g)
    | kind => kind)

def completeFunction (id : DefId) (pending : PendingFunction) (f : FunctionDef) : CheckM Unit := do
  setStage id .inProgress
  let env : Env := { demand := d, unit := pending.unit, generics := f.generics }
  let result := if pending.infersResult then none else some f.result
  let body ← checkFunction env f pending.decl result
  modifyFunction id fun f =>
    { f with
      result := if pending.infersResult then body.expr.type else f.result
      body := some body }
  if pending.infersResult then setDetail id (functionDetail (← program) id)
  setStage id .done

def settleFunction (id : DefId) : CheckM Unit := do
  match ← stageOf id, (← get).functions.lookup id, (← program).function? id with
  | some .pending, some pending, some f => completeFunction d id pending f
  | _, _, _ => return

/-! ## Globals -/

def modifyGlobal (id : DefId) (f : GlobalDef → GlobalDef) : CheckM Unit :=
  modifyProgram (·.modifyKind id fun
    | .const g => .const (f g)
    | .static g => .static (f g)
    | kind => kind)

def settleGlobalType (id : DefId) : CheckM TypeId := do
  let current := (((← program).global? id).map (·.type)).getD .error
  match (← get).globals.lookup id with
  | none => return current
  | some pending =>
    if pending.typed then return current
    modify fun c => { c with globals := (id, { pending with typed := true }) :: c.globals }
    match pending.type with
    | none => return current
    | some type =>
      let type ← resolveType { demand := d, unit := pending.unit } type
      modifyGlobal id fun g => { g with type }
      setDetail id (← display type)
      return type

/-- The value of an initializer that was checked; none where evaluation fails, or where checking did. -/
def initialValue (pending : PendingGlobal) (body : Typed.Body) (failed : Bool) :
    CheckM (Option Value) := do
  let result ←
    if failed then pure (.error { error := .poisoned, span := pending.value.span })
    else d.tryEvaluate body.expr body.locals.size
  match result with
  | .ok value => return some value
  | .error failure =>
    if !(pending.atRunTime && failure.error.isLate) then reportFailure failure
    return none

def checkInitializer (id : DefId) (pending : PendingGlobal) : CheckM (Typed.Body × Option Value) := do
  let type ← settleGlobalType d id
  let before ← errors
  let expected := if type == .error then none else some type
  let env : Env := { demand := d, unit := pending.unit }
  let body ← runBody none (checkAgainst (exprCheck env pending.value) expected)
  return (body, ← initialValue d pending body (before < (← errors)))

def initializeGlobal (id : DefId) (pending : PendingGlobal) : CheckM (Except EvalError Value) := do
  setStage id .inProgress
  let (body, value) ← checkInitializer d id pending
  modifyGlobal id fun g =>
    { g with
      type := if g.type == .error && pending.type.isNone then body.expr.type else g.type
      init := some body
      value }
  setStage id (if value.isSome then .done else .failed)
  return match value with
    | some value => .ok value
    | none => .error .poisoned

def storedValue (id : DefId) : CheckM (Except EvalError Value) := do
  match ((← program).global? id).bind (·.value) with
  | some value => return .ok value
  | none => return .error .poisoned

def settleGlobal (id : DefId) : CheckM (Except EvalError Value) := do
  match ← stageOf id with
  | some .pending =>
    match (← get).globals.lookup id with
    | some pending => initializeGlobal d id pending
    | none => return .error .poisoned
  | some .inProgress => return .error (.cycle ((← program).defName id))
  | _ => storedValue id

/-! ## Demands -/

/-- What is there when nothing is pending any more. -/
def Demand.idle : Demand where
  function _ := return
  global _ := return .error .poisoned
  globalType id := return (((← program).global? id).map (·.type)).getD .error

def demandWithin : Nat → Demand
  | 0 => .idle
  | n + 1 => {
      function := fun id c => settleFunction (demandWithin n) id c
      global := fun id c => settleGlobal (demandWithin n) id c
      globalType := fun id c => settleGlobalType (demandWithin n) id c }

/-- Demands on the declarations there are. Each is entered once for its body or value, and a
global once more for its type. -/
def demand : CheckM Demand := do
  return demandWithin (2 * (← program).defs.size + 1)

def envIn (unit : UnitId) (generics : List Generic := []) : CheckM Env := do
  return { demand := ← demand, unit, generics }

def ensureFunction (id : DefId) : CheckM Unit := do
  (← demand).function id

def ensureGlobal (id : DefId) : CheckM (Except EvalError Value) := do
  (← demand).global id

def ensureGlobalType (id : DefId) : CheckM TypeId := do
  (← demand).globalType id

end Kite.Check
