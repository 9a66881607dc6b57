/-
Evaluation of checked expressions. The evaluator follows the tree; calls of functions go through
`Env.invoke`, which is bounded by the number of calls that may still be nested.
-/
import Kite.Eval.Machine
import Kite.Value.Display

namespace Kite.Eval

structure Env (σ : Type) where
  host : Host σ
  limits : EvalLimits
  invoke : DefId → List TypeId → List Value → Span → EvalM σ Value

def Env.program (env : Env σ) : EvalM σ Program := return env.host.program (← get).host

/-! ## Steps that do not recur -/

/-- The integer type in which a literal of a type is written; enumerations count in their
representation. -/
def intTypeOf (p : Program) (type : TypeId) : IntTy :=
  match p.types.shape (p.types.stripViews type) with
  | .int ty => ty
  | .named decl _ _ => ((p.enum? decl).map (·.reprType)).getD .i64
  | _ => .i64

def readLocal (id : LocalId) (span : Span) : EvalM σ Value := do
  match (← get).frame.locals[id.index]?.join with
  | some v => return v
  | none => fail (.notConstant "an uninitialized local") span

def isMutableStatic : DefKind → Bool
  | .static g => g.isMut
  | _ => false

def readGlobal (env : Env σ) (id : DefId) (span : Span) : EvalM σ Value := do
  if isMutableStatic ((← env.program).getDef id).kind then
    fail (.notConstant "a mutable static") span
  else
    orFail span (← askHost (env.host.globalValue id))

def readConstParam (env : Env σ) (id : ParamId) (type : TypeId) (span : Span) : EvalM σ Value := do
  let p ← env.program
  match ((← get).frame.bindings.get? id).map p.types.shape with
  | some (.const value) => return .int value (intTypeOf p type)
  | _ => fail (.notConstant "an unbound const parameter") span

def resolveParam (p : Program) (bindings : Subst) (type : TypeId) : TypeId :=
  match p.types.shape type with
  | .param id _ => (bindings.get? id).getD type
  | _ => type

def resolveParams (env : Env σ) (types : List TypeId) : EvalM σ (List TypeId) := do
  let p ← env.program
  let bindings := (← get).frame.bindings
  return types.map (resolveParam p bindings)

/-- The value an assignment stores: with an operator, that of the operator on what is there. -/
def assigned (env : Env σ) (op : Option BinaryOp) (current : EvalM σ Value) (value : Value)
    (type : TypeId) (span : Span) : EvalM σ Value :=
  match op with
  | none => return value
  | some op => do
    let current ← current
    orFail span (arith op current value ((← env.program).types.float? type))

def asCondition (v : Value) (span : Span) : EvalM σ Bool :=
  match v with
  | .bool b => return b
  | _ => fail (.notConstant "a non-boolean condition") span

/-- `&&` and `||`, which look at the right operand only if they have to. -/
def logical (op : BinaryOp) (left right : EvalM σ Bool) : EvalM σ Value := do
  let b ← left
  if (if op == .and then !b else b) then return .bool b
  return .bool (← right)

def binary (env : Env σ) (op : BinaryOp) (a b : Value) (type : TypeId) (span : Span) : EvalM σ Value := do
  if op.isComparison then orFail span (compareValues op a b)
  else orFail span (arith op a b ((← env.program).types.float? type))

def fieldOf (v : Value) (index : Nat) (span : Span) : EvalM σ Value :=
  match v with
  | .struct _ fields => return fields.getD index .void
  | _ => fail (.notConstant "this field access") span

def itemOf (v : Value) (index : Nat) (span : Span) : EvalM σ Value :=
  match v with
  | .tuple items => return items.getD index .void
  | _ => fail (.notConstant "this tuple access") span

def unwrapped (v : Value) (span : Span) : EvalM σ Value :=
  match v with
  | .some inner => return inner
  | .none => fail .unwrapNone span
  | other => return other

def maxFill : Int := pow2 32 - 1

/-- `count` copies of a value. Every copy counts as a step. -/
def filled (env : Env σ) (v : Value) (count : Int) (span : Span) : EvalM σ Value := do
  if count < 0 || maxFill < count then fail (.overflow count "usize") span
  else
    countSteps (.ofNat count.toNat) span
    tick env.limits span
    return .sequence (.replicate count.toNat v)

def panicMessage (p : Program) : Option Value → String
  | some (.str text) => text
  | some other => p.showValue other
  | none => ""

def callTraitMethod (env : Env σ) (method : String) (selfType : TypeId)
    (args : EvalM σ (List Value)) (span : Span) : EvalM σ Value := do
  let p ← env.program
  let concrete := resolveParam p (← get).frame.bindings selfType
  match p.findMethod? concrete method with
  | none => fail (.notConstant "this trait method call") span
  | some (decl, _) => env.invoke decl [] (← args) span

/-- `push` with a value, `pop` without. -/
def pushOrPop (pushed : Option Value) (v : Value) : Except EvalError (Value × Value) :=
  match v, pushed with
  | .sequence items, some value => .ok (.void, .sequence (items ++ [value]))
  | .sequence items, none =>
    .ok (match items.getLast? with
      | some last => (.some last, .sequence items.dropLast)
      | none => (.none, .sequence []))
  | _, _ => .error (.notConstant "this receiver")

def pureMethod (method : BuiltinMethod) (v : Value) (span : Span) : EvalM σ Value :=
  match method, v with
  | .stringLen, .str text => return .int text.utf8ByteSize .usize
  | .stringIsEmpty, .str text => return .bool text.isEmpty
  | .vectorLen, .sequence items | .arrayLen, .sequence items => return .int items.length .usize
  | .vectorIsEmpty, .sequence items => return .bool items.isEmpty
  | .optionalHasValue, .some _ => return .bool true
  | .optionalHasValue, .none => return .bool false
  | _, _ => fail (.notConstant "this method call") span

/-- A call, given how its arguments are evaluated: all of them, the first one, or as the receiver
and argument of a builtin method. -/
def call (env : Env σ) (span : Span) (callee : Typed.Callee) (args : EvalM σ (List Value))
    (first : EvalM σ (Option Value)) (method : BuiltinMethod → EvalM σ Value) : EvalM σ Value :=
  match callee with
  | .function decl generics => do
    let generics ← resolveParams env generics
    let values ← args
    env.invoke decl generics values span
  | .traitMethod _ name selfType => callTraitMethod env name selfType args span
  | .builtin .panic => do
    let message ← first
    fail (.panicked (panicMessage (← env.program) message)) span
  | .builtin _ => fail (.notConstant "output") span
  | .builtinMethod m => method m
  | .indirect _ => fail (.notConstant "an indirect call") span
  | .constructor decl => return .struct decl (← args)
  | .variant decl index => return .variant decl index (← args)

/-- The place of an element, whose index was evaluated before the place around it. -/
def elementPlace (index : Int) (base : EvalM σ Place) (span : Span) : EvalM σ Place := do
  let base ← base
  if index < 0 then fail (.indexOutOfBounds index 0) span
  else return { base with path := base.path ++ [.element index.toNat] }

def rangeLoop (id : LocalId) (first last : Value) (inclusive : Bool) (body : EvalM σ Value)
    (span : Span) : EvalM σ Unit :=
  match first, last with
  | .int a ty, .int b _ =>
    let stop := if inclusive then b + 1 else b
    countUp id ty body (stop - a).toNat a
  | _, _ => fail (.notConstant "a non-integer range") span

def eachLoop (id : LocalId) (items : Value) (body : EvalM σ Value) (span : Span) : EvalM σ Unit :=
  match items with
  | .sequence items => forItems id body items
  | _ => fail (.notConstant "iteration over this value") span

/-- The result of a block: that of its tail, if all statements ended normally. -/
def thenTail (result : Except Unwind Unit) (tail : EvalM σ Value) : EvalM σ (Except Unwind Value) :=
  match result with
  | .ok _ => attempt tail
  | .error unwind => return .error unwind

/-- Ends a block: its deferred statements run, the last one first, and then the result of the
block takes effect. A deferred statement that fails takes its place. -/
def leaveBlock (result : Except Unwind Value) (deferred : List (EvalM σ Unit)) : EvalM σ Value := do
  deferred.forM id
  match result with
  | .ok v => return v
  | .error unwind => throw unwind

/-- The place at which a loop without condition counts a step. -/
def loopSpan (body : Typed.Block) : Span := (body.tail.map (·.span)).getD {}

/-! ## The tree -/

section

variable (env : Env σ)

mutual

def evalExpr : Typed.Expr → EvalM σ Value
  | ⟨kind, type, span⟩ => do
    tick env.limits span
    evalKind type span kind

def evalKind (type : TypeId) (span : Span) : Typed.ExprKind → EvalM σ Value
  | .int value => do orFail span (intValue value (intTypeOf (← env.program) type))
  | .float value => return .float value
  | .bool value => return .bool value
  | .char value => return .char value
  | .str value => return .str value
  | .void => return .void
  | .none => return .none
  | .some inner => return .some (← evalExpr inner)
  | .var id => readLocal id span
  | .global id => readGlobal env id span
  | .constParam id => readConstParam env id type span
  | .functionRef _ _ => fail (.notConstant "a function value") span
  | .unary op operand => do orFail span (unary op (← evalExpr operand))
  | .binary op lhs rhs =>
    if op.isLogical then
      logical op
        (do asCondition (← evalExpr lhs) lhs.span)
        (do asCondition (← evalExpr rhs) rhs.span)
    else do
      let a ← evalExpr lhs
      let b ← evalExpr rhs
      binary env op a b type span
  | .assign op target value => do
    let v ← evalExpr value
    let v ← assigned env op (evalExpr target) v target.type span
    let place ← evalPlace target
    modifyPlace place target.span fun _ => .ok (.void, v)
  | .range _ _ _ => fail (.notConstant "a range outside `for`") span
  | .cast inner => do
    let v ← evalExpr inner
    let p ← env.program
    orFail span (cast p v (p.types.shape type))
  | .call callee args =>
    call env span callee (evalExprs args) (evalHead args) fun method =>
      evalMethod span method args
  | .field base index _ => do fieldOf (← evalExpr base) index span
  | .tupleIndex base index => do itemOf (← evalExpr base) index span
  | .index base index => do
    let v ← evalExpr base
    let i ← evalExpr index
    orFail span (element v (i.int?.getD (-1)))
  | .slice base start stop inclusive => do
    let v ← evalExpr base
    let a ← evalExpr start
    let b ← evalExpr stop
    orFail span (slice v (a.int?.getD 0) (b.int?.getD 0 + if inclusive then 1 else 0))
  | .unwrap inner => do unwrapped (← evalExpr inner) span
  | .tuple items => return .tuple (← evalExprs items)
  | .sequence items => return .sequence (← evalExprs items)
  | .fill value count => do
    let v ← evalExpr value
    let n ← evalExpr count
    filled env v (n.int?.getD 0) span
  | .cond cond thenBranch elseBranch => do
    if ← asCondition (← evalExpr cond) cond.span then evalExpr thenBranch
    else evalOrVoid elseBranch
  | .matchWith scrutinee arms => do
    let v ← evalExpr scrutinee
    evalArms v span arms
  | .block body => evalBlock body
  | .ret value => do throw (.ret (← evalOrVoid value))
  | .brk => throw .brk
  | .cont => throw .cont
  | .error => fail .poisoned span

def evalExprs : List Typed.Expr → EvalM σ (List Value)
  | [] => return []
  | e :: rest => do
    let v ← evalExpr e
    return v :: (← evalExprs rest)

def evalOrVoid : Option Typed.Expr → EvalM σ Value
  | none => return .void
  | some e => evalExpr e

def evalHead : List Typed.Expr → EvalM σ (Option Value)
  | [] => return none
  | e :: _ => return some (← evalExpr e)

def evalMethod (span : Span) (method : BuiltinMethod) :
    List Typed.Expr → EvalM σ Value
  | [] => fail (.notConstant "a method without receiver") span
  | receiver :: args =>
    if method.mutates then do
      let pushed ← evalHead args
      let place ← evalPlace receiver
      modifyPlace place span (pushOrPop pushed)
    else do pureMethod method (← evalExpr receiver) span

def evalPlace : Typed.Expr → EvalM σ Place
  | ⟨kind, _, span⟩ => placeOfKind span kind

def placeOfKind (span : Span) : Typed.ExprKind → EvalM σ Place
  | .var id => return { root := id, path := [] }
  | .unary .deref operand => evalPlace operand
  | .field base index _ | .tupleIndex base index => do
    let place ← evalPlace base
    return { place with path := place.path ++ [.field index] }
  | .index base index => do
    let i ← evalExpr index
    elementPlace (i.int?.getD (-1)) (evalPlace base) span
  | _ => fail (.notConstant "assignment to this place") span

def evalArms (v : Value) (span : Span) : List Typed.Arm → EvalM σ Value
  | [] => fail .noArmMatched span
  | ⟨patterns, body⟩ :: rest => do
    if ← matchesAny (← env.program) patterns v then evalExpr body
    else evalArms v span rest

def evalBlock : Typed.Block → EvalM σ Value
  | ⟨stmts, tail⟩ => do
    let (result, deferred) ← evalStmts stmts []
    let result ← thenTail result (evalOrVoid tail)
    leaveBlock result deferred

/-- Runs statements until one does not end normally; also gives the deferred statements met on the
way, the last one first. -/
def evalStmts :
    List Typed.Stmt → List (EvalM σ Unit) → EvalM σ (Except Unwind Unit × List (EvalM σ Unit))
  | [], deferred => return (.ok (), deferred)
  | .defer inner :: rest, deferred => evalStmts rest (evalStmt inner :: deferred)
  | stmt :: rest, deferred => do
    match ← attempt (evalStmt stmt) with
    | .ok _ => evalStmts rest deferred
    | .error unwind => return (.error unwind, deferred)

def evalStmt : Typed.Stmt → EvalM σ Unit
  | .letDecl id init => do bindLocal id (← evalExpr init)
  | .expr e => do
    let _ ← evalExpr e
  | .whileLoop cond body =>
    whileTicking env.limits cond.span do
      if ← asCondition (← evalExpr cond) cond.span then loopBody (evalBlock body)
      else return false
  | .loop body =>
    whileTicking env.limits (loopSpan body) do
      if ← loopBody (evalBlock body) then
        tick env.limits (loopSpan body)
        return true
      return false
  | .forRange id start stop inclusive body => do
    let first ← evalExpr start
    let last ← evalExpr stop
    rangeLoop id first last inclusive (evalBlock body) start.span
  | .forEach id iterable body => do
    let items ← evalExpr iterable
    eachLoop id items (evalBlock body) iterable.span
  | .defer inner => evalStmt inner

end

end

/-! ## Calls -/

def callResult (span : Span) : Except Unwind Value → EvalM σ Value
  | .ok v | .error (.ret v) => return v
  | .error (.fail failure) => throw (.fail failure)
  | .error .brk | .error .cont => fail (.notConstant "`break` outside a loop") span

/-- Runs the body of a call in its own frame, one call deeper. -/
def inFrame (frame : Frame) (x : EvalM σ Value) : EvalM σ (Except Unwind Value) := do
  let caller := (← get).frame
  modify fun m => { m with frame, depth := m.depth + 1 }
  let result ← attempt x
  modify fun m => { m with frame := caller, depth := m.depth - 1 }
  return result

def callFrame (body : Typed.Body) (bindings : Subst) (args : List Value) : Frame :=
  (body.params.zip args).foldl (fun frame (id, v) => frame.bind id v)
    (.ofSize body.locals.size bindings)

/-- A call, where `n` is a bound on the calls inside it. -/
def invoke (host : Host σ) (limits : EvalLimits) :
    Nat → DefId → List TypeId → List Value → Span → EvalM σ Value
  | n, decl, generics, args, span => do
    let p := host.program (← get).host
    match p.function? decl with
    | none => fail (.notConstant "a call to a non-function") span
    | some f =>
      if !f.isComptime then fail (.notComptime (p.defName decl)) span
      else if f.receiver == some .mutable then fail (.notConstant "a `mut this` method") span
      else if limits.depth ≤ (← get).depth then fail (.recursionLimit limits.depth) span
      else
        match n with
        | 0 => fail (.recursionLimit limits.depth) span
        | n + 1 =>
          match ← askHost (host.functionBody decl) with
          | none => fail (.notConstant "a function without a checked body") span
          | some body =>
            let frame := callFrame body (Program.bindings f.generics generics) args
            let env : Env σ := { host, limits, invoke := invoke host limits n }
            callResult span (← inFrame frame (evalExpr env body.expr))

/-- Evaluates an expression whose locals are numbered below `locals`. The state of the host is
given back as the evaluation leaves it. -/
def evaluate (host : Host σ) (limits : EvalLimits) (expr : Typed.Expr) (locals : Nat) :
    StateM σ (Except EvalFailure Value) := fun state =>
  let env : Env σ := { host, limits, invoke := invoke host limits limits.depth }
  let start : Machine σ := { frame := .ofSize locals [], steps := 0, host := state }
  let (result, stop) := (evalExpr env expr).run start
  let answer :=
    match result with
    | .ok v | .error (.ret v) => .ok v
    | .error (.fail failure) => .error failure
    | .error .brk | .error .cont =>
      .error { error := .notConstant "`break` outside a loop", span := expr.span }
  (answer, stop.host)

end Kite.Eval
