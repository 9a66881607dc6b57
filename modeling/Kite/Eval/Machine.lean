/-
The state in which expressions are evaluated: the frame of the running call, the steps counted so
far, and the state of the host that supplies function bodies and the values of globals. The state
is kept when an evaluation is left early, because deferred statements still run then.
-/
import Kite.Eval.Arithmetic

namespace Kite.Eval

structure Frame where
  locals : Array (Option Value)
  bindings : Subst

def Frame.ofSize (size : Nat) (bindings : Subst) : Frame := { locals := .replicate size none, bindings }

def Frame.bind (frame : Frame) (id : LocalId) (v : Value) : Frame :=
  { frame with locals := frame.locals.setIfInBounds id.index (some v) }

structure Machine (σ : Type) where
  frame : Frame
  steps : UInt64
  host : σ
  /-- How many calls are inside one another. -/
  depth : Nat := 0

/-- Ways to leave an expression other than with its value. -/
inductive Unwind where
  | fail (failure : EvalFailure)
  | ret (value : Value)
  | brk
  | cont

abbrev EvalM (σ : Type) := ExceptT Unwind (StateM (Machine σ))

structure Host (σ : Type) where
  program : σ → Program
  functionBody : DefId → StateM σ (Option Typed.Body)
  globalValue : DefId → StateM σ (Except EvalError Value)

/-- A host over a finished program: what is stored is what there is. -/
def Host.stored (p : Program) : Host Unit where
  program _ := p
  functionBody id := return (p.function? id).bind (·.body)
  globalValue id :=
    return match (p.global? id).bind (·.value) with
      | some value => .ok value
      | none => .error .poisoned

def fail (error : EvalError) (span : Span) : EvalM σ α := throw (.fail { error, span })

def orFail (span : Span) : Except EvalError α → EvalM σ α
  | .ok a => return a
  | .error error => fail error span

def attempt (x : EvalM σ α) : EvalM σ (Except Unwind α) := ExceptT.mk (do return .ok (← x.run))

/-- Counts steps. Where the counter would overflow, the evaluator stops for good. -/
def countSteps (n : UInt64) (span : Span) : EvalM σ Unit := do
  let before := (← get).steps
  if before + n < before then
    modify fun m => { m with steps := .ofNat (UInt64.size - 1) }
    fail .aborted span
  else modify fun m => { m with steps := m.steps + n }

def tick (limits : EvalLimits) (span : Span) : EvalM σ Unit := do
  countSteps 1 span
  if limits.steps < (← get).steps then fail (.stepLimit limits.steps) span

def askHost (f : StateM σ α) : EvalM σ α :=
  modifyGet fun m =>
    let (a, host) := f m.host
    (a, { m with host })

def bindLocal (id : LocalId) (v : Value) : EvalM σ Unit := modify fun m => { m with frame := m.frame.bind id v }

/-! ## Places -/

inductive Projection where
  | field (index : Nat)
  | element (index : Nat)

def modifyItem (f : Value → Except EvalError (α × Value)) (items : List Value) (i : Nat)
    (missing : EvalError) : Except EvalError (α × List Value) :=
  match items[i]? with
  | none => .error missing
  | some item => do
    let (a, item) ← f item
    return (a, items.set i item)

def modifyPart (f : Value → Except EvalError (α × Value)) :
    List Projection → Value → Except EvalError (α × Value)
  | [], v => f v
  | .field i :: rest, .struct decl fields => do
    let (a, fields) ← modifyItem (modifyPart f rest) fields i (.notConstant "this field")
    return (a, .struct decl fields)
  | .field i :: rest, .tuple items => do
    let (a, items) ← modifyItem (modifyPart f rest) items i (.notConstant "this field")
    return (a, .tuple items)
  | .element i :: rest, .sequence items => do
    let (a, items) ← modifyItem (modifyPart f rest) items i (.indexOutOfBounds i items.length)
    return (a, .sequence items)
  | _, _ => .error (.notConstant "assignment to this place")

structure Place where
  root : LocalId
  path : List Projection

def modifyPlace (place : Place) (span : Span) (f : Value → Except EvalError (α × Value)) : EvalM σ α := do
  match (← get).frame.locals[place.root.index]?.join with
  | none => fail (.notConstant "an uninitialized local") span
  | some v =>
    let (a, v) ← orFail span (modifyPart f place.path v)
    bindLocal place.root v
    return a

/-! ## Patterns -/

mutual

/-- Whether a pattern accepts a value. The bindings made on the way stay when it does not. -/
def matchPattern (p : Program) : Typed.Pattern → Value → StateM Frame Bool
  | .wildcard, _ => return true
  | .binding id, v => do
    modify (·.bind id v)
    return true
  | .int expected, .int value _ => return expected == value
  | .int expected, .variant decl index _ => return p.discriminant? decl index == some expected
  | .bool expected, .bool value => return expected == value
  | .char expected, .char value => return expected == value
  | .str expected, .str value => return expected == value
  | .none, .none => return true
  | .some inner, .some v => matchPattern p inner v
  | .variant _ index fields, .variant _ actual values =>
    if index == actual then matchPatterns p fields values else return false
  | _, _ => return false

/-- Whether the patterns accept the values, one by one and up to the first that does not. -/
def matchPatterns (p : Program) : List Typed.Pattern → List Value → StateM Frame Bool
  | pattern :: rest, v :: values => do
    if ← matchPattern p pattern v then matchPatterns p rest values else return false
  | _, _ => return true

end

def matchAny (p : Program) : List Typed.Pattern → Value → StateM Frame Bool
  | [], _ => return false
  | pattern :: rest, v => do
    if ← matchPattern p pattern v then return true else matchAny p rest v

def matchesAny (p : Program) (patterns : List Typed.Pattern) (v : Value) : EvalM σ Bool :=
  modifyGet fun m =>
    let (matched, frame) := matchAny p patterns v m.frame
    (matched, { m with frame })

/-! ## Loops -/

def loopBody (body : EvalM σ Value) : EvalM σ Bool := do
  match ← attempt body with
  | .ok _ | .error .cont => return true
  | .error .brk => return false
  | .error other => throw other

def repeatRounds (round : EvalM σ Bool) (stuck : EvalM σ Unit) : Nat → EvalM σ Unit
  | 0 => stuck
  | n + 1 => do
    if ← round then repeatRounds round stuck n

/-- Repeats a loop whose every round counts a step, so that the step limit ends it. -/
def whileTicking (limits : EvalLimits) (span : Span) (round : EvalM σ Bool) : EvalM σ Unit := do
  let left := limits.steps.toNat - (← get).steps.toNat
  repeatRounds round (fail (.stepLimit limits.steps) span) (left + 1)

/-- Runs the body with the local bound to `n` integers from `current` on, until it says to stop. -/
def countUp (id : LocalId) (ty : IntTy) (body : EvalM σ Value) : Nat → Int → EvalM σ Unit
  | 0, _ => return
  | n + 1, current => do
    bindLocal id (.int current ty)
    if ← loopBody body then countUp id ty body n (current + 1)

/-- Runs the body with the local bound to one item after the other, until it says to stop. -/
def forItems (id : LocalId) (body : EvalM σ Value) : List Value → EvalM σ Unit
  | [] => return
  | item :: rest => do
    bindLocal id item
    if ← loopBody body then forItems id body rest

end Kite.Eval
