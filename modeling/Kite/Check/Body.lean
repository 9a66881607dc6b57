/-
The state in which one body is checked: its locals, the scopes around the place, the loops it
stands in, and what has been moved. A body is that of a function, an initializer, or a constant
expression inside a type.
-/
import Kite.Ownership.Copy
import Kite.Check.State
import Kite.Eval.Run

namespace Kite.Check

/-! ## Demands -/

structure Demand where
  function : DefId → CheckM Unit
  global : DefId → CheckM (Except EvalError Value)
  globalType : DefId → CheckM TypeId

variable (d : Demand)

namespace Demand

/-- Makes the signature of a function final: the result type of some comes from their bodies. -/
def signature (id : DefId) (span : Span) : CheckM Unit := do
  match (← get).functions.lookup id with
  | some pending =>
    if pending.infersResult then
      if (← stageOf id) == some .inProgress then
        report span (.inferredFromItself ((← program).defName id))
      else d.function id
  | none => return

def host : Eval.Host Checker where
  program := Checker.program
  functionBody id := do
    d.function id
    return ((← program).function? id).bind (·.body)
  globalValue := d.global

def tryEvaluate (expr : Typed.Expr) (locals : Nat) : CheckM (Except EvalFailure Value) := do
  Eval.evaluate d.host (← get).limits expr locals

def evaluate (expr : Typed.Expr) (locals : Nat) : CheckM (Option Value) := do
  if (← types).containsError expr.type then return none
  match ← d.tryEvaluate expr locals with
  | .ok value => return some value
  | .error failure =>
    reportFailure failure
    return none

end Demand

/-- Where types and expressions stand: their unit, the generics in scope, and how to get what
other declarations say. -/
structure Env where
  demand : Demand
  unit : UnitId
  generics : List Generic := []

def Env.generic? (env : Env) (name : String) : Option Generic := env.generics.find? (·.name == name)

def Env.param? (env : Env) (id : ParamId) : Option Generic := env.generics.find? (·.id == id)

/-! ## Bodies -/

open Ownership (Moves)

structure BodyState where
  /-- The type that `return` gives; absent where it is not allowed. -/
  result : Option TypeId := none
  thisLocal : Option LocalId := none
  locals : Array Typed.Local := #[]
  localSymbols : Array SymbolId := #[]
  params : List LocalId := []
  scopes : LocalScopes := {}
  /-- The loops around the place, innermost first; whether each is left by a `break`. -/
  loops : List Bool := []
  uncheckedDepth : Nat := 0
  moves : Moves := {}
  deriving Inhabited

abbrev BodyM := StateT BodyState CheckM

def runBody (result : Option TypeId) (x : BodyM Typed.Expr) : CheckM Typed.Body := do
  let (expr, state) ← x.run { result }
  return { locals := state.locals, params := state.params, expr }

/-- What the place of an expression asks of it: a value, possibly of an expected type, or only its
effect. -/
inductive Want where
  | value (expected : Option TypeId)
  | effect

def Want.expected : Want → Option TypeId
  | .value expected => expected
  | .effect => none

abbrev ExprCheck := Want → BodyM Typed.Expr

abbrev BlockCheck := Option TypeId → BodyM (Typed.Block × TypeId)

/-- How a statement is checked; gives whether control never continues after it. -/
abbrev StmtCheck := BodyM (List Typed.Stmt × Bool)

/-! ## Locals -/

def localOf (id : LocalId) : BodyM Typed.Local := do
  return (← get).locals.getD id.index default

def declareLocal (name : Ident) (type : TypeId) (isMut : Bool) (kind : SymbolKind) : BodyM LocalId := do
  let id : LocalId := ⟨(← get).locals.size⟩
  modify fun s =>
    { s with locals := s.locals.push { name := name.name, type, isMut, span := name.span } }
  match (← get).scopes.define name.name id with
  | .ok scopes => modify fun s => { s with scopes }
  | .error previous => report name.span (.redefinition (.variable name.name) (← localOf previous).span)
  let mark := if isMut then "mut " else ""
  let shown ← display type
  let symbol ← defineSymbol none name kind s!"{mark}{name.name}: {shown}"
  modify fun s => { s with localSymbols := s.localSymbols.push symbol }
  return id

/-- A local that is named, not necessarily for its value. -/
def referToLocal (id : LocalId) (span : Span) : BodyM Typed.Expr := do
  match (← get).localSymbols[id.index]? with
  | some symbol => referTo span symbol
  | none => pure ()
  return ⟨.var id, (← localOf id).type, span⟩

/-- Reports the use of a local whose value was moved away, once for each move. -/
def checkNotMoved (id : LocalId) (span : Span) : BodyM Unit := do
  match (← get).moves.movedAt? id with
  | none => return
  | some moved =>
    report span (.movedValue (← localOf id).name moved)
    modify fun s => { s with moves := s.moves.restore id }

def useLocal (id : LocalId) (span : Span) : BodyM Typed.Expr := do
  checkNotMoved id span
  referToLocal id span

def inScope (x : BodyM α) : BodyM α := do
  modify fun s => { s with scopes := s.scopes.push }
  let a ← x
  modify fun s => { s with scopes := s.scopes.pop }
  return a

def inUnchecked (x : BodyM α) : BodyM α := do
  modify fun s => { s with uncheckedDepth := s.uncheckedDepth + 1 }
  let a ← x
  modify fun s => { s with uncheckedDepth := s.uncheckedDepth - 1 }
  return a

/-! ## Types of values -/

/-- Reports that a type is not the expected one, unless one of them was reported already. -/
def mismatch (expected found : TypeId) (span : Span) : CheckM Unit := do
  let table ← types
  if table.containsError expected || table.containsError found then return
  report span (.mismatch (table.display expected) (table.display found))

def coerce (value : Typed.Expr) : Option TypeId → CheckM Unit
  | none => return
  | some expected => do
    if !(← types).coerces value.type expected then mismatch expected value.type value.span

def synth (check : ExprCheck) (expected : Option TypeId) : BodyM Typed.Expr := check (.value expected)

def checkAgainst (check : ExprCheck) (expected : Option TypeId) : BodyM Typed.Expr := do
  let value ← synth check expected
  coerce value expected
  return value

/-- The type a literal takes from its place: through views and optionals. -/
def literalTarget (table : TypeTable) (type : TypeId) : TypeId :=
  let type := table.stripViews type
  (table.optionalInner? type).getD type

/-- The type an operand suggests for the other one. -/
def operandHint (table : TypeTable) (type : TypeId) : Option TypeId :=
  let type := table.stripViews type
  if table.isNumeric type then some type else none

def blockExpr (block : BlockCheck) (span : Span) (expected : Option TypeId) : BodyM Typed.Expr := do
  let (block, type) ← block expected
  return ⟨.block block, type, span⟩

/-! ## Ownership -/

/-- A value is used in a place that takes it over. -/
def consume (value : Typed.Expr) : BodyM Unit := do
  match value.kind with
  | .var id =>
    if some id == (← get).thisLocal then return
    if ← build ((← program).isCopy value.type) then return
    modify fun s => { s with moves := s.moves.mark id value.span }
  | _ => return

def takeAgainst (check : ExprCheck) (expected : Option TypeId) : BodyM Typed.Expr := do
  let value ← checkAgainst check expected
  consume value
  return value

def checkLoopMoves (before : Moves) (firstInner : Nat) : BodyM Unit := do
  for (id, span) in (← get).moves.since before do
    if id.index < firstInner then
      report span (.movedInLoop (← localOf id).name)

inductive PlaceKind where
  | writable
  | readOnly (what : String)
  | noPlace

def behindView : PlaceKind := .readOnly "data behind a `&` view"

/-- A part of a value, when what leads to the value decides; else `own`. -/
def placeThrough (p : Program) (type : TypeId) (own : PlaceKind) : PlaceKind :=
  match p.types.shape type with
  | .view true _ | .raw _ => .writable
  | .view false _ => behindView
  | .named decl _ _ => if p.isClass decl then .writable else own
  | _ => own

mutual

def placeOf (p : Program) (state : BodyState) : Typed.Expr → PlaceKind
  | ⟨kind, _, _⟩ => placeOfKind p state kind

def placeOfKind (p : Program) (state : BodyState) : Typed.ExprKind → PlaceKind
  | .var id =>
    let info := state.locals.getD id.index default
    if info.isMut then .writable
    else if some id == state.thisLocal then
      .readOnly "`this` in a method that does not take `mut this`"
    else .readOnly s!"binding `{info.name}`"
  | .global decl =>
    if (p.global? decl).any (·.isMut) then .writable
    else .readOnly s!"`{p.defName decl}`"
  | .field base _ _ => placeThrough p base.type (placeOf p state base)
  | .tupleIndex base _ => placeThrough p base.type (placeOf p state base)
  | .index base _ => placeThrough p base.type (placeOf p state base)
  | .unary .deref operand =>
    match p.types.shape operand.type with
    | .view true _ | .raw _ => .writable
    | .view false _ => behindView
    | _ => .noPlace
  | _ => .noPlace

end

def requireMutable (target : Typed.Expr) (action : String) : BodyM Bool := do
  if target.type == .error then return false
  match placeOf (← program) (← get) target with
  | .writable => return true
  | .readOnly what =>
    report target.span (.immutable action what)
    return false
  | .noPlace =>
    report target.span (.notAPlace action)
    return false

/-- As `requireMutable`, where a mutable view or the handle of a class is as good. -/
def requireMutableThrough (target : Typed.Expr) (action : String) : BodyM Bool := do
  let p ← program
  match p.types.shape target.type with
  | .view true _ | .raw _ => return true
  | .view false _ =>
    report target.span (.behindView action)
    return false
  | .named decl _ _ => if p.isClass decl then return true else requireMutable target action
  | _ => requireMutable target action

end Kite.Check
