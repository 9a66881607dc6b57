/-
Conditionals, matches and jumps. What is moved after a branch is what any path that comes out of
it has moved.
-/
import Kite.Check.Operators

namespace Kite.Check

/-! ## Patterns -/

def patternMismatch (type : TypeId) (what : String) (span : Span) : CheckM Unit := do
  if !type.isAbsorbing then report span (.patternMismatch (← display type) what)

def literalPattern (literal : Literal) (negative : Bool) (type : TypeId) (span : Span) : CheckM Typed.Pattern := do
  match literal with
  | .int value _ =>
    let value := signed value negative
    match (← types).int? type with
    | some int => if !int.fits value then report span (.literalRange int.name)
    | none => patternMismatch type "an integer" span
    return .int value
  | .bool value =>
    if type != .bool then patternMismatch type "a `bool`" span
    return .bool value
  | .char value =>
    if type != .char then patternMismatch type "a `char`" span
    return .char value
  | .str value =>
    if type != .string then patternMismatch type "a `String`" span
    return .str value
  | .float .. =>
    report span .floatPattern
    return .wildcard

def bareVariant? (p : Program) (type : TypeId) (name : String) : Option (DefId × Nat) :=
  match p.types.shape type with
  | .named decl _ _ => do
    let e ← p.enum? decl
    let index ← e.variantIndex? name
    let variant ← e.variants[index]?
    if variant.payload.isEmpty then some (decl, index) else none
  | _ => none

def referToVariant (decl : DefId) (index : Nat) (span : Span) : CheckM Unit := do
  match (← get).variantSymbols.lookup (decl, index) with
  | some symbol => referTo span symbol
  | none => return

def namePattern (ident : Ident) (type : TypeId) (alternatives : Bool) : BodyM Typed.Pattern := do
  match bareVariant? (← program) type ident.name with
  | some (decl, index) =>
    referToVariant decl index ident.span
    return .variant decl index []
  | none =>
    if alternatives then
      report ident.span (.bindInAlternatives ident.name)
      return .wildcard
    return .binding (← declareLocal ident type false .local_)

def patternEnum? (env : Env) (owner : List Ident) (span : Span) : CheckM (Option (DefId × EnumDef)) := do
  let unknown : CheckM (Option (DefId × EnumDef)) := do
    report span (.unknownEnum (pathText owner))
    return none
  match ← lookupItem env.unit owner with
  | .failed => return none
  | .notFound => unknown
  | .found decl segments =>
    if segments != owner.length then unknown
    else
      let d ← getDef decl
      match d.kind with
      | .enum e => return some (decl, e)
      | kind =>
        report span (.notAnEnum kind.describe d.name)
        return none

def patternVariant? (env : Env) (path : List Ident) (type : TypeId) (span : Span) :
    CheckM (Option (DefId × Nat × List TypeId)) := do
  match path.getLast? with
  | none => return none
  | some member =>
    match ← patternEnum? env path.dropLast span with
    | none => return none
    | some (decl, e) =>
      let p ← program
      let name := p.defName decl
      match e.variantIndex? member.name with
      | none =>
        report member.span (.noVariant name member.name)
        return none
      | some index =>
        referToVariant decl index member.span
        let differs : CheckM (Option (DefId × Nat × List TypeId)) := do
          patternMismatch type s!"a `{name}`" span
          return none
        match p.types.shape type with
        | .named scrutinee _ args =>
          if scrutinee != decl then differs
          else
            let s := Program.bindings e.generics args
            let payload := ((e.variants[index]?).map (·.payload)).getD []
            let payload ← build (payload.mapM (TypeM.subst s))
            return some (decl, index, payload)
        | _ => differs

def variantPattern (env : Env) (path : List Ident) (type : TypeId) (span : Span) (given : Nat)
    (fields : List TypeId → BodyM (List Typed.Pattern)) : BodyM Typed.Pattern := do
  match ← patternVariant? env path type span with
  | none => return .wildcard
  | some (decl, index, payload) =>
    if given != payload.length then
      let p ← program
      let member := (path.getLast?.map (·.name)).getD ""
      report span (.patternFieldCount (p.defName decl) member payload.length given)
      return .variant decl index (payload.map fun _ => .wildcard)
    return .variant decl index (← fields payload)

section

variable (env : Env) (alternatives : Bool)

mutual

/-- Checks a pattern. Patterns with `|` bind no names. -/
def checkPattern : Pattern → TypeId → BodyM Typed.Pattern
  | ⟨_, kind, span⟩, type => checkPatternKind span kind type

def checkPatternKind (span : Span) :
    PatternKind → TypeId → BodyM Typed.Pattern
  | .wildcard, _ => return .wildcard
  | .binding ident, type => namePattern ident type alternatives
  | .literal value negative, type => literalPattern value negative type span
  | .variant path none, type => variantPattern env path type span 0 fun _ => return []
  | .variant path (some fields), type =>
    variantPattern env path type span fields.length (checkPatterns fields)
  | .some inner, type => do
    match (← types).optionalInner? type with
    | some innerType => return .some (← checkPattern inner innerType)
    | none =>
      patternMismatch type "an optional" span
      return .wildcard
  | .none, type => do
    if ((← types).optionalInner? type).isSome then return .none
    patternMismatch type "an optional" span
    return .wildcard

def checkPatterns :
    List Pattern → List TypeId → BodyM (List Typed.Pattern)
  | pattern :: patterns, type :: types => do
    let checked ← checkPattern pattern type
    return checked :: (← checkPatterns patterns types)
  | _, _ => return []

end

end

def checkAlternatives (env : Env) (patterns : List Pattern) (type : TypeId) : BodyM (List Typed.Pattern) :=
  patterns.mapM fun pattern => checkPattern env (patterns.length > 1) pattern type

/-! ## Exhaustiveness -/

def coversVariant (index : Nat) : Typed.Pattern → Bool
  | .variant _ covered fields => covered == index && fields.all (·.isIrrefutable)
  | _ => false

def coversBool (value : Bool) : Typed.Pattern → Bool
  | .bool covered => covered == value
  | _ => false

def coversSome : Typed.Pattern → Bool
  | .some inner => inner.isIrrefutable
  | _ => false

def coversNone : Typed.Pattern → Bool
  | .none => true
  | _ => false

def missingVariants (enum : String) (patterns : List Typed.Pattern) (variants : List VariantDef) : List String :=
  (variants.zipIdx.filter fun (_, index) => !patterns.any (coversVariant index)).map
    fun (variant, _) => s!"{enum}::{variant.name}"

/-- Patterns that would have to be added to accept every value of a type. -/
def missingPatterns (p : Program) (type : TypeId) (patterns : List Typed.Pattern) : List String :=
  if patterns.any (·.isIrrefutable) then []
  else
    match p.types.shape type with
    | .error | .never => []
    | .named decl _ _ =>
      match p.enum? decl with
      | some e => missingVariants (p.defName decl) patterns e.variants
      | none => ["_"]
    | .bool =>
      (if patterns.any (coversBool true) then [] else ["true"]) ++
        (if patterns.any (coversBool false) then [] else ["false"])
    | .optional _ =>
      (if patterns.any coversSome then [] else ["some(_)"]) ++
        (if patterns.any coversNone then [] else ["none"])
    | _ => ["_"]

def checkExhaustive (type : TypeId) (patterns : List Typed.Pattern) (span : Span) : CheckM Unit := do
  let missing := missingPatterns (← program) type patterns
  if !missing.isEmpty then report span (.nonExhaustive missing)

open Ownership (Moves)

/-! ## Conditionals -/

/-- What is moved after two branches; one that never ends normally does not count. -/
def joinMoves (first second : Moves) (firstDiverges secondDiverges : Bool) : Moves :=
  if firstDiverges then second
  else if secondDiverges then first
  else first.union second

def Want.ofBranch : Want → Option TypeId
  | .value expected => expected
  | .effect => some .void

def condTypeWithoutElse (want : Want) (span : Span) : CheckM TypeId := do
  match want.expected with
  | none => return .void
  | some expected =>
    if expected == .void || expected == .error then return .void
    report span .ifWithoutElse
    return .error

def condTypeOf (want : Want) (first second : TypeId) (span : Span) : CheckM TypeId := do
  match want with
  | .effect => return .void
  | .value (some expected) => return expected
  | .value none =>
    let table ← types
    match table.join first second with
    | some joined => return joined
    | none =>
      report span (.branchMismatch (table.display first) (table.display second))
      return .error

/-- `if cond { .. } else ..`; the alternative is another conditional or a block. -/
def condExpr (cond : ExprCheck) (thenBranch : Option TypeId → BodyM Typed.Expr)
    (elseBranch : Option (BodyM Typed.Expr)) (want : Want) (span : Span) : BodyM Typed.Expr := do
  let cond ← checkAgainst cond (some .bool)
  let before := (← get).moves
  let first ← thenBranch want.ofBranch
  let afterFirst := (← get).moves
  modify fun s => { s with moves := before }
  match elseBranch with
  | none =>
    modify fun s => { s with moves := joinMoves afterFirst s.moves (first.type == .never) false }
    let type ← condTypeWithoutElse want span
    return ⟨.cond cond first none, type, span⟩
  | some elseBranch =>
    let second ← elseBranch
    let firstDiverges := first.type == .never
    let secondDiverges := second.type == .never
    modify fun s => { s with moves := joinMoves afterFirst s.moves firstDiverges secondDiverges }
    let type ←
      if firstDiverges && secondDiverges then pure .never
      else condTypeOf want first.type second.type span
    return ⟨.cond cond first (some second), type, span⟩

/-! ## Matches -/

structure ArmReading where
  patterns : List Pattern
  bodySpan : Span
  block : Option BlockCheck
  /-- The body, if it is not. -/
  check : ExprCheck

def Want.isVoid : Want → Bool
  | .value expected => expected == some .void
  | .effect => true

/-- The body of an arm. A block is one only where no value is wanted. -/
def armBody (arm : ArmReading) (want : Want) : BodyM Typed.Expr := do
  match arm.block, want with
  | some block, want =>
    if want.isVoid then blockExpr block arm.bodySpan (some .void)
    else
      report arm.bodySpan .blockArm
      let _ ← blockExpr block arm.bodySpan none
      return .error arm.bodySpan
  | none, .effect => arm.check .effect
  | none, .value expected => checkAgainst arm.check expected

structure MatchState where
  arms : List Typed.Arm := []
  moves : Option Moves := none
  joined : Option TypeId := none
  incompatible : Bool := false

def joinArm (state : MatchState) (want : Want) (type : TypeId) (span : Span) : CheckM MatchState := do
  match want, state.incompatible, state.joined with
  | .value none, false, none => return { state with joined := some type }
  | .value none, false, some previous =>
    let table ← types
    match table.join previous type with
    | some joined => return { state with joined := some joined }
    | none =>
      report span (.armMismatch (table.display previous) (table.display type))
      return { state with joined := some .error, incompatible := true }
  | _, _, _ => return state

def matchArm (env : Env) (type : TypeId) (want : Want) (before : Moves) (state : MatchState)
    (arm : ArmReading) : BodyM MatchState := do
  modify fun s => { s with moves := before }
  let (patterns, body) ← inScope do
    let patterns ← checkAlternatives env arm.patterns type
    let body ← armBody arm want
    return (patterns, body)
  let after := (← get).moves
  modify fun s => { s with moves := before }
  let moves :=
    if body.type == .never then state.moves
    else some (match state.moves with
      | some moves => moves.union after
      | none => after)
  let state ← joinArm { state with moves } want body.type arm.bodySpan
  return { state with arms := state.arms ++ [{ patterns, body }] }

def matchArms (env : Env) (type : TypeId) (want : Want) (before : Moves) :
    List ArmReading → MatchState → BodyM MatchState
  | [], state => return state
  | arm :: rest, state => do
    let state ← matchArm env type want before state arm
    matchArms env type want before rest state

def matchType (state : MatchState) (want : Want) : TypeId :=
  if !state.arms.isEmpty && state.arms.all (·.body.type == .never) then .never
  else
    match want with
    | .effect => .void
    | .value expected => (expected.or state.joined).getD .void

def matchExpr (env : Env) (scrutinee : ExprCheck) (arms : List ArmReading) (want : Want)
    (span : Span) : BodyM Typed.Expr := do
  let scrutinee ← synth scrutinee none
  let type := (← types).stripViews scrutinee.type
  let before := (← get).moves
  let state ← matchArms env type want before arms {}
  modify fun s => { s with moves := state.moves.getD before }
  checkExhaustive type (state.arms.flatMap (·.patterns)) span
  return ⟨.matchWith scrutinee state.arms, matchType state want, span⟩

/-! ## Jumps -/

def thisExpr (span : Span) : BodyM Typed.Expr := do
  match (← get).thisLocal with
  | some id => useLocal id span
  | none =>
    report span .thisOutsideMethod
    return .error span

def returnExpr (value : Option ExprCheck) (span : Span) : BodyM Typed.Expr := do
  match (← get).result, value with
  | none, none =>
    report span .returnOutsideFunction
    return .error span
  | none, some value =>
    report span .returnOutsideFunction
    let _ ← synth value none
    return .error span
  | some result, some value => return ⟨.ret (some (← takeAgainst value (some result))), .never, span⟩
  | some result, none =>
    if result != .void then mismatch result .void span
    return ⟨.ret none, .never, span⟩

def breakExpr (span : Span) : BodyM Typed.Expr := do
  match (← get).loops with
  | [] =>
    report span (.jumpOutsideLoop "break")
    return .error span
  | _ :: outer =>
    modify fun s => { s with loops := true :: outer }
    return ⟨.brk, .never, span⟩

def continueExpr (span : Span) : BodyM Typed.Expr := do
  if (← get).loops.isEmpty then
    report span (.jumpOutsideLoop "continue")
    return .error span
  return ⟨.cont, .never, span⟩

end Kite.Check
