/-
Literals, operators, assignments and casts. A literal without a suffix takes its type from its
place, or from the other operand.
-/
import Kite.Check.Body

namespace Kite.Check

variable (table : TypeTable) (p : Program) (expected : Option TypeId) (op : BinaryOp)

/-! ## Literals -/

def intLiteralType : TypeId :=
  match expected.map (literalTarget table) with
  | some type => if table.isInteger type then type else .i64
  | none => .i64

def floatLiteralType : TypeId :=
  match expected.map (literalTarget table) with
  | some type => if (table.float? type).isSome then type else .f64
  | none => .f64

def signed (value : Nat) (negative : Bool) : Int := if negative then -value else value

def literalExpr (literal : Literal) (negative : Bool) (expected : Option TypeId) (span : Span) : CheckM Typed.Expr := do
  let table ← types
  match literal with
  | .int value suffix =>
    let value := signed value negative
    let type := match suffix with
      | some suffix => TypeId.ofInt suffix
      | none => intLiteralType table expected
    let int := (table.int? type).getD .i64
    if !int.fits value then report span (.literalRange int.name)
    return ⟨.int value, type, span⟩
  | .float value suffix =>
    let type := match suffix with
      | some suffix => TypeId.ofFloat suffix
      | none => floatLiteralType table expected
    return ⟨.float (if negative then value.neg else value), type, span⟩
  | .str text => return ⟨.str text, .string, span⟩
  | .char c => return ⟨.char c, .char, span⟩
  | .bool b => return ⟨.bool b, .bool, span⟩

/-- `none`, whose type has to come from its place. -/
def noneExpr (span : Span) : CheckM Typed.Expr := do
  let table ← types
  let optional := (expected.map table.stripViews).filter fun type =>
    (table.optionalInner? type).isSome
  match optional with
  | some type => return ⟨.none, type, span⟩
  | none =>
    if expected != some .error then report span .untypedNone
    return .error span

def someExpr (inner : ExprCheck) (expected : Option TypeId) (span : Span) : BodyM Typed.Expr := do
  let hint := expected.bind (← types).optionalInner?
  let value ← takeAgainst inner hint
  let type ← build (TypeM.optional (hint.getD value.type))
  return ⟨.some value, type, span⟩

/-! ## What operands look like -/

def numericLiteral? : Expr → Option Literal
  | ⟨_, .literal (.int value suffix), _⟩ => some (.int value suffix)
  | ⟨_, .literal (.float value suffix), _⟩ => some (.float value suffix)
  | ⟨_, .paren inner, _⟩ => numericLiteral? inner
  | _ => none

def isLiteralOperand : Expr → Bool
  | ⟨_, .literal (.int _ suffix), _⟩ => suffix.isNone
  | ⟨_, .literal (.float _ suffix), _⟩ => suffix.isNone
  | ⟨_, .paren inner, _⟩ => isLiteralOperand inner
  | ⟨_, .unary .neg inner, _⟩ => isLiteralOperand inner
  | _ => false

def isPlainInt : Expr → Bool
  | ⟨_, .literal (.int _ none), _⟩ => true
  | _ => false

def singleName? : Expr → Option Ident
  | ⟨_, .path [⟨ident, []⟩] _, _⟩ => some ident
  | _ => none

def stringLiteral? : Expr → Option String
  | ⟨_, .literal (.str text), _⟩ => some text
  | _ => none

/-! ## Unary operators -/

def negationProblem? (type : TypeId) : Option Problem :=
  if type.isAbsorbing || (table.float? type).isSome then none
  else
    match table.int? type with
    | some int => if int.isSigned then none else some (.negateUnsigned int.name)
    | none => some (.negate (table.display type))

def negation (operand : ExprCheck) (expected : Option TypeId) (span : Span) : BodyM Typed.Expr := do
  let value ← synth operand expected
  let table ← types
  let type := table.stripViews value.type
  match negationProblem? table type with
  | some problem => report span problem
  | none => pure ()
  return ⟨.unary .neg value, type, span⟩

def complement (operand : ExprCheck) (expected : Option TypeId) (span : Span) : BodyM Typed.Expr := do
  let value ← synth operand expected
  let table ← types
  let type := table.stripViews value.type
  if !table.isInteger type && !type.isAbsorbing then
    report span (.complement (table.display type))
  return ⟨.unary .bitNot value, type, span⟩

/-- `&value` or `&mut value` -/
def viewExpr (isMut : Bool) (operand : ExprCheck) (expected : Option TypeId) (span : Span) : BodyM Typed.Expr := do
  let table ← types
  let hint := expected.bind fun type =>
    match table.shape type with
    | .view _ inner => some inner
    | _ => none
  let value ← synth operand hint
  if isMut then
    let _ ← requireMutable value "mutable borrow of"
  let type ← build (TypeM.view isMut value.type)
  return ⟨.unary (if isMut then .mutView else .view) value, type, span⟩

def dereference (operand : ExprCheck) (span : Span) : BodyM Typed.Expr := do
  let value ← synth operand none
  let table ← types
  match table.shape value.type with
  | .view _ inner => return ⟨.unary .deref value, inner, span⟩
  | .raw inner =>
    if (← get).uncheckedDepth == 0 then report span .rawDereference
    return ⟨.unary .deref value, inner, span⟩
  | .error => return ⟨.unary .deref value, .error, span⟩
  | _ =>
    report span (.dereference (table.display value.type))
    return ⟨.unary .deref value, .error, span⟩

/-- A unary operator; a negated number is one literal. -/
def unaryExpr (op : UnaryOp) (number : Option Literal) (operand : ExprCheck)
    (expected : Option TypeId) (span : Span) : BodyM Typed.Expr := do
  match op, number with
  | .neg, some literal => literalExpr literal true expected span
  | .neg, none => negation operand expected span
  | .not, _ => return ⟨.unary .not (← checkAgainst operand (some .bool)), .bool, span⟩
  | .bitNot, _ => complement operand expected span
  | .view, _ => viewExpr false operand expected span
  | .mutView, _ => viewExpr true operand expected span
  | .deref, _ => dereference operand span

/-! ## Binary operators -/

def isEquatableFrom (p : Program) : Nat → TypeId → Bool
  | 0, _ => false
  | n + 1, type =>
    match p.types.shape (p.types.stripViews type) with
    | .error | .never | .bool | .char | .string | .int _ | .float _ => true
    | .optional inner => isEquatableFrom p n inner
    | .named decl _ _ => p.isPlainEnum decl
    | _ => false

def isEquatable (type : TypeId) : Bool := isEquatableFrom p (type.index + 1) type

def supports (common : TypeId) : Bool :=
  let numeric := p.types.isNumeric common || common == .never
  match op with
  | .eq | .ne => isEquatable p common
  | .lt | .le | .gt | .ge => numeric || common == .char || common == .string
  | .add => numeric || common == .string
  | .bitAnd | .bitOr | .bitXor => p.types.isInteger common || common == .bool
  | _ => numeric

def binaryType (left right : TypeId) : TypeId × Option Problem :=
  let fallback := if op.isComparison then TypeId.bool else .error
  let text := p.types.display
  if left == .error || right == .error then (fallback, none)
  else if op.isShift then
    if p.types.isInteger left && p.types.isInteger right then (left, none)
    else (.error, some (.shiftOperands op.symbol (text left) (text right)))
  else
    match p.types.join left right with
    | none => (fallback, some (.operandMismatch op.symbol (text left) (text right)))
    | some common =>
      if supports p op common then (if op.isComparison then .bool else common, none)
      else (fallback, some (.operatorUnsupported op.symbol (text common)))

/-- The operands of an arithmetic operator or a comparison. A number as written is checked after
the other operand. -/
def operands (lhs rhs : ExprCheck) (lhsLiteral rhsLiteral : Bool)
    (hint : Option TypeId) : BodyM (Typed.Expr × Typed.Expr) := do
  if op.isShift then
    let left ← synth lhs hint
    let right ← synth rhs none
    return (left, right)
  else if lhsLiteral && !rhsLiteral then
    let right ← synth rhs hint
    let left ← synth lhs ((operandHint (← types) right.type).or hint)
    return (left, right)
  else
    let left ← synth lhs hint
    let right ← synth rhs (operandHint (← types) left.type)
    return (left, right)

def binaryExpr (lhs rhs : ExprCheck) (lhsLiteral rhsLiteral : Bool)
    (expected : Option TypeId) (span : Span) : BodyM Typed.Expr := do
  if op.isLogical then
    let left ← checkAgainst lhs (some .bool)
    let right ← checkAgainst rhs (some .bool)
    return ⟨.binary op left right, .bool, span⟩
  else
    let table ← types
    let hint :=
      if op.isComparison then none
      else expected.bind fun type => operandHint table (literalTarget table type)
    let (left, right) ← operands op lhs rhs lhsLiteral rhsLiteral hint
    let p ← program
    let (type, problem) := binaryType p op (p.types.stripViews left.type) (p.types.stripViews right.type)
    match problem with
    | some problem => report span problem
    | none => pure ()
    return ⟨.binary op left right, type, span⟩

/-! ## Assignments -/

/-- Whether `left op= right` is allowed. -/
def supportsCompound (left right : TypeId) : Bool :=
  let fits := table.coerces right left
  table.containsError left || table.containsError right ||
    match op with
    | .add => fits && (table.isNumeric left || left == .string)
    | .shl | .shr => table.isInteger left && table.isInteger right
    | .bitAnd | .bitOr | .bitXor => fits && (table.isInteger left || left == .bool)
    | _ => fits && table.isNumeric left

/-- What is assigned to. Writing to a local does not use its old value. -/
def assignTarget (name : Option Ident) (target : ExprCheck) (span : Span) : BodyM Typed.Expr := do
  match name.bind ((← get).scopes.lookup ·.name) with
  | some id => referToLocal id span
  | none => synth target none

/-- The new value of a plain assignment, or the right side of a compound one. -/
def assignedValue (op : Option BinaryOp) (type : TypeId) (value : ExprCheck) (span : Span) : BodyM Typed.Expr := do
  match op with
  | none => takeAgainst value (some type)
  | some op =>
    let table ← types
    let hint := if op.isShift then none else operandHint table type
    let value ← synth value hint
    let table ← types
    let left := table.stripViews type
    let right := table.stripViews value.type
    if !supportsCompound table op left right then
      report span (.compoundAssign op.symbol (table.display left) (table.display right))
    return value

def assignExpr (op : Option BinaryOp) (name : Option Ident) (target : ExprCheck)
    (targetSpan : Span) (value : ExprCheck) (span : Span) : BodyM Typed.Expr := do
  let target ← assignTarget name target targetSpan
  let value ← assignedValue op target.type value span
  let writable ← requireMutableThrough target "assignment to"
  match writable, op, target.kind with
  | true, none, .var id => modify fun s => { s with moves := s.moves.restore id }
  | _, _, _ => pure ()
  return ⟨.assign op target value, .void, span⟩

/-! ## Casts -/

def castable (source target : TypeId) : Bool :=
  let table := p.types
  table.containsError source || table.containsError target || table.coerces source target ||
    (table.isNumeric source && table.isNumeric target) ||
    match table.shape source, table.shape target with
    | .bool, .int _ | .char, .int _ => true
    | .int .u8, .char | .int .u32, .char => true
    | .named decl _ _, .int _ => p.isPlainEnum decl
    | .raw _, .raw _ => true
    | _, _ => false

def changesPointee (source target : TypeId) : Bool :=
  match table.shape source, table.shape target with
  | .raw _, .raw _ => source != target
  | _, _ => false

def castExpr (inner : ExprCheck) (type : CheckM TypeId) (span : Span) : BodyM Typed.Expr := do
  let target ← type
  let value ← synth inner none
  let p ← program
  if !castable p value.type target then
    report span (.cast (p.types.display value.type) (p.types.display target))
  else if changesPointee p.types value.type target && (← get).uncheckedDepth == 0 then
    report span .rawCast
  return ⟨.cast value, target, span⟩

end Kite.Check
