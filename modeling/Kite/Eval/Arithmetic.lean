/-
Operators and conversions on values. Integer arithmetic is exact and fails when the result does
not fit the type of the left operand; shifts to the left and conversions wrap.
-/
import Kite.Eval.Failure
import Kite.Program

namespace Kite.Eval

variable (op : BinaryOp)

def intValue (value : Int) (ty : IntTy) : Except EvalError Value :=
  if ty.fits value then .ok (.int value ty) else .error (.overflow value ty.name)

def unary (op : UnaryOp) (v : Value) : Except EvalError Value :=
  match op, v with
  | .neg, .int value ty => intValue (-value) ty
  | .neg, .float value => .ok (.float value.neg)
  | .not, .bool value => .ok (.bool (!value))
  | .bitNot, .int value ty => .ok (.int (ty.wrap (-value - 1)) ty)
  | .view, v | .mutView, v | .deref, v => .ok v
  | _, _ => .error (.notConstant "this operator")

/-! ## Comparison -/

def order? : Value → Value → Option Ordering
  | .int a _, .int b _ => some (compare a b)
  | .float a, .float b => a.compare? b
  | .char a, .char b => some (compare a b)
  | .str a, .str b => some (compare a b)
  | .bool a, .bool b => some (compare a b)
  | _, _ => none

def holds (o : Ordering) : Bool :=
  match op with
  | .lt => o == .lt
  | .le => o != .gt
  | .gt => o == .gt
  | _ => o != .lt

def compareValues (a b : Value) : Except EvalError Value :=
  match op with
  | .eq => .ok (.bool (a.same b))
  | .ne => .ok (.bool (!a.same b))
  | _ =>
    match order? a b with
    | some o => .ok (.bool (holds op o))
    | none => .error (.notConstant "this comparison")

/-! ## Arithmetic -/

def wideBits : Nat := 128

def wideMax : Int := pow2 (wideBits - 1) - 1

/-- A product, held at the greatest intermediate result when it is too large. -/
def wideMul (a b : Int) : Int :=
  let product := a * b
  if product < -wideMax - 1 || wideMax < product then wideMax else product

def bitwise (f : Nat → Nat → Nat) (a b : Int) : Int :=
  let bits (n : Int) : Nat := (n % pow2 wideBits).toNat
  let result : Int := f (bits a) (bits b)
  if wideMax < result then result - pow2 wideBits else result

def shift (op : BinaryOp) (a b : Int) (ty : IntTy) : Except EvalError Value :=
  if b < 0 || (ty.bits : Int) ≤ b then .error (.overflow b "shift amount")
  else if op == .shl then .ok (.int (ty.wrap (a * pow2 b.toNat)) ty)
  else intValue (a >>> b.toNat) ty

def intArith (a b : Int) (ty : IntTy) : Except EvalError Value :=
  match op with
  | .add => intValue (a + b) ty
  | .sub => intValue (a - b) ty
  | .mul => intValue (wideMul a b) ty
  | .div => if b = 0 then .error .divisionByZero else intValue (a.tdiv b) ty
  | .rem => if b = 0 then .error .divisionByZero else intValue (a.tmod b) ty
  | .bitAnd => intValue (bitwise (· &&& ·) a b) ty
  | .bitOr => intValue (bitwise (· ||| ·) a b) ty
  | .bitXor => intValue (bitwise (· ^^^ ·) a b) ty
  | .shl | .shr => shift op a b ty
  | _ => .error (.notConstant "this operator")

/-- A result that is rounded to `f32` where the expression has that type. -/
def roundTo (ty : Option FloatTy) (x : Double) : Double := if ty == some .f32 then x.toSingle else x

def floatArith (a b : Double) (ty : Option FloatTy) : Except EvalError Value :=
  match op with
  | .add => .ok (.float (roundTo ty (a.add b)))
  | .sub => .ok (.float (roundTo ty (a.sub b)))
  | .mul => .ok (.float (roundTo ty (a.mul b)))
  | .div => .ok (.float (roundTo ty (a.div b)))
  | .rem => .ok (.float (roundTo ty (a.rem b)))
  | _ => .error (.notConstant "this operator")

/-- An arithmetic operator; `ty` is the floating-point type of the expression, if it has one. -/
def arith (a b : Value) (ty : Option FloatTy) : Except EvalError Value :=
  match a, b with
  | .int a t, .int b _ => intArith op a b t
  | .float a, .float b => floatArith op a b ty
  | .str a, .str b => if op == .add then .ok (.str (a ++ b)) else .error (.notConstant "this operator")
  | _, _ => .error (.notConstant "this operator")

/-! ## Conversion -/

def charOf? (value : Int) : Option Char :=
  if 0 ≤ value && value.toNat.isValidChar then some (Char.ofNat value.toNat) else none

def cast (p : Program) (v : Value) (target : TypeShape) : Except EvalError Value :=
  match v, target with
  | .int value _, .int ty => .ok (.int (ty.wrap value) ty)
  | .int value _, .float _ => .ok (.float (.ofInt value))
  | .float value, .int ty => .ok (.int (ty.wrap value.truncate) ty)
  | .float value, .float .f32 => .ok (.float value.toSingle)
  | .bool value, .int ty => .ok (.int (if value then 1 else 0) ty)
  | .char value, .int ty => .ok (.int (ty.wrap value.toNat) ty)
  | .int value _, .char =>
    match charOf? value with
    | some c => .ok (.char c)
    | none => .error (.overflow value "char")
  | .variant decl index _, .int ty => .ok (.int (ty.wrap ((p.discriminant? decl index).getD index)) ty)
  | v, _ => .ok v

/-! ## Parts of values -/

def element (v : Value) (index : Int) : Except EvalError Value :=
  match v with
  | .sequence items =>
    match (if 0 ≤ index then items[index.toNat]? else none) with
    | some item => .ok item
    | none => .error (.indexOutOfBounds index items.length)
  | .str text =>
    match (if 0 ≤ index then text.toUTF8.data[index.toNat]? else none) with
    | some byte => .ok (.int byte.toNat .u8)
    | none => .error (.indexOutOfBounds index text.utf8ByteSize)
  | _ => .error (.notConstant "this index expression")

/-- The part from `start` up to but without `stop`. The end is taken modulo the range of machine
words when it is compared with the length, and may then be before the start. -/
def slice (v : Value) (start stop : Int) : Except EvalError Value :=
  let word (n : Int) : Nat := (n % pow2 64).toNat
  let outside (length : Nat) : Bool := start < 0 || stop < start || length < word stop
  match v with
  | .str text =>
    let length := text.utf8ByteSize
    if outside length then .error (.indexOutOfBounds (stop - 1) length)
    else
      match sliceBytes text.toList (word start) (word stop) with
      | some part => .ok (.str (String.ofList part))
      | none => .error (.notConstant "a slice inside a character")
  | .sequence items =>
    if outside items.length then .error (.indexOutOfBounds (stop - 1) items.length)
    else if word stop < word start then .error .aborted
    else .ok (.sequence ((items.take (word stop)).drop (word start)))
  | _ => .error (.notConstant "this slice")

end Kite.Eval
