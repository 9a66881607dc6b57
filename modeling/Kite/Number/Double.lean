/-
Double-precision numbers by their bits, with arithmetic in exact integers: the exact result of
every operation is a ratio times a power of two, and `Rounding.nearest` takes it to the nearest
representable value, a tie to the even one. Single precision is a second rounding of the same
kind.
-/
import Kite.Number.Numeric

namespace Kite

/-! ## Rounding a ratio to a binary format -/

/-- A binary format: digits of the significand and the bounds of the exponent of its last
digit. -/
structure Rounding where
  precision : Nat
  least : Int
  greatest : Int

namespace Rounding

def double : Rounding := { precision := 53, least := -1074, greatest := 971 }

def single : Rounding := { precision := 24, least := -149, greatest := 104 }

/-- Integer part and remainder of `num / den / 2 ^ exponent`, with the divisor they refer to. -/
def scaled (num den : Nat) (exponent : Int) : Nat × Nat × Nat :=
  let n := num <<< (-exponent).toNat
  let d := den <<< exponent.toNat
  (n / d, n % d, d)

def lastExponent (r : Rounding) (num den : Nat) : Int :=
  let guess := (num.log2 : Int) - den.log2 - r.precision
  let q := max guess r.least
  if (scaled num den q).1 < pow2 r.precision then q else max (guess + 1) r.least

/-- The multiple of a power of two nearest to `num / den`, a tie going to the even multiple:
its significand and exponent, or nothing when the ratio is too large for the format. -/
def nearest (r : Rounding) (num den : Nat) : Option (Nat × Int) :=
  let q := r.lastExponent num den
  let (m, rest, d) := scaled num den q
  let m := if 2 * rest > d || (2 * rest == d && m % 2 == 1) then m + 1 else m
  let (m, q) := if m == pow2 r.precision then (m / 2, q + 1) else (m, q)
  if q > r.greatest then none else some (m, q)

end Rounding

structure Double where
  bits : UInt64
  deriving DecidableEq, Inhabited

variable (x : Double)

namespace Double

/-! ## Fields -/

def negative : Bool := x.bits >>> 63 == 1

def exponentField : Nat := ((x.bits >>> 52) &&& 0x7ff).toNat

def fractionField : Nat := (x.bits &&& 0xfffffffffffff).toNat

def ofFields (negative : Bool) (exponent fraction : Nat) : Double :=
  ⟨((if negative then pow2 63 else 0) + exponent * pow2 52 + fraction).toUInt64⟩

def isNaN : Bool := x.exponentField == 0x7ff && x.fractionField != 0

def isInfinite : Bool := x.exponentField == 0x7ff && x.fractionField == 0

def isZero : Bool := x.exponentField == 0 && x.fractionField == 0

def nan : Double := ofFields false 0x7ff (pow2 51)

def infinity (negative : Bool) : Double := ofFields negative 0x7ff 0

def zero (negative : Bool) : Double := ofFields negative 0 0

/-- Significand of a finite number: its magnitude is `significand * 2 ^ exponent`. -/
def significand : Nat := if x.exponentField == 0 then x.fractionField else x.fractionField + pow2 52

def exponent : Int := if x.exponentField == 0 then -1074 else (x.exponentField : Int) - 1075

/-! ## From exact values -/

/-- The number `± m * 2 ^ q`, for an `m` below `2 ^ 53` and a `q` not below `-1074`. -/
def ofBinary (negative : Bool) (m : Nat) (q : Int) : Double :=
  if m == 0 then zero negative
  else
    let shift := min (52 - m.log2) (q + 1074).toNat
    let m := m <<< shift
    let q := q - shift
    if m < pow2 52 then ofFields negative 0 m
    else ofFields negative (q + 1075).toNat (m - pow2 52)

def ofRatio (negative : Bool) (num den : Nat) : Double :=
  if num == 0 then zero negative
  else match Rounding.double.nearest num den with
    | some (m, q) => ofBinary negative m q
    | none => infinity negative

def ofScaled (negative : Bool) (m : Nat) (q : Int) : Double := ofRatio negative (m <<< q.toNat) (1 <<< (-q).toNat)

def ofInt (n : Int) : Double := ofRatio (n < 0) n.natAbs 1

def digitCount (n : Nat) : Nat := (Nat.toDigits 10 n).length

/-- The number nearest to `digits * 10 ^ power`. Magnitudes far outside the format are decided
without computing the power. -/
def ofDecimal (digits : Nat) (power : Int) : Double :=
  let size := (digitCount digits : Int) + power
  if digits == 0 || size < -400 then zero false
  else if size > 400 then infinity false
  else ofRatio false (digits * pow10 power.toNat) (pow10 (-power).toNat)

/-! ## Arithmetic -/

def neg : Double := ⟨x.bits ^^^ 0x8000000000000000⟩

/-- A finite number as a multiple of `2 ^ q`, for a `q` not above its exponent. -/
def units (q : Int) : Int :=
  let m := x.significand <<< (x.exponent - q).toNat
  if x.negative then -(m : Int) else m

def add (x y : Double) : Double :=
  if x.isNaN || y.isNaN then nan
  else if x.isInfinite then
    if y.isInfinite && x.negative != y.negative then nan else x
  else if y.isInfinite then y
  else
    let q := min x.exponent y.exponent
    let sum := x.units q + y.units q
    if sum == 0 then zero (x.negative && y.negative)
    else ofScaled (sum < 0) sum.natAbs q

def sub (x y : Double) : Double := x.add y.neg

def mul (x y : Double) : Double :=
  let sign := x.negative != y.negative
  if x.isNaN || y.isNaN then nan
  else if x.isInfinite || y.isInfinite then
    if x.isZero || y.isZero then nan else infinity sign
  else ofScaled sign (x.significand * y.significand) (x.exponent + y.exponent)

def div (x y : Double) : Double :=
  let sign := x.negative != y.negative
  if x.isNaN || y.isNaN then nan
  else if x.isInfinite then
    if y.isInfinite then nan else infinity sign
  else if y.isInfinite then zero sign
  else if y.isZero then
    if x.isZero then nan else infinity sign
  else
    let q := x.exponent - y.exponent
    ofRatio sign (x.significand <<< q.toNat) (y.significand <<< (-q).toNat)

/-- The remainder of the division whose quotient is truncated; it has the sign of `x`. -/
def rem (x y : Double) : Double :=
  if x.isNaN || y.isNaN || x.isInfinite || y.isZero then nan
  else if y.isInfinite then x
  else
    let q := min x.exponent y.exponent
    ofBinary x.negative ((x.units q).natAbs % (y.units q).natAbs) q

def toSingle : Double :=
  if x.isNaN || x.isInfinite || x.isZero then x
  else
    let q := x.exponent
    match Rounding.single.nearest (x.significand <<< q.toNat) (1 <<< (-q).toNat) with
    | some (m, q) => ofBinary x.negative m q
    | none => infinity x.negative

/-- The integer part, held within the range of 128-bit integers; zero for NaN. -/
def truncate : Int :=
  let limit : Int := pow2 127
  if x.isNaN then 0
  else if x.isInfinite then if x.negative then -limit else limit - 1
  else
    let m := (x.significand <<< x.exponent.toNat) >>> (-x.exponent).toNat
    if x.negative then max (-limit) (-(m : Int)) else min (limit - 1) m

/-- The order of two numbers; none when one of them is NaN. The zeros are equal. -/
def compare? (x y : Double) : Option Ordering :=
  if x.isNaN || y.isNaN then none
  else
    let key (z : Double) : Int :=
      let magnitude : Int := (z.exponentField * pow2 52 + z.fractionField : Nat)
      if z.negative then -magnitude else magnitude
    some (compare (key x) (key y))

def numEq (x y : Double) : Bool := x.compare? y == some .eq

end Double

end Kite
