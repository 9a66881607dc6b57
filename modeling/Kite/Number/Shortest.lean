/-
The decimal text of a double: the fewest digits that are read back as the same number, and of
those the digits nearest to it. Numbers from `1e-4` up to `1e16` are written out with a point,
all others with an exponent.
-/
import Kite.Number.Double

namespace Kite.Double

variable (x : Double)

/-! ## The digits -/

def compareScaled (a : Nat) (p : Int) (b : Nat) (q : Int) : Ordering :=
  compare (a * pow10 p.toNat * pow2 (-q).toNat) (b * pow2 q.toNat * pow10 (-p).toNat)

/-- Whether `c * 10 ^ p` is read as `x`, a positive finite number. Its neighbours are half a
unit of the last place away, the lower one a quarter when `x` is a power of two. -/
def readsAs (c : Nat) (p : Int) : Bool :=
  let m := x.significand
  let q := x.exponent - 2
  let below := if m == pow2 52 && x.exponentField > 1 then 4 * m - 1 else 4 * m - 2
  let above := 4 * m + 2
  let closed := m % 2 == 0
  let atLeast := match compareScaled c p below q with
    | .gt => true
    | .eq => closed
    | .lt => false
  let atMost := match compareScaled c p above q with
    | .lt => true
    | .eq => closed
    | .gt => false
  atLeast && atMost

/-- The integer part of the magnitude of `x` in units of `10 ^ p`. -/
def wholeUnits (p : Int) : Nat :=
  (x.significand * pow2 x.exponent.toNat * pow10 (-p).toNat) / (pow2 (-x.exponent).toNat * pow10 p.toNat)

/-- Whether the upper neighbour `c + 1` is at least as near to `x` as `c`, in units of `10 ^ p`. -/
def upperNearer (c : Nat) (p : Int) : Bool :=
  compareScaled (2 * c + 1) p (2 * x.significand) x.exponent != .gt

/-- The decimal of the grid `10 ^ p` that is read as `x`, if there is one: the nearer of the two
neighbours of `x`. -/
def onGrid (p : Int) : Option Nat :=
  let c := x.wholeUnits p
  match x.readsAs c p, x.readsAs (c + 1) p with
  | true, true => some (if x.upperNearer c p then c + 1 else c)
  | true, false => some c
  | false, true => some (c + 1)
  | false, false => none

/-- The first grid of the `n` grids from `10 ^ p` downwards that has a decimal read as `x`. -/
def searchGrids (x : Double) : Nat → Int → Nat × Int
  | 0, p => (x.wholeUnits p, p)
  | n + 1, p => match x.onGrid p with
    | some c => (c, p)
    | none => searchGrids x n (p - 1)

/-- An upper bound of the decimal exponent of a positive finite number. -/
def topPower : Int := ((x.significand.log2 : Int) + x.exponent) * 30103 / 100000 + 1

def stripZeros : Nat → Nat → Int → Nat × Int
  | 0, c, p => (c, p)
  | n + 1, c, p => if c % 10 == 0 && c != 0 then stripZeros n (c / 10) (p + 1) else (c, p)

/-- Digits and power of ten of the shortest decimal of a positive finite number. -/
def shortest : Nat × Int :=
  let (c, p) := x.searchGrids 20 x.topPower
  stripZeros 20 c p

/-! ## The text -/

/-- Digits with the point after the first `n` of them; `n` may lie outside the digits. -/
def placePoint (digits : List Char) (n : Int) : List Char :=
  if n ≤ 0 then '0' :: '.' :: List.replicate (-n).toNat '0' ++ digits
  else if n < digits.length then digits.take n.toNat ++ '.' :: digits.drop n.toNat
  else digits ++ List.replicate (n.toNat - digits.length) '0' ++ ['.', '0']

def scientific (digits : List Char) (exponent : Int) : List Char :=
  let tail := match digits.drop 1 with
    | [] => []
    | more => '.' :: more
  digits.take 1 ++ tail ++ 'e' :: (toString exponent).toList

def toText : String :=
  if x.isNaN then "NaN"
  else
    let sign := if x.negative then "-" else ""
    if x.isInfinite then sign ++ "inf"
    else if x.isZero then sign ++ "0.0"
    else
      let (c, p) := x.shortest
      let digits := Nat.toDigits 10 c
      let point := (digits.length : Int) + p
      let text := if -4 < point && point ≤ 16 then placePoint digits point
        else scientific digits (point - 1)
      sign ++ String.ofList text

end Kite.Double
