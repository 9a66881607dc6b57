/-
The numeric types of the language: nine integer types, each a range of integers, and two
floating-point types.
-/
namespace Kite

def pow2 (n : Nat) : Nat := Nat.pow 2 n

def pow10 (n : Nat) : Nat := Nat.pow 10 n

inductive IntTy where
  | i8
  | i16
  | i32
  | i64
  | u8
  | u16
  | u32
  | u64
  | usize
  deriving DecidableEq, Inhabited

namespace IntTy

def all : List IntTy := [.i8, .i16, .i32, .i64, .u8, .u16, .u32, .u64, .usize]

def name : IntTy → String
  | .i8 => "i8"
  | .i16 => "i16"
  | .i32 => "i32"
  | .i64 => "i64"
  | .u8 => "u8"
  | .u16 => "u16"
  | .u32 => "u32"
  | .u64 => "u64"
  | .usize => "usize"

def isSigned : IntTy → Bool
  | .i8 | .i16 | .i32 | .i64 => true
  | _ => false

def bits : IntTy → Nat
  | .i8 | .u8 => 8
  | .i16 | .u16 => 16
  | .i32 | .u32 => 32
  | .i64 | .u64 | .usize => 64

def min (t : IntTy) : Int := if t.isSigned then -(pow2 (t.bits - 1)) else 0

def max (t : IntTy) : Int := if t.isSigned then pow2 (t.bits - 1) - 1 else pow2 t.bits - 1

def fits (t : IntTy) (value : Int) : Bool := t.min ≤ value && value ≤ t.max

/-- The value of the type that is equal to `value` modulo its width. -/
def wrap (t : IntTy) (value : Int) : Int :=
  let low := value % pow2 t.bits
  if t.isSigned && low > t.max then low - pow2 t.bits else low

/-- Whether a value of type `t` may stand where a `u` is wanted: `u` is wider and can hold
every value of `t`. -/
def widensTo (t u : IntTy) : Bool := (!t.isSigned || u.isSigned) && t.bits < u.bits

def ofName? (name : String) : Option IntTy := all.find? (·.name == name)

end IntTy

inductive FloatTy where
  | f32
  | f64
  deriving DecidableEq, Inhabited

namespace FloatTy

def name : FloatTy → String
  | .f32 => "f32"
  | .f64 => "f64"

def ofName? (name : String) : Option FloatTy := [f32, f64].find? (·.name == name)

end FloatTy

end Kite
