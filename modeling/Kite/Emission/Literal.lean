/-
Values as literals of C++, each with the one spelling it has in the output.
-/
import Kite.Number.Shortest
import Kite.Text.Quoted

namespace Kite.Emission

def braced (text : String) : String := "\x7b" ++ text ++ "\x7d"

def commas (items : List String) : String := ", ".intercalate items

def intType : IntTy → String
  | .i8 => "int8_t"
  | .i16 => "int16_t"
  | .i32 => "int32_t"
  | .i64 => "int64_t"
  | .u8 => "uint8_t"
  | .u16 => "uint16_t"
  | .u32 => "uint32_t"
  | .u64 => "uint64_t"
  | .usize => "std::size_t"

def floatType : FloatTy → String
  | .f32 => "float"
  | .f64 => "double"

def intSuffix (ty : IntTy) : String :=
  if ty.bits == 64 then (if ty.isSigned then "LL" else "ULL") else ""

/-- An integer of a type. The least 64-bit number has no literal and is named. -/
def intLiteral (ty : IntTy) (value : Int) : String :=
  if ty.isSigned && ty.bits == 64 && value == ty.min then "INT64_MIN"
  else intType ty ++ braced (toString value ++ intSuffix ty)

/-- A float of a type, with the fewest digits that read back. -/
def floatLiteral (ty : FloatTy) (value : Double) : String :=
  let limits := "std::numeric_limits<" ++ floatType ty ++ ">::"
  if value.isNaN then limits ++ "quiet_NaN()"
  else if value.isInfinite then (if value.negative then "-" else "") ++ limits ++ "infinity()"
  else
    match ty with
    | .f32 => value.toText ++ "f"
    | .f64 => value.toText

def standsInCharLiteral (c : Char) : Bool :=
  0x20 ≤ c.toNat && c.toNat ≤ 0x7e && c != Text.singleQuote && c != '\\'

def charLiteral (c : Char) : String :=
  if standsInCharLiteral c then "U\x27" ++ c.toString ++ "\x27"
  else "char32_t" ++ braced ("0x" ++ String.ofList ((Nat.toDigits 16 c.toNat).map Char.toUpper))

def octal (n : Nat) : List Char := [n / 64 % 8, n / 8 % 8, n % 8].map Nat.digitChar

/-- A byte inside a string literal. An escape by number has all three digits, so what follows is
never read as a part of it. -/
def stringByte (b : UInt8) : List Char :=
  if b == 0x22 then ['\\', Text.doubleQuote]
  else if b == 0x5c then ['\\', '\\']
  else if b == 0x0a then ['\\', 'n']
  else if b == 0x0d then ['\\', 'r']
  else if b == 0x09 then ['\\', 't']
  else if 0x20 ≤ b && b ≤ 0x7e then [Char.ofNat b.toNat]
  else '\\' :: octal b.toNat

/-- A string, byte by byte. Its length is given if it has a zero byte, at which it would end
otherwise. -/
def stringLiteral (s : String) : String :=
  let bytes := s.toUTF8.toList
  let length := if bytes.contains 0 then ", " ++ toString bytes.length else ""
  "std::string(\"" ++ String.ofList (bytes.flatMap stringByte) ++ "\"" ++ length ++ ")"

end Kite.Emission
