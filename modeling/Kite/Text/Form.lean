/-
The text of trees: a node is a parenthesised form whose parts are separated by single spaces, a
list stands in square brackets, and `~` marks what is absent. Strings are double-quoted with a
backslash before quotes and backslashes, and escapes for control characters; everything else
stands as it is.
-/
import Kite.Number.Double
import Kite.Text.Quoted

namespace Kite.Text

def form (parts : List String) : String := "(" ++ " ".intercalate parts ++ ")"

def sequence (items : List String) : String := "[" ++ " ".intercalate items ++ "]"

def orAbsent (text : Option String) : String := text.getD "~"

def paddedHex (width n : Nat) : String :=
  let digits := Nat.toDigits 16 n
  String.ofList (List.replicate (width - digits.length) '0' ++ digits)

def formStringChar (c : Char) : String :=
  if c = doubleQuote then "\\\""
  else if c = '\\' then "\\\\"
  else if c = '\x08' then "\\b"
  else if c = '\x0c' then "\\f"
  else if c = '\n' then "\\n"
  else if c = '\r' then "\\r"
  else if c = '\t' then "\\t"
  else if c.toNat < 0x20 then "\\u" ++ paddedHex 4 c.toNat
  else c.toString

def formString (s : String) : String := "\"" ++ String.join (s.toList.map formStringChar) ++ "\""

/-- A double inside a form: the digits of its bits, so that nothing is rounded. All NaNs look
alike. -/
def formDouble (x : Double) : String := if x.isNaN then "nan" else paddedHex 16 x.bits.toNat

end Kite.Text
