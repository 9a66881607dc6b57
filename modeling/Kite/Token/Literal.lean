/-
How literals are read: escape sequences, the inside of quotes, and numbers. Every function here
looks at the characters ahead and says how many of them it takes; nothing depends on where in a
file they stand.
-/
import Kite.Token.Basic

namespace Kite.Lexical

/-! ## Character classes -/

def isBlank (c : Char) : Bool := c == ' ' || c == '\t' || c == '\n' || c == '\r'

/-- Brackets, comma and semicolon, at which reading resumes after invalid text. -/
def isDelimiter (c : Char) : Bool := ['(', ')', '\x7b', '\x7d', '[', ']', ',', ';'].contains c

/-- Names are ASCII only. -/
def isNameStart (c : Char) : Bool := c.isAlpha || c == '_'

def isNamePart (c : Char) : Bool := isNameStart c || c.isDigit

def digitValue (radix : Nat) (c : Char) : Option Nat :=
  let value :=
    if '0' ≤ c && c ≤ '9' then some (c.toNat - '0'.toNat)
    else if 'a' ≤ c && c ≤ 'f' then some (c.toNat - 'a'.toNat + 10)
    else if 'A' ≤ c && c ≤ 'F' then some (c.toNat - 'A'.toNat + 10)
    else none
  value.filter (· < radix)

def isDigitIn (radix : Nat) (c : Char) : Bool := (digitValue radix c).isSome

/-- The number that digits denote; characters that are no digits, such as underscores, are
passed over. -/
def numeral (radix : Nat) (cs : List Char) : Nat :=
  cs.foldl (fun n c => match digitValue radix c with
    | some d => n * radix + d
    | none => n) 0

/-- Invalid text reaches up to the next blank or delimiter. -/
def invalidRun (cs : List Char) : List Char := cs.takeWhile fun c => !isBlank c && !isDelimiter c

/-! ## Escapes and quoted text -/

/-- What an escape sequence denotes and how many characters it takes, given the characters after
its backslash. An invalid sequence takes the characters up to where it went wrong. -/
def readEscape : List Char → Option Char × Nat
  | [] => (none, 0)
  | 'n' :: _ => (some '\n', 1)
  | 'r' :: _ => (some '\r', 1)
  | 't' :: _ => (some '\t', 1)
  | '0' :: _ => (some '\x00', 1)
  | '\\' :: _ => (some '\\', 1)
  | '\x27' :: _ => (some '\x27', 1)
  | '\x22' :: _ => (some '\x22', 1)
  | 'x' :: cs =>
    let digits := (cs.take 2).takeWhile (isDigitIn 16)
    let value := numeral 16 digits
    if digits.length == 2 && value ≤ 0x7f then (some (Char.ofNat value), 3)
    else (none, 1 + digits.length)
  | 'u' :: '\x7b' :: cs =>
    let digits := cs.takeWhile (isDigitIn 16)
    let value := numeral 16 digits
    if (cs.drop digits.length).head? == some '\x7d' && 1 ≤ digits.length && digits.length ≤ 6 then
      (if value.isValidChar then some (Char.ofNat value) else none, 3 + digits.length)
    else (none, 2 + digits.length)
  | _ :: _ => (none, 1)

structure QuotedBody where
  closed : Bool
  /-- How many characters were taken, the closing quote included. -/
  length : Nat
  chars : List Char := []
  /-- First and last of the characters of each invalid escape, the last one excluded. -/
  invalid : List (Nat × Nat) := []

/-- Reads up to the closing quote; a newline or the end of the text leaves the literal open.
`taken` counts the characters already read. -/
def readQuoted (quote : Char) (taken : Nat) : List Char → QuotedBody
  | [] => { closed := false, length := taken }
  | c :: cs =>
    if c == quote then { closed := true, length := taken + 1 }
    else if c == '\n' then { closed := false, length := taken }
    else if c == '\\' then
      let (decoded, n) := readEscape cs
      let next := taken + 1 + n
      let body := readQuoted quote next (cs.drop n)
      match decoded with
      | some d => { body with chars := d :: body.chars }
      | none => { body with invalid := (taken, next) :: body.invalid }
    else
      let body := readQuoted quote (taken + 1) cs
      { body with chars := c :: body.chars }
termination_by cs => cs.length
decreasing_by all_goals (simp only [List.length_drop, List.length_cons]; omega)

/-! ## Numbers -/

/-- The parts of a number: the prefix that names its radix, its digits with a fraction and an
exponent if it has them, and its suffix. -/
structure NumberParts where
  radix : Nat
  base : List Char
  whole : List Char
  fraction : List Char
  exponent : List Char
  suffix : List Char

namespace NumberParts

def length (n : NumberParts) : Nat :=
  n.base.length + n.whole.length + n.fraction.length + n.exponent.length + n.suffix.length

def isFloat (n : NumberParts) : Bool := !n.fraction.isEmpty || !n.exponent.isEmpty

end NumberParts

def isDigitOrUnderscore (c : Char) : Bool := c.isDigit || c == '_'

/-- A point and the digits after it; nothing if no digit follows the point. -/
def readFraction : List Char → List Char
  | '.' :: d :: cs => if d.isDigit then '.' :: (d :: cs).takeWhile isDigitOrUnderscore else []
  | _ => []

/-- The mark of an exponent, its sign and its digits; nothing if the digits are missing. -/
def readExponent : List Char → List Char
  | [] => []
  | e :: cs =>
    if e == 'e' || e == 'E' then
      let sign := match cs with
        | s :: _ => if s == '+' || s == '-' then [s] else []
        | [] => []
      let digits := cs.drop sign.length
      if (digits.head?.map Char.isDigit).getD false then
        e :: sign ++ digits.takeWhile isDigitOrUnderscore
      else []
    else []

/-- The radix of a number and the prefix that names it. -/
def readBase : List Char → Nat × List Char
  | '0' :: 'x' :: _ => (16, ['0', 'x'])
  | '0' :: 'o' :: _ => (8, ['0', 'o'])
  | '0' :: 'b' :: _ => (2, ['0', 'b'])
  | _ => (10, [])

/-- Splits the text of a number. After a dot no fraction and no exponent are read, so that
`t.0.1` indexes twice. -/
def readNumber (afterDot : Bool) (cs : List Char) : NumberParts :=
  let (radix, base) := readBase cs
  let cs := cs.drop base.length
  let whole := cs.takeWhile fun c => isDigitIn radix c || c == '_'
  let cs := cs.drop whole.length
  let decimal := radix == 10 && !afterDot
  let fraction := if decimal then readFraction cs else []
  let cs := cs.drop fraction.length
  let exponent := if decimal then readExponent cs else []
  let suffix := (cs.drop exponent.length).takeWhile isNamePart
  { radix, base, whole, fraction, exponent, suffix }

def NumberParts.toDouble (n : NumberParts) : Double :=
  let places := n.fraction.countP Char.isDigit
  let power : Int := numeral 10 n.exponent
  let power := if n.exponent.contains '-' then -power else power
  Double.ofDecimal (numeral 10 (n.whole ++ n.fraction)) (power - places)

end Kite.Lexical
