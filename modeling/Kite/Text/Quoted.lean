/-
Quoted text: characters that would not be seen, or would end the quotation, are written as
escapes. A string escapes the double quote, a character the single one; a character shown
without quotes escapes both.
-/
import Kite.Text.Unprintable

namespace Kite.Text

def hex (n : Nat) : String := String.ofList (Nat.toDigits 16 n)

/-- `c` as it stands in quoted text; `quotes` are the quotation marks that need an escape. -/
def escapeChar (quotes : List Char) (c : Char) : String :=
  if c = '\x00' then "\\0"
  else if c = '\t' then "\\t"
  else if c = '\r' then "\\r"
  else if c = '\n' then "\\n"
  else if c = '\\' then "\\\\"
  else if quotes.contains c then "\\" ++ c.toString
  else if isUnprintable c then "\\u\x7b" ++ hex c.toNat ++ "\x7d"
  else c.toString

def singleQuote : Char := '\x27'

def doubleQuote : Char := '\x22'

def bareChar (c : Char) : String := escapeChar [singleQuote, doubleQuote] c

def quotedChar (c : Char) : String := "'" ++ escapeChar [singleQuote] c ++ "'"

def quotedString (s : String) : String :=
  "\"" ++ String.join (s.toList.map (escapeChar [doubleQuote])) ++ "\""

end Kite.Text
