/-
Removing a pair of parentheses around a whole expression. Parentheses inside quotes do not count.
-/
import Kite.Text.Quoted

namespace Kite.Emission

structure ParenScan where
  depth : Nat := 0
  quote : Option Char := none
  escaped : Bool := false
  deriving DecidableEq, Inhabited

def ParenScan.step (s : ParenScan) (c : Char) : ParenScan :=
  match s.quote with
  | some q =>
    if s.escaped then { s with escaped := false }
    else if c == '\\' then { s with escaped := true }
    else if c == q then { s with quote := none }
    else s
  | none =>
    if c == Text.doubleQuote || c == Text.singleQuote then { s with quote := some c }
    else if c == '(' then { s with depth := s.depth + 1 }
    else if c == ')' then { s with depth := s.depth - 1 }
    else s

/-- Whether a parenthesis outside of quotes closes the outermost pair before the last character. -/
def closesEarly (s : ParenScan) : List Char → Bool
  | [] | [_] => false
  | c :: rest =>
    let next := s.step c
    (s.quote.isNone && c == ')' && next.depth == 0) || closesEarly next rest

def unparenList (text : List Char) : List Char :=
  match text with
  | '(' :: rest => if rest.getLast? == some ')' && !closesEarly {} text then rest.dropLast else text
  | _ => text

def unparen (text : String) : String := String.ofList (unparenList text.toList)

end Kite.Emission
