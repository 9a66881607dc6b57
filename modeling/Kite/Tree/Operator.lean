/-
Unary and binary operators of the language, with their spelling.
-/
namespace Kite

inductive UnaryOp where
  | neg | not | bitNot | view | mutView | deref
  deriving DecidableEq, Inhabited

def UnaryOp.symbol : UnaryOp → String
  | .neg => "-"
  | .not => "!"
  | .bitNot => "~"
  | .view => "&"
  | .mutView => "&mut"
  | .deref => "*"

inductive BinaryOp where
  | add | sub | mul | div | rem
  | bitAnd | bitOr | bitXor | shl | shr
  | eq | ne | lt | le | gt | ge
  | and | or
  deriving DecidableEq, Inhabited

namespace BinaryOp

def symbol : BinaryOp → String
  | .add => "+"
  | .sub => "-"
  | .mul => "*"
  | .div => "/"
  | .rem => "%"
  | .bitAnd => "&"
  | .bitOr => "|"
  | .bitXor => "^"
  | .shl => "<<"
  | .shr => ">>"
  | .eq => "=="
  | .ne => "!="
  | .lt => "<"
  | .le => "<="
  | .gt => ">"
  | .ge => ">="
  | .and => "&&"
  | .or => "||"

def isComparison : BinaryOp → Bool
  | .eq | .ne | .lt | .le | .gt | .ge => true
  | _ => false

def isLogical : BinaryOp → Bool
  | .and | .or => true
  | _ => false

def isShift : BinaryOp → Bool
  | .shl | .shr => true
  | _ => false

def isBitwise : BinaryOp → Bool
  | .bitAnd | .bitOr | .bitXor => true
  | _ => false

end BinaryOp

/-- The spelling of an assignment: `=`, or the operator followed by `=`. -/
def assignSymbol (op : Option BinaryOp) : String :=
  match op with
  | none => "="
  | some op => op.symbol ++ "="

def rangeSymbol (inclusive : Bool) : String := if inclusive then "..=" else ".."

end Kite
