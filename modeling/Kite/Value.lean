/-
Values known while compiling. An integer carries its type; vectors and arrays are both sequences.
-/
import Kite.Number.Double
import Kite.Types.Basic

namespace Kite

inductive Value where
  | int (value : Int) (ty : IntTy)
  | float (value : Double)
  | bool (value : Bool)
  | char (value : Char)
  | str (value : String)
  | void
  | tuple (items : List Value)
  | sequence (items : List Value)
  | none
  | some (inner : Value)
  | struct (decl : DefId) (fields : List Value)
  | variant (decl : DefId) (index : Nat) (fields : List Value)
  deriving Inhabited

namespace Value

def int? : Value → Option Int
  | .int value _ => Option.some value
  | _ => Option.none

def bool? : Value → Option Bool
  | .bool value => Option.some value
  | _ => Option.none

mutual

/-- Equality of values as `==` decides it: floats are compared as numbers, integers have to agree
in value and type. -/
def same : Value → Value → Bool
  | .int a t, .int b u => a == b && t == u
  | .float a, .float b => a.numEq b
  | .bool a, .bool b => a == b
  | .char a, .char b => a == b
  | .str a, .str b => a == b
  | .void, .void => true
  | .none, .none => true
  | .some a, .some b => same a b
  | .tuple as, .tuple bs => sameAll as bs
  | .sequence as, .sequence bs => sameAll as bs
  | .struct d as, .struct e bs => d == e && sameAll as bs
  | .variant d i as, .variant e j bs => d == e && i == j && sameAll as bs
  | _, _ => false

def sameAll : List Value → List Value → Bool
  | [], [] => true
  | a :: as, b :: bs => same a b && sameAll as bs
  | _, _ => false

end

end Value

end Kite
