/-
Functions and methods that every unit knows without a declaration.
-/
namespace Kite

inductive BuiltinFn where
  | println
  | print
  | eprintln
  | panic
  deriving DecidableEq, Inhabited

namespace BuiltinFn

def all : List BuiltinFn := [.println, .print, .eprintln, .panic]

def name : BuiltinFn → String
  | .println => "println"
  | .print => "print"
  | .eprintln => "eprintln"
  | .panic => "panic"

/-- Whether the first argument is a format with `{}` holes. -/
def formats : BuiltinFn → Bool
  | .panic => false
  | _ => true

def ofName? (name : String) : Option BuiltinFn := all.find? (·.name == name)

end BuiltinFn

/-- The number of `{}` in a format; doubled braces stand for themselves. -/
def formatHoles (format : String) : Nat := go format.toList
where
  go : List Char → Nat
    | '\x7b' :: '\x7b' :: rest | '\x7d' :: '\x7d' :: rest => go rest
    | '\x7b' :: '\x7d' :: rest => go rest + 1
    | _ :: rest => go rest
    | [] => 0

inductive ReceiverShape where
  | string
  | vector
  | array
  | optional
  deriving DecidableEq, Inhabited

inductive BuiltinMethod where
  | stringLen
  | stringIsEmpty
  | vectorLen
  | vectorPush
  | vectorPop
  | vectorIsEmpty
  | arrayLen
  | optionalHasValue
  deriving DecidableEq, Inhabited

namespace BuiltinMethod

def all : List BuiltinMethod :=
  [.stringLen, .stringIsEmpty, .vectorLen, .vectorPush, .vectorPop, .vectorIsEmpty, .arrayLen,
    .optionalHasValue]

def receiver : BuiltinMethod → ReceiverShape
  | .stringLen | .stringIsEmpty => .string
  | .vectorLen | .vectorPush | .vectorPop | .vectorIsEmpty => .vector
  | .arrayLen => .array
  | .optionalHasValue => .optional

def name : BuiltinMethod → String
  | .stringLen | .vectorLen | .arrayLen => "len"
  | .stringIsEmpty | .vectorIsEmpty => "is_empty"
  | .vectorPush => "push"
  | .vectorPop => "pop"
  | .optionalHasValue => "has_value"

def arity : BuiltinMethod → Nat
  | .vectorPush => 1
  | _ => 0

def mutates : BuiltinMethod → Bool
  | .vectorPush | .vectorPop => true
  | _ => false

def isPure (method : BuiltinMethod) : Bool := !method.mutates

def find? (receiver : ReceiverShape) (name : String) : Option BuiltinMethod :=
  all.find? fun method => method.receiver == receiver && method.name == name

end BuiltinMethod

end Kite
