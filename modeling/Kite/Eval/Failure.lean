/-
Why an evaluation fails, and the limits under which it runs.
-/
import Kite.Diagnostic

namespace Kite

inductive EvalError where
  | divisionByZero
  | recursionLimit (limit : Nat)
  | stepLimit (limit : UInt64)
  /-- A call of a function that may only run in the program. -/
  | notComptime (name : String)
  | notConstant (what : String)
  | assertionFailed (message : String)
  | overflow (value : Int) (type : String)
  | indexOutOfBounds (index : Int) (length : Nat)
  | unwrapNone
  | panicked (message : String)
  /-- A constant whose value depends on itself. -/
  | cycle (name : String)
  | noArmMatched
  /-- A constant that failed before and was reported then. -/
  | poisoned
  /-- The evaluator itself stops, where a machine word or a slice of its own is out of range. -/
  | aborted
  deriving DecidableEq, Inhabited

namespace EvalError

def message : EvalError → String
  | .divisionByZero => "division by zero in constant expression"
  | .recursionLimit limit => s!"compile-time call depth exceeded the limit of {limit}"
  | .stepLimit limit => s!"compile-time evaluation exceeded the step limit of {limit}"
  | .notComptime name => s!"`{name}` is not a comptime function and cannot be called at compile time"
  | .notConstant what => s!"{what} cannot be evaluated at compile time"
  | .assertionFailed text => s!"compile-time assertion failed: {text}"
  | .overflow value type => s!"arithmetic overflow: {value} does not fit in {type}"
  | .indexOutOfBounds index length => s!"index {index} is out of bounds for length {length}"
  | .unwrapNone => "unwrapped `none` at compile time"
  | .panicked text => s!"panic during compile-time evaluation: {text}"
  | .cycle name => s!"the value of `{name}` depends on itself"
  | .noArmMatched => "no match arm matched the value at compile time"
  | .poisoned => "the referenced constant has errors"
  | .aborted => "the evaluator stopped"

def code : EvalError → String
  | .divisionByZero => "E0601"
  | .recursionLimit _ | .stepLimit _ => "E0602"
  | .notComptime _ | .notConstant _ => "E0603"
  | .assertionFailed _ => "E0604"
  | .overflow _ _ => "E0605"
  | .cycle _ => "E0606"
  | .indexOutOfBounds _ _ | .unwrapNone | .panicked _ | .noArmMatched | .poisoned | .aborted => "E0607"

def isLate : EvalError → Bool
  | .notConstant _ | .notComptime _ | .poisoned => true
  | _ => false

end EvalError

structure EvalFailure where
  error : EvalError
  span : Span
  deriving Inhabited

def EvalFailure.toDiagnostic (f : EvalFailure) : Diagnostic :=
  .error .constEval f.error.code f.span f.error.message

/-- A limit can be given as a number. -/
instance natCoe : Coe Nat UInt64 := ⟨.ofNat⟩

structure EvalLimits where
  depth : Nat := 128
  steps : UInt64 := 1000000

end Kite
