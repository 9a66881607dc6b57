/-
The table of infix operators: what each builds, how tightly it binds and how it associates.
Level 1 binds loosest.
-/
import Kite.Tree.Basic

namespace Kite.Grammar

inductive Assoc where
  | left
  | right
  /-- Operators of the level cannot be chained. -/
  | none
  deriving DecidableEq

inductive InfixKind where
  | binary (op : BinaryOp)
  | assign (op : Option BinaryOp)
  | range (inclusive : Bool)

structure InfixOp where
  kind : InfixKind
  level : Nat
  assoc : Assoc

def InfixKind.build (kind : InfixKind) (lhs rhs : Expr) : ExprKind :=
  match kind with
  | .binary op => .binary op lhs rhs
  | .assign op => .assign op lhs rhs
  | .range inclusive => .range lhs rhs inclusive

def infixOp? : TokenKind → Option InfixOp
  | .symbol s =>
    match s with
    | .eq => assign none
    | .plusEq => assign (some .add)
    | .minusEq => assign (some .sub)
    | .starEq => assign (some .mul)
    | .slashEq => assign (some .div)
    | .percentEq => assign (some .rem)
    | .ampEq => assign (some .bitAnd)
    | .pipeEq => assign (some .bitOr)
    | .caretEq => assign (some .bitXor)
    | .shlEq => assign (some .shl)
    | .shrEq => assign (some .shr)
    | .dotDot => some ⟨.range false, 2, .none⟩
    | .dotDotEq => some ⟨.range true, 2, .none⟩
    | .pipePipe => left .or 3
    | .ampAmp => left .and 4
    | .eqEq => unchained .eq 5
    | .bangEq => unchained .ne 5
    | .lt => unchained .lt 6
    | .ltEq => unchained .le 6
    | .gt => unchained .gt 6
    | .gtEq => unchained .ge 6
    | .pipe => left .bitOr 7
    | .caret => left .bitXor 8
    | .amp => left .bitAnd 9
    | .shl => left .shl 10
    | .shr => left .shr 10
    | .plus => left .add 11
    | .minus => left .sub 11
    | .star => left .mul 12
    | .slash => left .div 12
    | .percent => left .rem 12
    | _ => none
  | _ => none
where
  assign (op : Option BinaryOp) : Option InfixOp := some ⟨.assign op, 1, .right⟩
  left (op : BinaryOp) (level : Nat) : Option InfixOp := some ⟨.binary op, level, .left⟩
  unchained (op : BinaryOp) (level : Nat) : Option InfixOp := some ⟨.binary op, level, .none⟩

def InfixOp.leftPower (op : InfixOp) : Nat := op.level * 10

def InfixOp.rightPower (op : InfixOp) : Nat :=
  match op.assoc with
  | .right => op.leftPower
  | .left | .none => op.leftPower + 1

/-- `as` binds tighter than every infix operator. -/
def castPower : Nat := 130

/-- Prefix operators bind tighter than `as`. -/
def unaryPower : Nat := 140

end Kite.Grammar
