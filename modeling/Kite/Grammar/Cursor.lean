/-
The state of parsing and the elementary steps on it. A production either succeeds, refuses its
input after reporting why, or runs out of the fuel that bounds the recursion of the grammar; in
every case the state it has reached is kept, so a recovery point can continue from there.

The cursor always has a current token. The last token is the end of input, which no step passes.
`State.weight` measures what is left: a closing angle may split a token such as `>>`, so such a
token weighs as much as the tokens it can be split into.
-/
import Kite.Diagnostic
import Kite.Tree.Basic

namespace Kite.Grammar

variable (expected : TokenKind)

structure State where
  current : Token
  ahead : List Token
  previous : Option Span := none
  diagnostics : Array Diagnostic := #[]
  depth : Nat := 0
  maxDepth : Nat
  /-- Whether the statement being parsed was already reported as nested too deeply. -/
  depthReported : Bool := false
  nextId : Nat := 1

inductive Stop where
  | refused
  | exhausted
  deriving DecidableEq

abbrev Parse := ExceptT Stop (StateM State)

/-! ## Looking at tokens -/

def tokenWeight : TokenKind → Nat
  | .eof => 0
  | .symbol .shr | .symbol .gtEq => 2
  | .symbol .shrEq => 3
  | _ => 1

def State.weight (s : State) : Nat :=
  s.ahead.foldr (fun token n => tokenWeight token.kind + n) (tokenWeight s.current.kind)

def State.kind (s : State) : TokenKind := s.current.kind

def State.nextKind (s : State) : TokenKind :=
  match s.ahead with
  | [] => s.current.kind
  | token :: _ => token.kind

/-- The state one token further. The end of input stays current. -/
def State.advance (s : State) : State :=
  match s.current.kind, s.ahead with
  | .eof, _ | _, [] => s
  | _, token :: rest => { s with current := token, ahead := rest, previous := some s.current.span }

def State.lastSpan (s : State) : Span := s.previous.getD s.current.span

def kind : Parse TokenKind := return (← get).kind

def nextKind : Parse TokenKind := return (← get).nextKind

def here : Parse Span := return (← get).current.span

def isAt : Parse Bool := return (← kind) == expected

def spanFrom (start : Span) : Parse Span := return start.through (← get).lastSpan

def bump : Parse Token := do
  let token := (← get).current
  modify State.advance
  return token

def eat : Parse Bool := do
  if ← isAt expected then
    let _ ← bump
    return true
  return false

def freshId : Parse NodeId := do
  let s ← get
  set { s with nextId := s.nextId + 1 }
  return ⟨s.nextId⟩

/-! ## Reports -/

def refuse : Parse α := throw .refused

def report (code : String) (span : Span) (message : String) : Parse Unit :=
  modify fun s => { s with diagnostics := s.diagnostics.push (.error .grammar code span message) }

def describeFound (token : Token) : String :=
  match token.kind with
  | .ident => s!"identifier `{token.text}`"
  | .eof => "end of input"
  | .keyword k => s!"keyword `{k.text}`"
  | kind => s!"`{kind.describe}`"

/-- Reports what was expected here, unless the token was reported as invalid before. -/
def reportExpected (what : String) : Parse Unit := do
  let token := (← get).current
  unless token.kind == .error do
    report "E0100" token.span s!"expected {what}, found {describeFound token}"

def refuseExpected (what : String) : Parse α := do
  reportExpected what
  refuse

def expect (what : String) : Parse Token := do
  if ← isAt expected then bump else refuseExpected what

/-- Passes a symbol or keyword, named in the report by its own spelling. -/
def expectText : Parse Unit := do
  let _ ← expect expected s!"`{expected.describe}`"

def ident (what : String) : Parse Ident := do
  let token ← expect .ident what
  return { name := token.text, span := token.span }

/-- What remains of a token that starts with `>` after that `>`. -/
def afterAngle? : TokenKind → Option TokenKind
  | .symbol .shr => some (.symbol .gt)
  | .symbol .gtEq => some (.symbol .eq)
  | .symbol .shrEq => some (.symbol .gtEq)
  | _ => none

/-- Passes the `>` that closes a generic list. It may be the first half of a longer token, of
which the rest stays current. -/
def closeAngle : Parse Unit := do
  let s ← get
  if s.kind == .symbol .gt then
    set s.advance
  else
    match afterAngle? s.kind with
    | none => refuseExpected "`>`"
    | some rest =>
      let span := s.current.span
      let span := { span with start := span.start + 1, column := span.column + 1 }
      set { s with current := { s.current with kind := rest, span } }

/-! ## Nesting, repetition and recovery -/

/-- Runs a production one level deeper, or refuses when that is too deep. -/
def nested (p : Parse α) : Parse α := do
  let s ← get
  if s.maxDepth < s.depth + 1 then
    unless s.depthReported do
      set { s with depthReported := true }
      report "E0110" s.current.span s!"expression too deeply nested (limit is {s.maxDepth})"
    refuse
  else
    set { s with depth := s.depth + 1 }
    let leave : Parse Unit := modify fun s => { s with depth := s.depth - 1 }
    try
      let result ← p
      leave
      return result
    catch stop =>
      leave
      throw stop

/-- Runs `step` from `init` until it gives a result, at most `fuel` times. -/
def iterate (step : σ → Parse (σ ⊕ β)) : Nat → σ → Parse β
  | 0, _ => throw .exhausted
  | fuel + 1, state => do
    match ← step state with
    | .inl next => iterate step fuel next
    | .inr result => return result

/-- Runs `step` until it gives a result. Every round but the last has to pass a token. -/
def repeatFrom (init : σ) (step : σ → Parse (σ ⊕ β)) : Parse β := do
  iterate step ((← get).weight + 1) init

/-- One item more and the comma behind it, unless the list ends here. The state is the items so far
and whether a comma follows them. -/
def commaRound (isEnd : TokenKind → Bool) (item : Parse α) :
    Array α × Bool → Parse ((Array α × Bool) ⊕ (List α × Bool))
  | (items, comma) => do
    if isEnd (← kind) then return .inr (items.toList, comma)
    let items := items.push (← item)
    if ← eat (.symbol .comma) then return .inl (items, true)
    return .inr (items.toList, false)

/-- Items separated by commas, up to a token of which `isEnd` holds; a comma may follow the last
one. Also says whether it does. -/
def commaList (isEnd : TokenKind → Bool) (item : Parse α) : Parse (List α × Bool) :=
  repeatFrom (#[], false) (commaRound isEnd item)

def itemsBefore (close : Symbol) (item : Parse α) : Parse (List α) := do
  return (← commaList (· == .symbol close) item).1

/-- Runs `p`; if it refuses, runs `recovery` from the state it has reached. -/
def recovering (p : Parse α) (recovery : Parse α) : Parse α := do
  try p catch
    | .refused => recovery
    | .exhausted => throw .exhausted

end Kite.Grammar
