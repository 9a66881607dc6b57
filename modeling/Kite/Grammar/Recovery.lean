/-
Skipping to a place where parsing can go on. Each kind of recovery passes tokens, keeping count
of the brackets it has entered, until it meets a token at which the surrounding list continues.
-/
import Kite.Grammar.Cursor

namespace Kite.Grammar

def startsItem : TokenKind → Bool
  | .keyword k =>
    [.kwFunction, .kwStruct, .kwClass, .kwEnum, .kwTrait, .kwImpl, .kwImport, .kwConst, .kwStatic,
      .kwExternal, .kwComptime].contains k
  | _ => false

def startsStmt : TokenKind → Bool
  | .keyword k =>
    [.kwLet, .kwWhile, .kwFor, .kwLoop, .kwReturn, .kwDefer, .kwIf, .kwMatch, .kwBreak,
      .kwContinue].contains k
  | _ => false

def bracketDepth (depth : Nat) : TokenKind → Nat
  | .symbol .lbrace | .symbol .lparen | .symbol .lbracket => depth + 1
  | .symbol .rbrace | .symbol .rparen | .symbol .rbracket => depth - 1
  | _ => depth

inductive Sync where
  | stop
  | stopAfter
  | skip

/-- Passes one token, unless `decide` or the end of input says otherwise. The state is the bracket
depth and whether a token was passed. -/
def skipRound (decide : Nat → Bool → TokenKind → Sync) : Nat × Bool → Parse ((Nat × Bool) ⊕ Unit)
  | (depth, moved) => do
    let token ← kind
    if token == .eof then return .inr ()
    match decide depth moved token with
    | .stop => return .inr ()
    | .stopAfter =>
      let _ ← bump
      return .inr ()
    | .skip =>
      let _ ← bump
      return .inl (bracketDepth depth token, true)

/-- Passes tokens until `decide` says otherwise. It is told the bracket depth, whether a token was
passed, and the token; the end of input always ends the skipping. -/
def skipTo (decide : Nat → Bool → TokenKind → Sync) : Parse Unit := repeatFrom (0, false) (skipRound decide)

def syncItem : Parse Unit :=
  skipTo fun depth moved token => if depth == 0 && moved && startsItem token then .stop else .skip

def syncStmt : Parse Unit := do
  modify fun s => { s with depthReported := false }
  skipTo fun depth moved token =>
    if depth != 0 then .skip
    else if token == .symbol .semi then .stopAfter
    else if token == .symbol .rbrace then .stop
    else if moved && (startsStmt token || startsItem token) then .stop
    else .skip

def syncArm : Parse Unit :=
  skipTo fun depth _ token =>
    if depth != 0 then .skip
    else if token == .symbol .comma then .stopAfter
    else if token == .symbol .rbrace then .stop
    else .skip

end Kite.Grammar
