/-
Patterns of match arms.
-/
import Kite.Grammar.Productions

namespace Kite.Grammar

variable (g : Productions)

def literalPattern (negative : Bool) : Parse PatternKind := do
  let token ← bump
  match token.value with
  | some value => return .literal value negative
  | none =>
    report "E0100" token.span "expected a literal"
    refuse

def variantRound (path : Array Ident) : Parse (Array Ident ⊕ List Ident) := do
  if ← eat (.symbol .colonColon) then return .inl (path.push (← ident "a variant name"))
  return .inr path.toList

def namePattern : Parse PatternKind := do
  let first ← ident "a pattern"
  let path ← repeatFrom #[first] variantRound
  if path.length == 1 && !(← isAt (.symbol .lparen)) then
    return if first.name == "_" then .wildcard else .binding first
  if ← eat (.symbol .lparen) then
    let fields ← itemsBefore .rparen g.pattern
    expectText (.symbol .rparen)
    return .variant path (some fields)
  return .variant path none

def patternKind : Parse PatternKind := do
  match ← kind with
  | .keyword .kwElse =>
    let _ ← bump
    return .wildcard
  | .symbol .minus =>
    if [.intLiteral, .floatLiteral].contains (← nextKind) then
      let _ ← bump
      literalPattern true
    else refuseExpected "a pattern"
  | .intLiteral | .floatLiteral | .stringLiteral | .charLiteral => literalPattern false
  | .keyword .kwTrue =>
    let _ ← bump
    return .literal (.bool true) false
  | .keyword .kwFalse =>
    let _ ← bump
    return .literal (.bool false) false
  | .keyword .kwNone =>
    let _ ← bump
    return .none
  | .keyword .kwSome =>
    let _ ← bump
    expectText (.symbol .lparen)
    let inner ← g.pattern
    expectText (.symbol .rparen)
    return .some inner
  | .ident => namePattern g
  | _ => refuseExpected "a pattern"

def pattern : Parse Pattern := do
  let start ← here
  let kind ← patternKind g
  return ⟨← freshId, kind, ← spanFrom start⟩

end Kite.Grammar
