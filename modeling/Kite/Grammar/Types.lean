/-
Types as written. In a type `<` always opens a list of generic arguments.
-/
import Kite.Grammar.Productions

namespace Kite.Grammar

variable (g : Productions)

def literalExpr : Parse ExprKind := do
  match (← bump).value with
  | some value => return .literal value
  | none => refuse

/-- Tokens that may begin with the `>` that closes a generic list. -/
def closesAngle (kind : TokenKind) : Bool := kind == .symbol .gt || (afterAngle? kind).isSome

def constArg : Parse TypeExpr := do
  let start ← here
  let value ←
    if ← eat (.symbol .lbrace) then
      let value ← g.expr
      expectText (.symbol .rbrace)
      pure value
    else
      let kind ← literalExpr
      pure ⟨← freshId, kind, ← spanFrom start⟩
  return ⟨← freshId, .const value, ← spanFrom start⟩

def genericArg : Parse TypeExpr := do
  let token ← kind
  if token == .intLiteral || token == .symbol .lbrace then constArg g else g.type

/-- `<A, B, 4>`, with the cursor on `<`. -/
def genericArgs : Parse (List TypeExpr) := do
  expectText (.symbol .lt)
  let (args, _) ← commaList closesAngle (genericArg g)
  closeAngle
  return args

def segmentRound (segments : Array Ident) : Parse (Array Ident ⊕ List Ident) := do
  if (← isAt (.symbol .colonColon)) && (← nextKind) == .ident then
    let _ ← bump
    return .inl (segments.push (← ident "a type name"))
  return .inr segments.toList

def pathType : Parse PathType := do
  let start ← here
  let first ← ident "a type name"
  let segments ← repeatFrom #[first] segmentRound
  let args ← if ← isAt (.symbol .lt) then genericArgs g else pure []
  return { segments, args, span := ← spanFrom start }

def markRound (start : Span) (type : TypeExpr) : Parse (TypeExpr ⊕ TypeExpr) := do
  if ← eat (.symbol .question) then
    return .inl ⟨← freshId, .optional type, ← spanFrom start⟩
  return .inr type

def optionalMarks (start : Span) (type : TypeExpr) : Parse TypeExpr := repeatFrom type (markRound start)

/-- What stands before the marks, when it is not a parenthesised type. -/
def typeKind : Parse TypeKind := do
  match ← kind with
  | .symbol .lbracket =>
    let _ ← bump
    let element ← g.type
    if ← eat (.symbol .semi) then
      let length ← g.expr
      expectText (.symbol .rbracket)
      return .array element length
    let _ ← expect (.symbol .rbracket) "`]` or `;`"
    return .vector element
  | .symbol .amp =>
    let _ ← bump
    let isMut ← eat (.keyword .kwMut)
    return .view isMut (← g.type)
  | .keyword .kwRaw =>
    let _ ← bump
    return .raw (← g.type)
  | .keyword .kwFunction =>
    let _ ← bump
    expectText (.symbol .lparen)
    let params ← itemsBefore .rparen g.type
    expectText (.symbol .rparen)
    if ← eat (.symbol .arrow) then
      return .function params (← g.type)
    return .function params ⟨← freshId, .tuple [], (← get).lastSpan⟩
  | .ident => return .path (← pathType g)
  | _ => refuseExpected "a type"

/-- A type. Parentheses around a single type only group. -/
def typeExpr : Parse TypeExpr := do
  let start ← here
  if ← eat (.symbol .lparen) then
    let (items, comma) ← commaList (· == .symbol .rparen) g.type
    expectText (.symbol .rparen)
    match items, comma with
    | [inner], false => optionalMarks start { inner with span := ← spanFrom start }
    | items, _ => optionalMarks start ⟨← freshId, .tuple items, ← spanFrom start⟩
  else
    let kind ← typeKind g
    optionalMarks start ⟨← freshId, kind, ← spanFrom start⟩

end Kite.Grammar
