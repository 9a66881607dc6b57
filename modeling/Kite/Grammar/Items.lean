/-
Declarations.
-/
import Kite.Grammar.Statements

namespace Kite.Grammar

variable (g : Productions)

def importDecl : Parse ItemKind := do
  expectText (.keyword .kwImport)
  let unit ← ident "a unit name"
  let newName ← if ← eat (.keyword .kwAs) then pure (some (← ident "an alias")) else pure none
  expectText (.symbol .semi)
  return .importUnit { unit, newName }

/-! ## Functions -/

def boundRound (bounds : Array PathType) : Parse (Array PathType ⊕ List PathType) := do
  let bounds := bounds.push (← pathType g)
  if ← eat (.symbol .plus) then return .inl bounds
  return .inr bounds.toList

def genericParam : Parse GenericParam := do
  let id ← freshId
  if ← eat (.keyword .kwConst) then
    let name ← ident "a const parameter name"
    expectText (.symbol .colon)
    return { id, name, kind := .const (← g.type) }
  let name ← ident "a type parameter name"
  if ← eat (.symbol .colon) then
    let bounds ← repeatFrom #[] (boundRound g)
    return { id, name, kind := .type bounds }
  return { id, name, kind := .type [] }

def genericParams : Parse (List GenericParam) := do
  if !(← eat (.symbol .lt)) then return []
  let (params, _) ←
    commaList (fun kind => kind == .symbol .gt || kind == .symbol .shr) (genericParam g)
  closeAngle
  return params

/-- `this` or `mut this`, if the list of parameters begins with it. -/
def receiver? : Parse (Option (Receiver × Span)) := do
  match ← kind, ← nextKind with
  | .keyword .kwThis, _ => return some (.view, (← bump).span)
  | .keyword .kwMut, .keyword .kwThis =>
    let first := (← bump).span
    return some (.mutable, first.through (← bump).span)
  | _, _ => return none

def param : Parse Param := do
  let start ← here
  let isMut ← eat (.keyword .kwMut)
  let name ← ident "a parameter name"
  expectText (.symbol .colon)
  let type ← g.type
  return { id := ← freshId, name, isMut, type, span := ← spanFrom start }

def functionBody : Parse FunctionBody := do
  if ← isAt (.symbol .lbrace) then return .block (← g.block)
  if ← eat (.symbol .fatArrow) then
    let expr ← g.expr
    expectText (.symbol .semi)
    return .expr expr
  if ← eat (.symbol .semi) then return .none
  refuseExpected "a function body"

def function (g : Productions) (isComptime isForeign : Bool) : Parse FunctionDecl := do
  let start ← here
  expectText (.keyword .kwFunction)
  let id ← freshId
  let name ← ident "a function name"
  let generics ← genericParams g
  expectText (.symbol .lparen)
  let receiver ← receiver?
  if receiver.isSome && !(← isAt (.symbol .rparen)) then
    let _ ← expect (.symbol .comma) "`,` or `)`"
  let params ← itemsBefore .rparen (param g)
  expectText (.symbol .rparen)
  let result ← if ← eat (.symbol .arrow) then pure (some (← g.type)) else pure none
  let body ← functionBody g
  return { id, name, generics, receiver, params, result, body, isComptime, isForeign,
           span := ← spanFrom start }

def method? : Parse (Option FunctionDecl) := do
  match ← kind, ← nextKind with
  | .keyword .kwFunction, _ => return some (← function g false false)
  | .keyword .kwComptime, .keyword .kwFunction =>
    let _ ← bump
    return some (← function g true false)
  | _, _ => return none

/-! ## Types and traits -/

def startsMethod (kind : TokenKind) : Bool := kind == .keyword .kwFunction || kind == .keyword .kwComptime

/-- One member more, unless the list ends here: a method, or what `other` parses. -/
def memberRound (g : Productions) (other : Parse α) :
    Array α × Array FunctionDecl →
      Parse ((Array α × Array FunctionDecl) ⊕ (List α × List FunctionDecl))
  | (others, methods) => do
    if ← isAt (.symbol .rbrace) then return .inr (others.toList, methods.toList)
    match ← method? g with
    | some method => return .inl (others, methods.push method)
    | none => return .inl (others.push (← other), methods)

def members (g : Productions) (other : Parse α) : Parse (List α × List FunctionDecl) := do
  expectText (.symbol .lbrace)
  let result ← repeatFrom (#[], #[]) (memberRound g other)
  expectText (.symbol .rbrace)
  return result

/-- What stands after a field: one `,` or one `;`, or else the end of the list or a method. -/
def fieldEnd : Parse Unit := do
  if ← eat (.symbol .comma) then return
  if ← eat (.symbol .semi) then return
  if !(← isAt (.symbol .rbrace)) && !startsMethod (← kind) then refuseExpected "`,`"

def field (g : Productions) : Parse FieldDecl := do
  if !(← isAt .ident) then refuseExpected "a field or method"
  let start ← here
  let name ← ident "a field name"
  expectText (.symbol .colon)
  let type ← g.type
  let field : FieldDecl := { id := ← freshId, name, type, span := ← spanFrom start }
  fieldEnd
  return field

def struct (g : Productions) : Parse ItemKind := do
  let isClass := (← bump).kind == .keyword .kwClass
  let name ← ident "a type name"
  let generics ← genericParams g
  let (fields, methods) ← members g (field g)
  return .struct name generics fields methods isClass

def variant (g : Productions) : Parse VariantDecl := do
  let start ← here
  let name ← ident "a variant name"
  let payload ←
    if ← eat (.symbol .lparen) then
      let payload ← itemsBefore .rparen g.type
      expectText (.symbol .rparen)
      pure payload
    else pure []
  let discriminant ← if ← eat (.symbol .eq) then pure (some (← g.expr)) else pure none
  let variant : VariantDecl := { id := ← freshId, name, payload, discriminant, span := ← spanFrom start }
  if !(← eat (.symbol .comma)) then
    if !(← isAt (.symbol .rbrace)) && !startsMethod (← kind) then refuseExpected "`,` or `\x7d`"
  return variant

def enum (g : Productions) : Parse ItemKind := do
  expectText (.keyword .kwEnum)
  let name ← ident "an enum name"
  let generics ← genericParams g
  let repr ← if ← eat (.symbol .colon) then pure (some (← g.type)) else pure none
  let (variants, methods) ← members g (variant g)
  return .enum name generics repr variants methods

def requiredRound (methods : Array FunctionDecl) :
    Parse (Array FunctionDecl ⊕ List FunctionDecl) := do
  match ← kind with
  | .symbol .rbrace => return .inr methods.toList
  | .eof => refuseExpected "`\x7d`"
  | _ => return .inl (methods.push (← function g false false))

def trait (g : Productions) : Parse ItemKind := do
  expectText (.keyword .kwTrait)
  let name ← ident "a trait name"
  expectText (.symbol .lbrace)
  let methods ← repeatFrom #[] (requiredRound g)
  expectText (.symbol .rbrace)
  return .trait name methods

/-- The target of an implementation, and the trait before `for` if there is one. -/
def implHead : Parse (Option PathType × TypeExpr) := do
  let first ← g.type
  if ← eat (.keyword .kwFor) then
    match first.kind with
    | .path path => return (some path, ← g.type)
    | _ =>
      report "E0100" first.span "expected a trait name before `for`"
      refuse
  return (none, first)

def impl (g : Productions) : Parse ItemKind := do
  expectText (.keyword .kwImpl)
  let generics ← genericParams g
  let (traitRef, target) ← implHead g
  let (_, methods) ← members g (refuseExpected "a method" : Parse Unit)
  return .impl generics traitRef target methods

/-! ## Globals -/

/-- `name: type = value;` -/
def globalTail (what : String) : Parse (Ident × TypeExpr × Expr) := do
  let name ← ident what
  expectText (.symbol .colon)
  let type ← g.type
  expectText (.symbol .eq)
  let value ← g.expr
  expectText (.symbol .semi)
  return (name, type, value)

def const (g : Productions) : Parse ItemKind := do
  expectText (.keyword .kwConst)
  let (name, type, value) ← globalTail g "a constant name"
  return .const name type value

def static (g : Productions) : Parse ItemKind := do
  expectText (.keyword .kwStatic)
  let isMut ← eat (.keyword .kwMut)
  let (name, type, value) ← globalTail g "a static name"
  return .static name isMut type value

/-! ## Any declaration -/

/-- What `comptime` begins at the top level. -/
def comptimeItem : Parse ItemKind := do
  let following ← nextKind
  let _ ← bump
  match following with
  | .keyword .kwFunction => return .function (← function g true false)
  | .keyword .kwAssert =>
    let (condition, message) ← assertion g
    expectText (.symbol .semi)
    return .assert condition message
  | _ => refuseExpected "`function` or `assert` after `comptime`"

def itemKind : Parse ItemKind := do
  match ← kind with
  | .keyword .kwImport => importDecl
  | .keyword .kwFunction => return .function (← function g false false)
  | .keyword .kwComptime => comptimeItem g
  | .keyword .kwExternal =>
    let _ ← bump
    return .function (← function g false true)
  | .keyword .kwStruct | .keyword .kwClass => struct g
  | .keyword .kwEnum => enum g
  | .keyword .kwTrait => trait g
  | .keyword .kwImpl => impl g
  | .keyword .kwConst => const g
  | .keyword .kwStatic => static g
  | _ => refuseExpected "a declaration"

def item : Parse Item := do
  let start ← here
  let id ← freshId
  let kind ← itemKind g
  return { id, kind, span := ← spanFrom start }

end Kite.Grammar
