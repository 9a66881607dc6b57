/-
A tree as text: every node with its identity and the place of its text, so that two trees with
the same outline are the same.
-/
import Kite.Text.Form
import Kite.Tree.Basic

namespace Kite.Outline

open Kite.Text

/-! ## Leaves -/

def place (s : Span) : String := s!"{s.start}-{s.stop}@{s.line}:{s.column}"

def ident (name : Ident) : String := s!"{name.name}<{place name.span}>"

def optIdent (name : Option Ident) : String := orAbsent (name.map ident)

def head (sort : String) (id : NodeId) (span : Span) : List String :=
  [s!"{sort}#{id.index}", place span]

def literal : Literal → String
  | .int value suffix => form ["int", toString value, orAbsent (suffix.map IntTy.name)]
  | .float value suffix => form ["float", formDouble value, orAbsent (suffix.map FloatTy.name)]
  | .str value => form ["str", formString value]
  | .char value => form ["char", toString value.toNat]
  | .bool value => form ["bool", toString value]

/-! ## Patterns -/

mutual

def pattern : Pattern → String
  | ⟨id, kind, span⟩ => form (head "pattern" id span ++ [patternKind kind])

def patternKind : PatternKind → String
  | .wildcard => "(wildcard)"
  | .binding name => form ["binding", ident name]
  | .literal value negative => form [if negative then "negative" else "literal", literal value]
  | .variant path none => form ["variant", sequence (path.map ident), "~"]
  | .variant path (some fields) =>
    form ["variant", sequence (path.map ident), sequence (patterns fields)]
  | .some inner => form ["some", pattern inner]
  | .none => "(none)"

def patterns : List Pattern → List String
  | [] => []
  | p :: rest => pattern p :: patterns rest

end

/-! ## Types, statements and expressions -/

mutual

def type : TypeExpr → String
  | ⟨id, kind, span⟩ => form (head "type" id span ++ [typeKind kind])

def pathType : PathType → String
  | ⟨segments, args, span⟩ =>
    form ["path", place span, sequence (segments.map ident), sequence (types args)]

def typeKind : TypeKind → String
  | .path path => pathType path
  | .vector element => form ["vector", type element]
  | .array element length => form ["array", type element, expr length]
  | .optional inner => form ["optional", type inner]
  | .tuple items => form ["tuple", sequence (types items)]
  | .view isMut inner => form [if isMut then "ref-mut" else "ref", type inner]
  | .raw inner => form ["raw", type inner]
  | .function params result => form ["function", sequence (types params), type result]
  | .const value => form ["const", expr value]

def types : List TypeExpr → List String
  | [] => []
  | t :: rest => type t :: types rest

def optType : Option TypeExpr → String
  | none => "~"
  | some t => type t

def block : Block → String
  | ⟨id, body, tail, span⟩ => form (head "block" id span ++ [sequence (stmts body), optExpr tail])

def stmt : Stmt → String
  | ⟨id, kind, span⟩ => form (head "stmt" id span ++ [stmtKind kind])

def stmtKind : StmtKind → String
  | .letDecl name isMut declared init =>
    form [if isMut then "let-mut" else "let", ident name, optType declared, expr init]
  | .expr e semi => form [if semi then "semi" else "expr", expr e]
  | .whileLoop cond body => form ["while", expr cond, block body]
  | .loop body => form ["loop", block body]
  | .forLoop binding iterable body => form ["for", ident binding, expr iterable, block body]
  | .defer inner => form ["defer", stmt inner]
  | .assert condition message => form ["assert", expr condition, optExpr message]
  | .comptimeIf cond thenBlock elseBranch =>
    form ["comptime-if", expr cond, block thenBlock, optStmt elseBranch]

def stmts : List Stmt → List String
  | [] => []
  | s :: rest => stmt s :: stmts rest

def optStmt : Option Stmt → String
  | none => "~"
  | some s => stmt s

def expr : Expr → String
  | ⟨id, kind, span⟩ => form (head "expr" id span ++ [exprKind kind])

def exprKind : ExprKind → String
  | .literal value => literal value
  | .none => "(none)"
  | .some inner => form ["some", expr inner]
  | .this => "(this)"
  | .path parts span => form ["path", place span, sequence (segments parts)]
  | .paren inner => form ["paren", expr inner]
  | .unary op operand => form ["unary", op.symbol, expr operand]
  | .binary op lhs rhs => form ["binary", op.symbol, expr lhs, expr rhs]
  | .assign op target value => form ["assign", assignSymbol op, expr target, expr value]
  | .range start stop inclusive => form ["range", rangeSymbol inclusive, expr start, expr stop]
  | .cast inner target => form ["cast", expr inner, type target]
  | .call callee params => form ["call", expr callee, sequence (args params)]
  | .methodCall receiver method generics params =>
    form ["method", expr receiver, ident method, sequence (types generics), sequence (args params)]
  | .field base name => form ["field", expr base, ident name]
  | .tupleIndex base index span => form ["tuple-index", expr base, s!"{index}<{place span}>"]
  | .index base index => form ["index", expr base, expr index]
  | .unwrap inner => form ["unwrap", expr inner]
  | .tuple items => form ["tuple", sequence (exprs items)]
  | .vector items => form ["vector", sequence (exprs items)]
  | .fill value count => form ["fill", expr value, expr count]
  | .cond cond thenBlock elseBranch => form ["if", expr cond, block thenBlock, optExpr elseBranch]
  | .matchWith scrutinee branches => form ["match", expr scrutinee, sequence (arms branches)]
  | .block body => block body
  | .unchecked body => form ["unsafe", block body]
  | .ret value => form ["return", optExpr value]
  | .brk => "(break)"
  | .cont => "(continue)"

def exprs : List Expr → List String
  | [] => []
  | e :: rest => expr e :: exprs rest

def optExpr : Option Expr → String
  | none => "~"
  | some e => expr e

def segment : PathSegment → String
  | ⟨name, params⟩ => form ["segment", ident name, sequence (types params)]

def segments : List PathSegment → List String
  | [] => []
  | s :: rest => segment s :: segments rest

def arg : Arg → String
  | ⟨label, value⟩ => form ["arg", optIdent label, expr value]

def args : List Arg → List String
  | [] => []
  | a :: rest => arg a :: args rest

def arm : MatchArm → String
  | ⟨id, alternatives, body, span⟩ =>
    form (head "arm" id span ++ [sequence (patterns alternatives), expr body])

def arms : List MatchArm → List String
  | [] => []
  | a :: rest => arm a :: arms rest

end

/-! ## Declarations -/

def generic (param : GenericParam) : String :=
  let rest :=
    match param.kind with
    | .type bounds => ["type", sequence (bounds.map pathType)]
    | .const declared => ["const", type declared]
  form ([s!"generic#{param.id.index}", ident param.name] ++ rest)

def generics (params : List GenericParam) : String := sequence (params.map generic)

def receiver : Option (Receiver × Span) → String
  | none => "~"
  | some (.view, span) => s!"this<{place span}>"
  | some (.mutable, span) => s!"mut-this<{place span}>"

def param (p : Param) : String :=
  form (head "param" p.id p.span ++ [if p.isMut then "mut" else "let", ident p.name, type p.type])

def functionBody : FunctionBody → String
  | .block body => block body
  | .expr value => form ["arrow", expr value]
  | .none => "~"

def functionFlavour (isComptime isForeign : Bool) : String :=
  match isComptime, isForeign with
  | false, false => "plain"
  | true, false => "comptime"
  | false, true => "extern"
  | true, true => "comptime-extern"

def function (f : FunctionDecl) : String :=
  form (head "function" f.id f.span ++
    [functionFlavour f.isComptime f.isForeign, ident f.name, generics f.generics,
      receiver f.receiver, sequence (f.params.map param), optType f.result, functionBody f.body])

def functions (fs : List FunctionDecl) : String := sequence (fs.map function)

def field (f : FieldDecl) : String := form (head "field" f.id f.span ++ [ident f.name, type f.type])

def variant (v : VariantDecl) : String :=
  form (head "variant" v.id v.span ++
    [ident v.name, sequence (v.payload.map type), optExpr v.discriminant])

def itemKind : ItemKind → String
  | .importUnit decl => form ["import", ident decl.unit, optIdent decl.newName]
  | .function decl => function decl
  | .struct name params fields methods isClass =>
    form [if isClass then "class" else "struct", ident name, generics params,
      sequence (fields.map field), functions methods]
  | .enum name params repr variants methods =>
    form ["enum", ident name, generics params, optType repr, sequence (variants.map variant),
      functions methods]
  | .trait name methods => form ["trait", ident name, functions methods]
  | .impl params traitRef target methods =>
    form ["impl", generics params, orAbsent (traitRef.map pathType), type target, functions methods]
  | .const name declared value => form ["const", ident name, type declared, expr value]
  | .static name isMut declared value =>
    form [if isMut then "static-mut" else "static", ident name, type declared, expr value]
  | .assert condition message => form ["assert", expr condition, optExpr message]

def item (i : Item) : String := form (head "item" i.id i.span ++ [itemKind i.kind])

def unit (m : Module) : String := form ["module", place m.span, sequence (m.items.map item)]

end Kite.Outline
