/-
The tree of one source unit as written: declarations, types, statements, expressions and
patterns. Every node carries an identity that is unique in its unit and the span of its text.
Nodes own their children and do not know their parents.
-/
import Kite.Token.Basic
import Kite.Tree.Operator

namespace Kite

structure NodeId where
  index : Nat
  deriving DecidableEq, Hashable, Inhabited

def NodeId.root : NodeId := ⟨0⟩

structure Ident where
  name : String
  span : Span
  deriving DecidableEq, Inhabited

/-! ## Patterns -/

mutual

structure Pattern where
  id : NodeId
  kind : PatternKind
  span : Span

inductive PatternKind where
  /-- `_` or `else` -/
  | wildcard
  | binding (name : Ident)
  | literal (value : Literal) (negative : Bool)
  /-- `Enum::Variant`, with the patterns of the payload if it has parentheses. -/
  | variant (path : List Ident) (fields : Option (List Pattern))
  | some (inner : Pattern)
  | none

end

/-! ## Types, statements and expressions -/

mutual

structure TypeExpr where
  id : NodeId
  kind : TypeKind
  span : Span

/-- A type name with the generic arguments of its last segment. -/
structure PathType where
  segments : List Ident
  args : List TypeExpr
  span : Span

inductive TypeKind where
  | path (path : PathType)
  /-- `[T]` -/
  | vector (element : TypeExpr)
  /-- `[T; n]` -/
  | array (element : TypeExpr) (length : Expr)
  /-- `T?` -/
  | optional (inner : TypeExpr)
  /-- `(A, B)`; the empty tuple is `void`. -/
  | tuple (items : List TypeExpr)
  /-- `&T` or `&mut T` -/
  | view (isMut : Bool) (inner : TypeExpr)
  | raw (inner : TypeExpr)
  | function (params : List TypeExpr) (result : TypeExpr)
  /-- A constant generic argument such as the `4` of `Buffer<4>`. -/
  | const (value : Expr)

structure Block where
  id : NodeId
  stmts : List Stmt
  /-- The last expression when no `;` follows it: the value of the block. -/
  tail : Option Expr
  span : Span

structure Stmt where
  id : NodeId
  kind : StmtKind
  span : Span

inductive StmtKind where
  | letDecl (name : Ident) (isMut : Bool) (type : Option TypeExpr) (init : Expr)
  /-- An expression with or without `;`. -/
  | expr (expr : Expr) (semi : Bool)
  | whileLoop (cond : Expr) (body : Block)
  | loop (body : Block)
  | forLoop (binding : Ident) (iterable : Expr) (body : Block)
  | defer (inner : Stmt)
  | assert (condition : Expr) (message : Option Expr)
  | comptimeIf (cond : Expr) (thenBlock : Block) (elseBranch : Option Stmt)

structure Expr where
  id : NodeId
  kind : ExprKind
  span : Span

structure PathSegment where
  ident : Ident
  /-- Explicit generic arguments: `name::<T>`. -/
  args : List TypeExpr

structure Arg where
  label : Option Ident
  value : Expr

structure MatchArm where
  id : NodeId
  /-- Alternatives separated by `|`. -/
  patterns : List Pattern
  body : Expr
  span : Span

inductive ExprKind where
  | literal (value : Literal)
  | none
  | some (inner : Expr)
  | this
  | path (segments : List PathSegment) (span : Span)
  | paren (inner : Expr)
  | unary (op : UnaryOp) (operand : Expr)
  | binary (op : BinaryOp) (lhs rhs : Expr)
  /-- `=` when `op` is absent, otherwise a compound assignment. -/
  | assign (op : Option BinaryOp) (target value : Expr)
  | range (start stop : Expr) (inclusive : Bool)
  | cast (expr : Expr) (type : TypeExpr)
  | call (callee : Expr) (args : List Arg)
  | methodCall (receiver : Expr) (method : Ident) (generics : List TypeExpr) (args : List Arg)
  | field (base : Expr) (name : Ident)
  | tupleIndex (base : Expr) (index : Nat) (indexSpan : Span)
  | index (base : Expr) (index : Expr)
  /-- Postfix `!`. -/
  | unwrap (inner : Expr)
  | tuple (items : List Expr)
  | vector (items : List Expr)
  /-- `[value; count]` -/
  | fill (value count : Expr)
  | cond (cond : Expr) (thenBlock : Block) (elseBranch : Option Expr)
  | matchWith (scrutinee : Expr) (arms : List MatchArm)
  | block (block : Block)
  | unchecked (block : Block)
  | ret (value : Option Expr)
  | brk
  | cont

end

instance : Inhabited Expr := ⟨⟨⟨0⟩, .none, {}⟩⟩
instance : Inhabited TypeExpr := ⟨⟨⟨0⟩, .tuple [], {}⟩⟩

/-- Conditionals, matches and blocks end a statement without `;`. -/
def ExprKind.isBlockLike : ExprKind → Bool
  | .cond .. | .matchWith .. | .block _ | .unchecked _ => true
  | _ => false

/-! ## Declarations -/

inductive GenericKind where
  | type (bounds : List PathType)
  | const (type : TypeExpr)

structure GenericParam where
  id : NodeId
  name : Ident
  kind : GenericKind

inductive Receiver where
  /-- `this` -/
  | view
  /-- `mut this` -/
  | mutable
  deriving DecidableEq, Inhabited

structure Param where
  id : NodeId
  name : Ident
  isMut : Bool
  type : TypeExpr
  span : Span

inductive FunctionBody where
  | block (block : Block)
  /-- `=> expr;` -/
  | expr (expr : Expr)
  /-- Requirements of traits and foreign functions have no body. -/
  | none

namespace FunctionBody

def isExpr : FunctionBody → Bool
  | .expr _ => true
  | _ => false

def isPresent : FunctionBody → Bool
  | .none => false
  | _ => true

end FunctionBody

structure FunctionDecl where
  id : NodeId
  name : Ident
  generics : List GenericParam
  receiver : Option (Receiver × Span)
  params : List Param
  result : Option TypeExpr
  body : FunctionBody
  isComptime : Bool
  isForeign : Bool
  span : Span

structure FieldDecl where
  id : NodeId
  name : Ident
  type : TypeExpr
  span : Span

structure VariantDecl where
  id : NodeId
  name : Ident
  payload : List TypeExpr
  discriminant : Option Expr
  span : Span

structure ImportDecl where
  unit : Ident
  newName : Option Ident

def ImportDecl.localName (decl : ImportDecl) : Ident := decl.newName.getD decl.unit

inductive ItemKind where
  | importUnit (decl : ImportDecl)
  | function (decl : FunctionDecl)
  /-- A struct, or a class when its values are shared by reference. -/
  | struct (name : Ident) (generics : List GenericParam) (fields : List FieldDecl)
      (methods : List FunctionDecl) (isClass : Bool)
  | enum (name : Ident) (generics : List GenericParam) (repr : Option TypeExpr)
      (variants : List VariantDecl) (methods : List FunctionDecl)
  | trait (name : Ident) (methods : List FunctionDecl)
  | impl (generics : List GenericParam) (traitRef : Option PathType) (target : TypeExpr)
      (methods : List FunctionDecl)
  | const (name : Ident) (type : TypeExpr) (value : Expr)
  | static (name : Ident) (isMut : Bool) (type : TypeExpr) (value : Expr)
  | assert (condition : Expr) (message : Option Expr)

def ItemKind.declaredName : ItemKind → Option Ident
  | .function decl => some decl.name
  | .struct name .. | .enum name .. | .trait name .. | .const name .. | .static name .. => some name
  | .importUnit _ | .impl .. | .assert .. => none

structure Item where
  id : NodeId
  kind : ItemKind
  span : Span

structure Module where
  file : FileId
  items : List Item
  span : Span

def importsOf (items : List Item) : List ImportDecl :=
  items.filterMap fun item =>
    match item.kind with
    | .importUnit decl => some decl
    | _ => none

def Module.imports (module : Module) : List ImportDecl := importsOf module.items

/-- What is submitted to a session: declarations, statements, and an expression at the end whose
value is the answer. -/
structure Fragment where
  items : List Item
  stmts : List Stmt
  tail : Option Expr

def Fragment.imports (fragment : Fragment) : List ImportDecl := importsOf fragment.items

end Kite
