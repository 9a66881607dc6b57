/-
Which node encloses which. Nodes do not know their parents; the links are collected from the tree
when they are asked for.
-/
import Kite.Tree.Basic
import Std.Data.HashMap

namespace Kite

variable (parent : NodeId)

abbrev ParentLink := NodeId × NodeId

/-! ## The links of a tree, with the node around it -/

namespace ParentLink

mutual

def pattern (parent : NodeId) : Pattern → List ParentLink
  | ⟨id, kind, _⟩ => (id, parent) :: patternKind id kind

def patternKind (id : NodeId) : PatternKind → List ParentLink
  | .variant _ (some fields) => patterns id fields
  | .some inner => pattern id inner
  | .variant _ none | .wildcard | .binding _ | .literal _ _ | .none => []

def patterns (parent : NodeId) : List Pattern → List ParentLink
  | [] => []
  | p :: rest => pattern parent p ++ patterns parent rest

end

mutual

def type (parent : NodeId) : TypeExpr → List ParentLink
  | ⟨id, kind, _⟩ => (id, parent) :: typeKind id kind

/-- A path is no node of its own: its arguments hang on what holds the path. -/
def pathType (parent : NodeId) : PathType → List ParentLink
  | ⟨_, args, _⟩ => types parent args

def typeKind (id : NodeId) : TypeKind → List ParentLink
  | .path path => pathType id path
  | .vector inner | .optional inner | .raw inner | .view _ inner => type id inner
  | .array inner length => type id inner ++ expr id length
  | .tuple items => types id items
  | .function params result => types id params ++ type id result
  | .const value => expr id value

def types (parent : NodeId) : List TypeExpr → List ParentLink
  | [] => []
  | t :: rest => type parent t ++ types parent rest

def optType (parent : NodeId) : Option TypeExpr → List ParentLink
  | none => []
  | some t => type parent t

def block (parent : NodeId) : Block → List ParentLink
  | ⟨id, body, tail, _⟩ => (id, parent) :: (stmts id body ++ optExpr id tail)

def stmt (parent : NodeId) : Stmt → List ParentLink
  | ⟨id, kind, _⟩ => (id, parent) :: stmtKind id kind

def stmtKind (id : NodeId) : StmtKind → List ParentLink
  | .letDecl _ _ declared init => optType id declared ++ expr id init
  | .expr e _ => expr id e
  | .whileLoop cond body => expr id cond ++ block id body
  | .loop body => block id body
  | .forLoop _ iterable body => expr id iterable ++ block id body
  | .defer inner => stmt id inner
  | .assert condition message => expr id condition ++ optExpr id message
  | .comptimeIf cond thenBlock elseBranch => expr id cond ++ block id thenBlock ++ optStmt id elseBranch

def stmts (parent : NodeId) : List Stmt → List ParentLink
  | [] => []
  | s :: rest => stmt parent s ++ stmts parent rest

def optStmt (parent : NodeId) : Option Stmt → List ParentLink
  | none => []
  | some s => stmt parent s

def expr (parent : NodeId) : Expr → List ParentLink
  | ⟨id, kind, _⟩ => (id, parent) :: exprKind id kind

def exprKind (id : NodeId) : ExprKind → List ParentLink
  | .literal _ | .none | .this | .brk | .cont => []
  | .path parts _ => segments id parts
  | .some inner | .paren inner | .unwrap inner | .unary _ inner => expr id inner
  | .field base _ | .tupleIndex base _ _ => expr id base
  | .binary _ lhs rhs | .assign _ lhs rhs | .range lhs rhs _ => expr id lhs ++ expr id rhs
  | .index base index => expr id base ++ expr id index
  | .fill value count => expr id value ++ expr id count
  | .cast inner target => expr id inner ++ type id target
  | .call callee params => expr id callee ++ args id params
  | .methodCall receiver _ generics params => expr id receiver ++ types id generics ++ args id params
  | .tuple items | .vector items => exprs id items
  | .cond cond thenBlock elseBranch => expr id cond ++ block id thenBlock ++ optExpr id elseBranch
  | .matchWith scrutinee branches => expr id scrutinee ++ arms id branches
  | .block body | .unchecked body => block id body
  | .ret value => optExpr id value

def exprs (parent : NodeId) : List Expr → List ParentLink
  | [] => []
  | e :: rest => expr parent e ++ exprs parent rest

def optExpr (parent : NodeId) : Option Expr → List ParentLink
  | none => []
  | some e => expr parent e

def segment (parent : NodeId) : PathSegment → List ParentLink
  | ⟨_, params⟩ => types parent params

def segments (parent : NodeId) : List PathSegment → List ParentLink
  | [] => []
  | s :: rest => segment parent s ++ segments parent rest

def arg (parent : NodeId) : Arg → List ParentLink
  | ⟨_, value⟩ => expr parent value

def args (parent : NodeId) : List Arg → List ParentLink
  | [] => []
  | a :: rest => arg parent a ++ args parent rest

def arm (parent : NodeId) : MatchArm → List ParentLink
  | ⟨id, alternatives, body, _⟩ => (id, parent) :: (patterns id alternatives ++ expr id body)

def arms (parent : NodeId) : List MatchArm → List ParentLink
  | [] => []
  | a :: rest => arm parent a ++ arms parent rest

end

def generic (param : GenericParam) : List ParentLink :=
  (param.id, parent) ::
    match param.kind with
    | .type bounds => bounds.flatMap (pathType param.id)
    | .const declared => type param.id declared

def functionBody (id : NodeId) : FunctionBody → List ParentLink
  | .block body => block id body
  | .expr value => expr id value
  | .none => []

def param (p : Param) : List ParentLink := (p.id, parent) :: type p.id p.type

def function (f : FunctionDecl) : List ParentLink :=
  (f.id, parent) ::
    (f.generics.flatMap (generic f.id) ++ f.params.flatMap (param f.id) ++ optType f.id f.result
      ++ functionBody f.id f.body)

def field (f : FieldDecl) : List ParentLink := (f.id, parent) :: type f.id f.type

def variant (v : VariantDecl) : List ParentLink :=
  (v.id, parent) :: (v.payload.flatMap (type v.id) ++ optExpr v.id v.discriminant)

def itemKind (id : NodeId) : ItemKind → List ParentLink
  | .importUnit _ => []
  | .function decl => function id decl
  | .struct _ params fields methods _ =>
    params.flatMap (generic id) ++ fields.flatMap (field id) ++ methods.flatMap (function id)
  | .enum _ params repr variants methods =>
    params.flatMap (generic id) ++ optType id repr ++ variants.flatMap (variant id)
      ++ methods.flatMap (function id)
  | .trait _ methods => methods.flatMap (function id)
  | .impl params traitRef target methods =>
    params.flatMap (generic id) ++ type id target
      ++ (traitRef.map (pathType id)).getD [] ++ methods.flatMap (function id)
  | .const _ declared value | .static _ _ declared value => type id declared ++ expr id value
  | .assert condition message => expr id condition ++ optExpr id message

def item (i : Item) : List ParentLink := (i.id, .root) :: itemKind i.id i.kind

end ParentLink

/-- The parent of every node of a unit. Declarations have the unit itself as parent. -/
structure ParentMap where
  parents : Std.HashMap NodeId NodeId

namespace ParentMap

def ofModule (m : Module) : ParentMap := { parents := .ofList (m.items.flatMap ParentLink.item) }

def parent? (map : ParentMap) (id : NodeId) : Option NodeId := map.parents[id]?

def size (map : ParentMap) : Nat := map.parents.size

/-- The chain of enclosing nodes, at most `n` of them, ending with the unit. -/
def climb (map : ParentMap) : Nat → NodeId → List NodeId
  | 0, _ => []
  | n + 1, id =>
    match map.parent? id with
    | none => []
    | some parent => parent :: if parent = .root then [] else map.climb n parent

def ancestors (map : ParentMap) (id : NodeId) : List NodeId := map.climb map.size id

def toList (map : ParentMap) : List ParentLink := map.parents.toList.mergeSort fun a b => a.1.index ≤ b.1.index

end ParentMap

end Kite
