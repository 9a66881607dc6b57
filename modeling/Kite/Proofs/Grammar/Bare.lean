/-
Trees without the identities of their nodes. Two trees are the same up to identities when they are
the same without them: the same text at the same places.
-/
import Kite.Tree.Basic
import Mathlib.Tactic.Lemma

namespace Kite

open List

/-! ## Patterns -/

mutual

@[simp, grind =] def Pattern.bare : Pattern → Pattern
  | ⟨_, kind, span⟩ => ⟨.root, kind.bare, span⟩

@[simp, grind =] def PatternKind.bare : PatternKind → PatternKind
  | .variant path (some fields) => .variant path (some (Pattern.bareList fields))
  | .variant path none => .variant path none
  | .some inner => .some inner.bare
  | .wildcard => .wildcard
  | .binding name => .binding name
  | .literal value negative => .literal value negative
  | .none => .none

def Pattern.bareList : List Pattern → List Pattern
  | [] => []
  | p :: ps => p.bare :: Pattern.bareList ps

end

/-! ## Types, statements and expressions -/

mutual

@[simp, grind =] def TypeExpr.bare : TypeExpr → TypeExpr
  | ⟨_, kind, span⟩ => ⟨.root, kind.bare, span⟩

@[simp, grind =] def PathType.bare : PathType → PathType
  | ⟨segments, args, span⟩ => ⟨segments, TypeExpr.bareList args, span⟩

@[simp, grind =] def TypeKind.bare : TypeKind → TypeKind
  | .path path => .path path.bare
  | .vector element => .vector element.bare
  | .array element length => .array element.bare length.bare
  | .optional inner => .optional inner.bare
  | .tuple items => .tuple (TypeExpr.bareList items)
  | .view isMut inner => .view isMut inner.bare
  | .raw inner => .raw inner.bare
  | .function params result => .function (TypeExpr.bareList params) result.bare
  | .const value => .const value.bare

def TypeExpr.bareList : List TypeExpr → List TypeExpr
  | [] => []
  | t :: ts => t.bare :: TypeExpr.bareList ts

def TypeExpr.bareOption : Option TypeExpr → Option TypeExpr
  | none => none
  | some t => some t.bare

@[simp, grind =] def Block.bare : Block → Block
  | ⟨_, stmts, tail, span⟩ => ⟨.root, Stmt.bareList stmts, Expr.bareOption tail, span⟩

@[simp, grind =] def Stmt.bare : Stmt → Stmt
  | ⟨_, kind, span⟩ => ⟨.root, kind.bare, span⟩

@[simp, grind =] def StmtKind.bare : StmtKind → StmtKind
  | .letDecl name isMut type init => .letDecl name isMut (TypeExpr.bareOption type) init.bare
  | .expr expr semi => .expr expr.bare semi
  | .whileLoop cond body => .whileLoop cond.bare body.bare
  | .loop body => .loop body.bare
  | .forLoop binding iterable body => .forLoop binding iterable.bare body.bare
  | .defer inner => .defer inner.bare
  | .assert condition message => .assert condition.bare (Expr.bareOption message)
  | .comptimeIf cond thenBlock elseBranch => .comptimeIf cond.bare thenBlock.bare (Stmt.bareOption elseBranch)

def Stmt.bareList : List Stmt → List Stmt
  | [] => []
  | s :: ss => s.bare :: Stmt.bareList ss

def Stmt.bareOption : Option Stmt → Option Stmt
  | none => none
  | some s => some s.bare

@[simp, grind =] def Expr.bare : Expr → Expr
  | ⟨_, kind, span⟩ => ⟨.root, kind.bare, span⟩

def Expr.bareList : List Expr → List Expr
  | [] => []
  | e :: es => e.bare :: Expr.bareList es

def Expr.bareOption : Option Expr → Option Expr
  | none => none
  | some e => some e.bare

@[simp, grind =] def PathSegment.bare : PathSegment → PathSegment
  | ⟨ident, args⟩ => ⟨ident, TypeExpr.bareList args⟩

def PathSegment.bareList : List PathSegment → List PathSegment
  | [] => []
  | s :: ss => s.bare :: PathSegment.bareList ss

@[simp, grind =] def Arg.bare : Arg → Arg
  | ⟨label, value⟩ => ⟨label, value.bare⟩

def Arg.bareList : List Arg → List Arg
  | [] => []
  | a :: as => a.bare :: Arg.bareList as

@[simp, grind =] def MatchArm.bare : MatchArm → MatchArm
  | ⟨_, patterns, body, span⟩ => ⟨.root, Pattern.bareList patterns, body.bare, span⟩

def MatchArm.bareList : List MatchArm → List MatchArm
  | [] => []
  | a :: as => a.bare :: MatchArm.bareList as

@[simp, grind =] def ExprKind.bare : ExprKind → ExprKind
  | .literal value => .literal value
  | .none => .none
  | .some inner => .some inner.bare
  | .this => .this
  | .path segments span => .path (PathSegment.bareList segments) span
  | .paren inner => .paren inner.bare
  | .unary op operand => .unary op operand.bare
  | .binary op lhs rhs => .binary op lhs.bare rhs.bare
  | .assign op target value => .assign op target.bare value.bare
  | .range start stop inclusive => .range start.bare stop.bare inclusive
  | .cast expr type => .cast expr.bare type.bare
  | .call callee args => .call callee.bare (Arg.bareList args)
  | .methodCall receiver method generics args =>
    .methodCall receiver.bare method (TypeExpr.bareList generics) (Arg.bareList args)
  | .field base name => .field base.bare name
  | .tupleIndex base index indexSpan => .tupleIndex base.bare index indexSpan
  | .index base index => .index base.bare index.bare
  | .unwrap inner => .unwrap inner.bare
  | .tuple items => .tuple (Expr.bareList items)
  | .vector items => .vector (Expr.bareList items)
  | .fill value count => .fill value.bare count.bare
  | .cond cond thenBlock elseBranch => .cond cond.bare thenBlock.bare (Expr.bareOption elseBranch)
  | .matchWith scrutinee arms => .matchWith scrutinee.bare (MatchArm.bareList arms)
  | .block block => .block block.bare
  | .unchecked block => .unchecked block.bare
  | .ret value => .ret (Expr.bareOption value)
  | .brk => .brk
  | .cont => .cont

end

/-! Lists and options are taken item by item. -/

@[simp, grind =] lemma Pattern.bareList_eq : ∀ ps : List Pattern, bareList ps = ps.map bare
  | [] => rfl
  | p :: ps => by rw [bareList, bareList_eq ps, map_cons]

@[simp, grind =] lemma TypeExpr.bareList_eq : ∀ ts : List TypeExpr, bareList ts = ts.map bare
  | [] => rfl
  | t :: ts => by rw [bareList, bareList_eq ts, map_cons]

@[simp, grind =] lemma Stmt.bareList_eq : ∀ ss : List Stmt, bareList ss = ss.map bare
  | [] => rfl
  | s :: ss => by rw [bareList, bareList_eq ss, map_cons]

@[simp, grind =] lemma Expr.bareList_eq : ∀ es : List Expr, bareList es = es.map bare
  | [] => rfl
  | e :: es => by rw [bareList, bareList_eq es, map_cons]

@[simp, grind =] lemma PathSegment.bareList_eq : ∀ ss : List PathSegment, bareList ss = ss.map bare
  | [] => rfl
  | s :: ss => by rw [bareList, bareList_eq ss, map_cons]

@[simp, grind =] lemma Arg.bareList_eq : ∀ as : List Arg, bareList as = as.map bare
  | [] => rfl
  | a :: as => by rw [bareList, bareList_eq as, map_cons]

@[simp, grind =] lemma MatchArm.bareList_eq : ∀ as : List MatchArm, bareList as = as.map bare
  | [] => rfl
  | a :: as => by rw [bareList, bareList_eq as, map_cons]

@[simp, grind =] lemma TypeExpr.bareOption_eq : bareOption t = t.map bare := by cases t <;> simp [bareOption]

@[simp, grind =] lemma Stmt.bareOption_eq : bareOption s = s.map bare := by cases s <;> simp [bareOption]

@[simp, grind =] lemma Expr.bareOption_eq : bareOption e = e.map bare := by cases e <;> simp [bareOption]

/-! ## Declarations -/

def GenericKind.bare : GenericKind → GenericKind
  | .type bounds => .type (bounds.map PathType.bare)
  | .const t => .const t.bare

def GenericParam.bare (p : GenericParam) : GenericParam := { p with id := .root, kind := p.kind.bare }

def Param.bare (p : Param) : Param := { p with id := .root, type := p.type.bare }

def FunctionBody.bare : FunctionBody → FunctionBody
  | .block b => .block b.bare
  | .expr e => .expr e.bare
  | .none => .none

def FunctionDecl.bare (f : FunctionDecl) : FunctionDecl :=
  { f with
    id := .root
    generics := f.generics.map GenericParam.bare
    params := f.params.map Param.bare
    result := f.result.map TypeExpr.bare
    body := f.body.bare }

def FieldDecl.bare (f : FieldDecl) : FieldDecl := { f with id := .root, type := f.type.bare }

def VariantDecl.bare (v : VariantDecl) : VariantDecl :=
  { v with
    id := .root
    payload := v.payload.map TypeExpr.bare
    discriminant := v.discriminant.map Expr.bare }

def ItemKind.bare : ItemKind → ItemKind
  | .importUnit decl => .importUnit decl
  | .function decl => .function decl.bare
  | .struct name generics fields methods isClass =>
    .struct name (generics.map GenericParam.bare) (fields.map FieldDecl.bare) (methods.map FunctionDecl.bare) isClass
  | .enum name generics repr variants methods =>
    .enum name (generics.map GenericParam.bare) (repr.map TypeExpr.bare) (variants.map VariantDecl.bare)
      (methods.map FunctionDecl.bare)
  | .trait name methods => .trait name (methods.map FunctionDecl.bare)
  | .impl generics traitRef target methods =>
    .impl (generics.map GenericParam.bare) (traitRef.map PathType.bare) target.bare (methods.map FunctionDecl.bare)
  | .const name type value => .const name type.bare value.bare
  | .static name isMut type value => .static name isMut type.bare value.bare
  | .assert condition message => .assert condition.bare (message.map Expr.bare)

def Item.bare (item : Item) : Item := { item with id := .root, kind := item.kind.bare }

end Kite
