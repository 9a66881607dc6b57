/-
How each node of the tree is checked. Every node becomes a check that its place runs: these
functions only follow the tree and hand the checks of the children to the rules.
-/
import Kite.Check.Access
import Kite.Check.Paths
import Kite.Check.Statements

namespace Kite.Check

section

variable (env : Env)

mutual

def typeReading : TypeExpr → TypeReading
  | ⟨_, kind, span⟩ => { span, resolve := typeOfKind span kind, form := typeForm kind }

def typeReadings : List TypeExpr → List TypeReading
  | [] => []
  | type :: rest => typeReading type :: typeReadings rest

def typesOf : List TypeExpr → CheckM (List TypeId)
  | [] => return []
  | type :: rest => do
    let first ← (typeReading type).resolve
    return first :: (← typesOf rest)

def typeOfKind (span : Span) : TypeKind → CheckM TypeId
  | .path ⟨segments, args, pathSpan⟩ => pathType env segments (typeReadings args) pathSpan
  | .vector element => do
    let element ← (typeReading element).resolve
    build (TypeM.vector element)
  | .array element length => do
    let element ← (typeReading element).resolve
    let length ← arrayLength env (singleName? length) (exprCheck length) length.span
    arrayType element length
  | .optional inner => do
    let inner ← (typeReading inner).resolve
    build (TypeM.optional inner)
  | .tuple items => do
    let items ← typesOf items
    build (TypeM.tuple items)
  | .view isMut inner => do
    let inner ← (typeReading inner).resolve
    build (TypeM.view isMut inner)
  | .raw inner => do
    let inner ← (typeReading inner).resolve
    build (TypeM.raw inner)
  | .function params result => do
    let params ← typesOf params
    let result ← (typeReading result).resolve
    build (TypeM.function params result)
  | .const _ => do
    report span .constAsType
    return .error

def typeForm : TypeKind → TypeForm
  | .const value => .constant (constInt env (exprCheck value))
  | .path ⟨[name], [], _⟩ => .name name
  | _ => .other

def exprCheck : Expr → ExprCheck
  | ⟨_, kind, span⟩ => kindCheck span kind

def kindCheck (span : Span) : ExprKind → Want → BodyM Typed.Expr
  | .literal value, want => literalExpr value false want.expected span
  | .none, want => noneExpr want.expected span
  | .some inner, want => someExpr (exprCheck inner) want.expected span
  | .this, _ => thisExpr span
  | .path segments pathSpan, want => valuePath env (pathParts segments) pathSpan want.expected span
  | .paren inner, want => synth (exprCheck inner) want.expected
  | .unary op operand, want => unaryExpr op (numericLiteral? operand) (exprCheck operand) want.expected span
  | .binary op lhs rhs, want =>
    binaryExpr op (exprCheck lhs) (exprCheck rhs) (isLiteralOperand lhs)
      (isLiteralOperand rhs) want.expected span
  | .assign op target value, _ =>
    assignExpr op (singleName? target) (exprCheck target) target.span (exprCheck value) span
  | .range .., _ => do
    report span .rangeValue
    return .error span
  | .cast inner type, _ => castExpr (exprCheck inner) (typeReading type).resolve span
  | .call ⟨_, .path segments pathSpan, calleeSpan⟩ args, want =>
    callPath env (pathParts segments) pathSpan calleeSpan (argReadings args) want.expected
      span
  | .call callee args, _ => do
    let callee ← synth (exprCheck callee) none
    indirectCall callee (argReadings args) span
  | .methodCall receiver method generics args, want =>
    methodCall env (exprCheck receiver) method (typeReadings generics)
      (argReadings args) want.expected span
  | .field base name, _ => fieldExpr (exprCheck base) name span
  | .tupleIndex base index indexSpan, _ => tupleIndexExpr (exprCheck base) index indexSpan span
  | .index base ⟨_, .range start stop inclusive, _⟩, _ =>
    sliceExpr (exprCheck base) (exprCheck start) (exprCheck stop) inclusive span
  | .index base index, _ => indexExpr (exprCheck base) (exprCheck index) span
  | .unwrap inner, want => unwrapExpr (exprCheck inner) want.expected span
  | .tuple items, want => tupleExpr (exprChecks items) want.expected span
  | .vector items, want => sequenceExpr (exprChecks items) want.expected span
  | .fill value count, want => fillExpr env (exprCheck value) (exprCheck count) want.expected span
  | .cond cond thenBlock elseBranch, want =>
    condExpr (exprCheck cond) (blockExpr (blockCheck thenBlock) thenBlock.span)
      (elseCheck want elseBranch) want span
  | .matchWith scrutinee arms, want => matchExpr env (exprCheck scrutinee) (armReadings arms) want span
  | .block block, want => blockExpr (blockCheck block) block.span want.ofBranch
  | .unchecked block, want => inUnchecked (blockExpr (blockCheck block) block.span want.ofBranch)
  | .ret value, _ => returnExpr (optionalCheck value) span
  | .brk, _ => breakExpr span
  | .cont, _ => continueExpr span

def optionalCheck : Option Expr → Option ExprCheck
  | none => none
  | some expr => some (exprCheck expr)

def exprChecks : List Expr → List ExprCheck
  | [] => []
  | expr :: rest => exprCheck expr :: exprChecks rest

def pathParts : List PathSegment → List PathPart
  | [] => []
  | ⟨ident, args⟩ :: rest => { ident, args := typeReadings args } :: pathParts rest

def argReadings : List Arg → List ArgReading
  | [] => []
  | ⟨label, value⟩ :: rest =>
    { label, span := value.span, text := stringLiteral? value, check := exprCheck value }
      :: argReadings rest

/-- The alternative of a conditional: another conditional in the same place, or a value. -/
def elseCheck (want : Want) : Option Expr → Option (BodyM Typed.Expr)
  | none => none
  | some ⟨_, .cond cond thenBlock elseBranch, span⟩ =>
    some (condExpr (exprCheck cond) (blockExpr (blockCheck thenBlock) thenBlock.span)
      (elseCheck want elseBranch) want span)
  | some ⟨_, .block block, _⟩ => some (blockExpr (blockCheck block) block.span want.ofBranch)
  | some expr => some (checkAgainst (exprCheck expr) want.ofBranch)

def armReadings : List MatchArm → List ArmReading
  | [] => []
  | ⟨_, patterns, body, _⟩ :: rest =>
    { patterns, bodySpan := body.span, block := armBlock body, check := exprCheck body }
      :: armReadings rest

def armBlock : Expr → Option BlockCheck
  | ⟨_, .block block, _⟩ => some (blockCheck block)
  | _ => none

def blockCheck : Block → BlockCheck
  | ⟨_, stmts, tail, span⟩ => checkBlock (sequenceStmts (stmtChecks stmts)) (optionalCheck tail) span

def stmtChecks : List Stmt → List StmtCheck
  | [] => []
  | stmt :: rest => stmtCheck stmt :: stmtChecks rest

def stmtCheck : Stmt → StmtCheck
  | ⟨_, kind, span⟩ => stmtKindCheck span kind

def stmtKindCheck (span : Span) : StmtKind → StmtCheck
  | .letDecl name isMut type init => letStmt name isMut (optionalType type) (exprCheck init)
  | .expr expr _ => exprStmt (exprCheck expr)
  | .whileLoop cond body => whileStmt (exprCheck cond) (blockCheck body)
  | .loop body => loopStmt (blockCheck body)
  | .forLoop binding ⟨_, .range start stop inclusive, rangeSpan⟩ body =>
    forRangeStmt binding (exprCheck start) (exprCheck stop) (isPlainInt start)
      (isPlainInt stop) inclusive rangeSpan (blockCheck body)
  | .forLoop binding iterable body => forEachStmt binding (exprCheck iterable) (blockCheck body)
  | .defer ⟨_, .letDecl .., letSpan⟩ => deferredLet letSpan
  | .defer inner => deferStmt (stmtCheck inner)
  | .assert condition message =>
    assertStmt env (exprCheck condition) condition.span (optionalCheck message)
  | .comptimeIf cond thenBlock elseBranch =>
    comptimeIfStmt env (exprCheck cond) (blockCheck thenBlock) (elseStmt elseBranch)
      span

def elseStmt : Option Stmt → StmtCheck
  | none => return ([], false)
  | some stmt => stmtCheck stmt

def optionalType : Option TypeExpr → Option (CheckM TypeId)
  | none => none
  | some type => some (typeReading type).resolve

end

end

def resolveType (env : Env) (type : TypeExpr) : CheckM TypeId := (typeReading env type).resolve

end Kite.Check
