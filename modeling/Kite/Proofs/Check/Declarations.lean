/-
Every node of the tree settles, and so does every demand on a declaration: a function and a global are
entered while they are pending, and have their body or value when they are left.
-/
import Kite.Proofs.Check.Calls
import Kite.Proofs.Check.Later

namespace Kite.Check

open List

variable {id : DefId} {span : Span} {type : TypeId} {cond : ExprCheck}

/-! ## Statements -/

lemma Settling.blockType (hasTail diverges : Bool) {tailType : TypeId} :
    Settling (blockType hasTail diverges tailType expected span) := by
  refine .ite .pure ?_
  split
  · exact .pure
  · exact .ite (.map .mismatch) .pure

lemma Settling.rangeType {start stop : TypeId} : Settling (rangeType start stop span) := by
  refine .bind .types fun {_} => ?_
  split
  · exact .ite .pure (.map .report)
  · exact .map .report

lemma Settling.elementType : Settling (elementType type span) := by
  refine .bind .types fun {_} => ?_
  split
  iterate 4
    · exact .pure
  · exact .map .report

namespace SettlingBody

lemma sequenceStmts : ∀ {stmts}, (∀ stmt ∈ stmts, SettlingBody stmt) → SettlingBody (sequenceStmts stmts)
  | [], _ => .pure
  | stmt :: _, h => .bind (h stmt (by simp)) <| .map (sequenceStmts (forall_mem_cons.1 h).2)

/-- The tail is checked in the scope of the statements. -/
lemma checkBlock (hstmts : SettlingBody stmts) {tail : Option ExprCheck}
    (htail : ∀ check ∈ tail, ExprCheck.Settling check) : (checkBlock stmts tail span).Settling := by
  refine fun expected => .bind (.inScope (.bind hstmts ?_)) <| .map (.lift (.blockType _ _))
  cases tail with
  | none => exact .pure
  | some tail =>
    exact .ite (.map (htail tail rfl _)) (.map (.checkAgainst (htail tail rfl) _))

lemma letStmt {type : Option (CheckM TypeId)} (htype : ∀ resolve ∈ type, Settling resolve) (hinit : init.Settling) :
    SettlingBody (letStmt name isMut type init) := by
  cases type
  case' none => refine .bind .pure ?_
  case' some resolve => refine .bind (.lift (htype resolve rfl)) <| .bind .pure ?_
  all_goals exact .bind (.takeAgainst hinit) <| .map .declareLocal

lemma exprStmt (h : check.Settling) : SettlingBody (exprStmt check) := .map (h _)

lemma deferStmt {inner : StmtCheck} (h : SettlingBody inner) : SettlingBody (deferStmt inner) := .map h

lemma deferredLet : SettlingBody (deferredLet span) := .map .report

section

variable {body : BlockCheck} (hbody : body.Settling)

include hbody

/-- What was declared before a loop must not be moved in it. -/
lemma loopBody (firstInner : Nat) : SettlingBody (loopBody body firstInner) :=
  .bind .get <| .bind (.modify _) <| .bind (hbody _) <| .bind .get <| .bind (.modify _) <| .map .checkLoopMoves

lemma whileStmt (hcond : cond.Settling) : SettlingBody (whileStmt cond body) :=
  .bind (.checkAgainst hcond _) <| .bind .get <| .map (.loopBody hbody _)

lemma loopStmt : SettlingBody (loopStmt body) := .bind .get <| .map (.loopBody hbody _)

lemma bindingLoop : SettlingBody (bindingLoop binding type body firstInner) :=
  .inScope (.bind .declareLocal <| .map (.loopBody hbody _))

lemma forEachStmt (binding : Ident) (h : iterable.Settling) : SettlingBody (forEachStmt binding iterable body) :=
  .bind .get <| .bind (.synth h) <| .bind .types <| .bind (.lift .elementType) <| .map (.bindingLoop hbody)

variable {start stop : ExprCheck} (hstart : start.Settling) (hstop : stop.Settling)

omit hbody in
include hstart hstop in
lemma rangeBounds : SettlingBody (rangeBounds start stop startPlain stopPlain) :=
  .ite (.bind (.synth hstop) <| .map (.synth hstart)) (.bind (.synth hstart) <| .map (.synth hstop))

include hstart hstop

lemma forRangeStmt : SettlingBody (forRangeStmt binding start stop startPlain stopPlain inclusive rangeSpan body) :=
  .bind .get <| .bind (.rangeBounds hstart hstop) <| .bind (.lift .rangeType) <| .map (.bindingLoop hbody)

end

end SettlingBody

section

variable {env : Env} (hd : env.demand.Settling)

include hd

lemma Settling.assertionText {message : Option Typed.Expr} : Settling (assertionText env message locals) := by
  unfold Check.assertionText
  split
  · exact .pure
  · exact .pure
  · refine .bind (.evaluate hd _ _) fun {_} => ?_
    split
    · exact .pure
    · exact .map .program
    · exact .pure

namespace SettlingBody

lemma checkAssertion (hcondition : condition.Settling) (hmessage : ∀ check ∈ message, ExprCheck.Settling check) :
    SettlingBody (checkAssertion env condition conditionSpan message) := by
  have hread : SettlingBody (message.mapM fun message => Check.checkAgainst message (some .string)) := by
    cases message with
    | none => exact .pure
    | some message => exact .map (.checkAgainst (hmessage message rfl) _)
  refine .bind (.checkAgainst hcondition _) <| .bind hread <| .bind .get <|
    .bind (.lift (.evaluate hd _ _)) fun {_} => ?_
  split
  · refine .bind (.lift (.assertionText hd)) fun {_} => ?_
    split
    · exact .lift .reportFailure
    · exact .pure
  · exact .pure

lemma assertStmt (hcondition : condition.Settling) (hmessage : ∀ check ∈ message, ExprCheck.Settling check) :
    SettlingBody (assertStmt env condition conditionSpan message) :=
  .map (.checkAssertion hd hcondition hmessage)

/-- The branch that is not taken is not checked. -/
lemma comptimeIfStmt (hcond : cond.Settling) (hthen : thenBlock.Settling) (helse : SettlingBody elseBranch) :
    SettlingBody (comptimeIfStmt env cond thenBlock elseBranch span) := by
  refine .bind (.checkAgainst hcond _) <| .bind .get <| .bind (.lift (.evaluate hd _ _)) fun {_} => ?_
  split
  · exact .map (hthen _)
  · exact helse
  · exact .pure

end SettlingBody

end

/-! ## The tree -/

section

variable {env : Env}

mutual

/-- By recursion over the tree: the rule of a node, from the same for its operands. -/
theorem settling_typeReading (hd : env.demand.Settling) : ∀ type : TypeExpr, (typeReading env type).Settling
  | ⟨_, kind, span⟩ => ⟨settling_typeOfKind hd span kind, settling_typeForm hd kind⟩

theorem settling_typeReadings (hd : env.demand.Settling) : ∀ types : List TypeExpr,
    ∀ reading ∈ typeReadings env types, reading.Settling
  | [] => forall_mem_nil _
  | type :: rest => forall_mem_cons.2 ⟨settling_typeReading hd type, settling_typeReadings hd rest⟩

theorem settling_typesOf (hd : env.demand.Settling) : ∀ types : List TypeExpr, Settling (typesOf env types)
  | [] => .pure
  | type :: rest => .bind (settling_typeReading hd type).resolve <| .map (settling_typesOf hd rest)

theorem settling_typeOfKind (hd : env.demand.Settling) (span : Span) :
    ∀ kind : TypeKind, Settling (typeOfKind env span kind)
  | .path ⟨_, args, _⟩ => .pathType hd (settling_typeReadings hd args) _ _
  | .vector element => .bind (settling_typeReading hd element).resolve .buildIntern
  | .array element length =>
    .bind (settling_typeReading hd element).resolve <| .bind (.arrayLength hd (settling_exprCheck hd length)) .arrayType
  | .optional inner => .bind (settling_typeReading hd inner).resolve .buildIntern
  | .tuple items => .bind (settling_typesOf hd items) .buildTuple
  | .view _ inner | .raw inner => .bind (settling_typeReading hd inner).resolve .buildIntern
  | .function params result =>
    .bind (settling_typesOf hd params) <| .bind (settling_typeReading hd result).resolve .buildIntern
  | .const _ => .map .report

theorem settling_typeForm (hd : env.demand.Settling) : ∀ kind : TypeKind, ∀ value, typeForm env kind = .constant value →
    ∀ type, Settling (value type)
  | .const value, _, rfl, type => .constInt hd (settling_exprCheck hd value)
  | .path _, _, h, _ => by
    rw [typeForm.eq_def] at h
    split at h <;> contradiction

theorem settling_exprCheck (hd : env.demand.Settling) : ∀ expr : Expr, (exprCheck env expr).Settling
  | ⟨_, kind, span⟩ => settling_kindCheck hd span kind

theorem settling_kindCheck (hd : env.demand.Settling) (span : Span) : ∀ (kind : ExprKind) (want : Want),
    SettlingBody (kindCheck env span kind want)
  | .literal _, _ => .lift (.literalExpr _ _ _ _)
  | .none, _ => .lift .noneExpr
  | .some inner, _ => .someExpr (settling_exprCheck hd inner)
  | .this, _ => .thisExpr
  | .path segments _, _ => .valuePath hd (settling_pathParts hd segments)
  | .paren inner, _ => .synth (settling_exprCheck hd inner)
  | .unary _ operand, _ => .unaryExpr (settling_exprCheck hd operand)
  | .binary _ lhs rhs, _ => .binaryExpr (settling_exprCheck hd lhs) (settling_exprCheck hd rhs)
  | .assign _ target value, _ => .assignExpr (settling_exprCheck hd target) (settling_exprCheck hd value)
  | .range .., _ => .map .report
  | .cast inner type, _ => .castExpr (settling_exprCheck hd inner) (settling_typeReading hd type).resolve
  | .call callee args, _ => by
    have hargs := settling_argReadings hd args
    have hcallee := settling_exprCheck hd callee
    have hpath := @settling_path hd callee
    obtain ⟨_, kind, _⟩ := callee
    cases kind
    case path => exact .callPath hd (hpath rfl) hargs
    all_goals exact .bind (.synth hcallee) <| .indirectCall hargs
  | .methodCall receiver _ generics args, _ =>
    .methodCall (settling_argReadings hd args) hd (settling_typeReadings hd generics) (settling_exprCheck hd receiver) _ _ _
  | .field base _, _ => .fieldExpr (settling_exprCheck hd base)
  | .tupleIndex base _ _, _ => .tupleIndexExpr (settling_exprCheck hd base)
  | .index base index, _ => by
    have hbase := settling_exprCheck hd base
    have hindex := settling_exprCheck hd index
    have hrange := @settling_range hd index
    obtain ⟨_, kind, _⟩ := index
    cases kind
    case range => exact .sliceExpr hbase (hrange rfl).1 (hrange rfl).2
    all_goals exact .indexExpr hindex hbase
  | .unwrap inner, _ => .unwrapExpr (settling_exprCheck hd inner)
  | .tuple items, _ => .tupleExpr (settling_exprChecks hd items)
  | .vector items, _ => .sequenceExpr (settling_exprChecks hd items)
  | .fill value count, _ => .fillExpr hd (settling_exprCheck hd value) (settling_exprCheck hd count)
  | .cond cond thenBlock elseBranch, want =>
    .condExpr (settling_exprCheck hd cond) (fun _ => .blockExpr (settling_blockCheck hd thenBlock) _ _)
      (settling_elseCheck hd want elseBranch)
  | .matchWith scrutinee arms, _ => .matchExpr (settling_exprCheck hd scrutinee) (settling_armReadings hd arms)
  | .block block, _ => .blockExpr (settling_blockCheck hd block) _ _
  | .unchecked block, _ => .inUnchecked (.blockExpr (settling_blockCheck hd block) _ _)
  | .ret value, _ => .returnExpr (settling_optionalCheck hd value)
  | .brk, _ => .breakExpr
  | .cont, _ => .continueExpr

theorem settling_path (hd : env.demand.Settling) : ∀ (expr : Expr) {segments : List PathSegment} {span : Span},
    expr.kind = .path segments span → ∀ part ∈ pathParts env segments, ∀ arg ∈ part.args, arg.Settling
  | ⟨_, .path segments _, _⟩, _, _, rfl => settling_pathParts hd segments

theorem settling_range (hd : env.demand.Settling) : ∀ (expr : Expr) {start stop : Expr} {inclusive : Bool},
    expr.kind = .range start stop inclusive → (exprCheck env start).Settling ∧ (exprCheck env stop).Settling
  | ⟨_, .range start stop _, _⟩, _, _, _, rfl => ⟨settling_exprCheck hd start, settling_exprCheck hd stop⟩

theorem settling_optionalCheck (hd : env.demand.Settling) : ∀ expr : Option Expr,
    ∀ check ∈ optionalCheck env expr, ExprCheck.Settling check
  | some expr, _, rfl => settling_exprCheck hd expr

theorem settling_exprChecks (hd : env.demand.Settling) : ∀ exprs : List Expr,
    ∀ check ∈ exprChecks env exprs, ExprCheck.Settling check
  | [] => forall_mem_nil _
  | expr :: rest => forall_mem_cons.2 ⟨settling_exprCheck hd expr, settling_exprChecks hd rest⟩

theorem settling_pathParts (hd : env.demand.Settling) : ∀ segments : List PathSegment, ∀ part ∈ pathParts env segments,
    ∀ arg ∈ part.args, arg.Settling
  | [] => forall_mem_nil _
  | ⟨_, args⟩ :: rest => forall_mem_cons.2 ⟨settling_typeReadings hd args, settling_pathParts hd rest⟩

theorem settling_argReadings (hd : env.demand.Settling) : ∀ args : List Arg,
    ∀ arg ∈ argReadings env args, arg.check.Settling
  | [] => forall_mem_nil _
  | ⟨_, value⟩ :: rest => forall_mem_cons.2 ⟨settling_exprCheck hd value, settling_argReadings hd rest⟩

theorem settling_elseCheck (hd : env.demand.Settling) (want : Want) : ∀ expr : Option Expr,
    ∀ branch ∈ elseCheck env want expr, SettlingBody branch
  | some expr, branch, h => by
    have hexpr := settling_exprCheck hd expr
    obtain ⟨_, kind, _⟩ := expr
    cases kind
    case cond | block =>
      obtain rfl := Option.some.inj h
      exact hexpr want
    all_goals
      obtain rfl := Option.some.inj h
      exact .checkAgainst hexpr _

theorem settling_armReadings (hd : env.demand.Settling) : ∀ arms : List MatchArm,
    ∀ arm ∈ armReadings env arms, SettlingBody.ArmSettling arm
  | [] => forall_mem_nil _
  | ⟨_, _, body, _⟩ :: rest =>
    forall_mem_cons.2 ⟨⟨settling_armBlock hd body, settling_exprCheck hd body⟩, settling_armReadings hd rest⟩

theorem settling_armBlock (hd : env.demand.Settling) : ∀ body : Expr,
    ∀ block ∈ armBlock env body, BlockCheck.Settling block
  | ⟨_, .block block, _⟩, _, rfl => settling_blockCheck hd block

theorem settling_blockCheck (hd : env.demand.Settling) : ∀ block : Block, (blockCheck env block).Settling
  | ⟨_, stmts, tail, _⟩ => .checkBlock (.sequenceStmts (settling_stmtChecks hd stmts)) (settling_optionalCheck hd tail)

theorem settling_stmtChecks (hd : env.demand.Settling) : ∀ stmts : List Stmt,
    ∀ stmt ∈ stmtChecks env stmts, SettlingBody stmt
  | [] => forall_mem_nil _
  | stmt :: rest => forall_mem_cons.2 ⟨settling_stmtCheck hd stmt, settling_stmtChecks hd rest⟩

theorem settling_stmtCheck (hd : env.demand.Settling) : ∀ stmt : Stmt, SettlingBody (stmtCheck env stmt)
  | ⟨_, kind, span⟩ => settling_stmtKindCheck hd span kind

theorem settling_stmtKindCheck (hd : env.demand.Settling) (span : Span) :
    ∀ kind : StmtKind, SettlingBody (stmtKindCheck env span kind)
  | .letDecl _ _ type init => .letStmt (settling_optionalType hd type) (settling_exprCheck hd init)
  | .expr expr _ => .exprStmt (settling_exprCheck hd expr)
  | .whileLoop cond body => .whileStmt (settling_blockCheck hd body) (settling_exprCheck hd cond)
  | .loop body => .loopStmt (settling_blockCheck hd body)
  | .forLoop _ iterable body => by
    have hbody := settling_blockCheck hd body
    have hiterable := settling_exprCheck hd iterable
    have hrange := @settling_range hd iterable
    obtain ⟨_, kind, _⟩ := iterable
    cases kind
    case range => exact .forRangeStmt hbody (hrange rfl).1 (hrange rfl).2
    all_goals exact .forEachStmt hbody _ hiterable
  | .defer inner => by
    have hinner := settling_stmtCheck hd inner
    obtain ⟨_, kind, _⟩ := inner
    cases kind
    case letDecl => exact .deferredLet
    all_goals exact .deferStmt hinner
  | .assert condition message => .assertStmt hd (settling_exprCheck hd condition) (settling_optionalCheck hd message)
  | .comptimeIf cond thenBlock elseBranch =>
    .comptimeIfStmt hd (settling_exprCheck hd cond) (settling_blockCheck hd thenBlock) (settling_elseStmt hd elseBranch)

theorem settling_elseStmt (hd : env.demand.Settling) : ∀ stmt : Option Stmt, SettlingBody (elseStmt env stmt)
  | none => .pure
  | some stmt => settling_stmtCheck hd stmt

theorem settling_optionalType (hd : env.demand.Settling) : ∀ type : Option TypeExpr,
    ∀ resolve ∈ optionalType env type, Settling resolve
  | some type, _, rfl => (settling_typeReading hd type).resolve

end

end

/-! ## Demands -/

namespace Settling

lemma resolveType (hd : env.demand.Settling) (type : TypeExpr) : Settling (resolveType env type) :=
  (settling_typeReading hd type).resolve

lemma declareParam (name : Ident) (type : TypeId) (isMut : Bool) : SettlingBody (declareParam name type isMut) :=
  .bind .declareLocal <| .map (.modify _)

lemma checkFunction (hd : env.demand.Settling) (f : FunctionDef) (decl : FunctionDecl)
    (result : Option TypeId) : Settling (checkFunction env f decl result) := by
  refine .runBody ?_
  cases decl.receiver
  case' some receiver =>
    cases f.selfType
    case' some selfType => refine .bind (declareParam _ _ _) <| .bind (.modify _) ?_
  all_goals
    refine .bind (.forIn fun _ _ => .map (declareParam _ _ _)) ?_
    split
    · exact .blockExpr (settling_blockCheck hd _) _ _
    · exact .checkAgainst (settling_exprCheck hd _) _
    · exact .pure

variable {d : Demand} (hd : d.Settling)

include hd

/-- A function is pending until its body is stored. -/
lemma completeFunction (hstage : c.stages.lookup id = some .pending) (pending : PendingFunction)
    (f : FunctionDef) : Settles c (completeFunction d id pending f c).2 := by
  let env : Env := { demand := d, unit := pending.unit, generics := f.generics }
  let result := if pending.infersResult then none else some f.result
  let checked := Check.checkFunction env f pending.decl result (c.entering id)
  have hbody : Settles (c.entering id) checked.2 := checkFunction hd f pending.decl result _
  suffices h : ∃ symbols, (Check.completeFunction d id pending f c).2 =
      checked.2.withBody id pending.infersResult checked.1 symbols by
    obtain ⟨symbols, h⟩ := h
    rw [h]
    exact .function _ _ _ hstage hbody
  let c' := (modifyFunction id (fun f => { f with
    result := if pending.infersResult then checked.1.expr.type else f.result
    body := some checked.1 }) checked.2).2
  obtain ⟨symbols, hsymbols⟩ := setDetail_eq
  have hstate : (Check.completeFunction d id pending f c).2 = ((do
      if pending.infersResult then Check.setDetail id (functionDetail (← Check.program) id)
      setStage id .done : CheckM Unit) c').2 := rfl
  rw [hstate]
  split
  · refine ⟨symbols, ?_⟩
    rw [run_bind, run_program, run_bind, hsymbols]
    rfl
  · exact ⟨c'.program.symbols, rfl⟩

lemma settleFunction (id : DefId) : Settling (settleFunction d id) := by
  intro c
  rw [Check.settleFunction, run_bind, run_stageOf, get_bind, run_bind, run_program]
  generalize c.functions.lookup id = pending, c.program.function? id = f
  cases hstage : c.stages.lookup id with
  | none => exact .refl c
  | some stage =>
    cases stage with
    | pending =>
      cases pending with
      | none => exact .refl c
      | some pending =>
        cases f with
        | none => exact .refl c
        | some f => exact completeFunction hd hstage pending f
    | inProgress | done | failed => exact .refl c

/-- A type is worked out once; a global that is typed already keeps it. -/
lemma settleGlobalType (id : DefId) : Settling (settleGlobalType d id) := by
  refine .bind .program fun {p} c => ?_
  rw [get_bind]
  cases hpending : c.globals.lookup id with
  | none => exact .refl c
  | some pending =>
    dsimp only
    split
    · exact .refl c
    · rename_i huntyped
      have huntyped : pending.typed = false := by simpa using huntyped
      have hrun (x : CheckM TypeId) : ((modify fun c : Checker => { c with
          globals := (id, { pending with typed := true }) :: c.globals }) >>= fun _ => x) c =
        x (c.typing id pending) := rfl
      rw [hrun]
      cases pending.type with
      | none => exact .typed hpending huntyped
      | some type =>
        let resolved := Check.resolveType { demand := d, unit := pending.unit } type (c.typing id pending)
        have hresolved : Settles (c.typing id pending) resolved.2 := resolveType hd type _
        have hdetail : Settling (do
            Check.setDetail id (← Check.display resolved.1)
            return resolved.1) := .bind (display _) <| .map (setDetail _ _)
        exact (Settles.globalType resolved.1 hpending huntyped hresolved).trans (hdetail _)

lemma initialValue (pending : PendingGlobal) (body : Typed.Body) (failed : Bool) :
    Settling (initialValue d pending body failed) := by
  refine .ite (.bind .pure fun {result} => ?_) (.bind (.tryEvaluate hd _ _) fun {result} => ?_)
  all_goals
    cases result with
    | ok value => exact .pure
    | error failure => exact .ite (.map .reportFailure) .pure

omit hd in
/-- A value comes from an evaluation that succeeded. -/
lemma evaluated_initialValue {body : Typed.Body} (h : (Check.initialValue d pending body failed c).1 = some v) :
    d.tryEvaluate body.expr body.locals.size c = (.ok v, (Check.initialValue d pending body failed c).2) := by
  have hfails : ∀ failure c, ((do
      if !(pending.atRunTime && failure.error.isLate) then Check.reportFailure failure
      return none : CheckM (Option Value)) c).1 = none := by
    intro failure c
    split <;> rfl
  unfold Check.initialValue at h ⊢
  cases failed with
  | true => exact nomatch (hfails _ c).symm.trans h
  | false =>
    rw [if_neg Bool.false_ne_true, run_bind] at h ⊢
    rcases heval : d.tryEvaluate body.expr body.locals.size c with ⟨result, after⟩
    rw [heval] at h
    cases result with
    | ok value =>
      cases h
      rfl
    | error failure => exact nomatch (hfails failure after).symm.trans h

lemma checkInitializer (id : DefId) (pending : PendingGlobal) : Settling (checkInitializer d id pending) :=
  .bind (settleGlobalType hd id) <| .bind .errors <|
    .bind (.runBody (.checkAgainst (settling_exprCheck hd _) _)) <| .bind .errors <| .map (initialValue hd _ _ _)

/-- Evaluating the initializer again gives the value. -/
lemma reproducible_checkInitializer (hc : c.Ordered)
    (h : (Check.checkInitializer d id pending c).1.2 = some v) :
    Reproducible (Check.checkInitializer d id pending c).2.limits (Check.checkInitializer d id pending c).1.1 v
      (Check.checkInitializer d id pending c).2.program := by
  let env : Env := { demand := d, unit := pending.unit }
  let typed := Check.settleGlobalType d id c
  let check := checkAgainst (exprCheck env pending.value) (if typed.1 == .error then none else some typed.1)
  have hchecked : Settles c (Check.runBody none check typed.2).2 := (settleGlobalType hd id c).trans
    (Settling.runBody (.checkAgainst (settling_exprCheck hd _) _) typed.2)
  exact hd.reproducible (hchecked.ordered hc) (evaluated_initialValue h)

lemma initializeGlobal (hstage : c.stages.lookup id = some .pending) (pending : PendingGlobal) :
    Settles c (initializeGlobal d id pending c).2 := by
  exact .global pending.type.isNone _ _ hstage (checkInitializer hd id pending (c.entering id))
    fun hc v hv => reproducible_checkInitializer hd (hc.entering id) hv

omit hd in
lemma storedValue (id : DefId) : Settling (storedValue id) := .bind .program fun {p} => by
  cases (p.global? id).bind (·.value) with
  | none | some value => exact .pure

lemma settleGlobal (id : DefId) : Settling (settleGlobal d id) := by
  intro c
  unfold Check.settleGlobal
  rw [run_bind, run_stageOf]
  cases hstage : c.stages.lookup id with
  | none => exact storedValue id c
  | some stage =>
    cases stage with
    | pending =>
      dsimp only
      rw [get_bind]
      cases c.globals.lookup id with
      | none => exact .refl c
      | some pending => exact initializeGlobal hd hstage pending
    | inProgress => exact .refl c
    | done | failed => exact storedValue id c

end Settling

lemma answers_initializeGlobal (hd : d.Settling)
    (hglobal : (c.program.kind id).global?.isSome) (h : (initializeGlobal d id pending c).1 = .ok v) :
    ((initializeGlobal d id pending c).2.program.kind id).value? = some v := by
  let checked := checkInitializer d id pending (c.entering id)
  have hvalue : checked.1.2 = some v := by
    rw [initializeGlobal, run_bind, run_bind] at h
    show (checkInitializer d id pending (setStage id .inProgress c).2).1.2 = some v
    generalize checkInitializer d id pending (setStage id .inProgress c).2 = result at h ⊢
    obtain ⟨⟨body, value⟩, later⟩ := result
    cases value with
    | none => cases h
    | some value =>
      cases h
      rfl
  have hprogress := (Settling.checkInitializer hd id pending (c.entering id)).progress
  have hstill := (congrArg (·.2.2.2) (hprogress.outline id)).trans hglobal
  obtain ⟨g, hg⟩ := Option.isSome_iff_exists.1 hstill
  show DefKind.value? ((modifyGlobal id _ checked.2).2.program.kind id) = some v
  unfold DefKind.value?
  rw [global?_modifyGlobal, hg]
  exact hvalue

lemma answers_storedValue (h : (storedValue id c).1 = .ok v) :
    ((storedValue id c).2.program.kind id).value? = some v := by
  have hstored : (c.program.global? id).bind (·.value) = (c.program.kind id).value? := by
    unfold DefKind.value?
    rw [← Program.global?_eq]
  rw [storedValue, run_bind, run_program] at h ⊢
  rw [hstored] at h ⊢
  cases hvalue : (c.program.kind id).value? with
  | none =>
    rw [hvalue] at h
    cases h
  | some value =>
    rw [hvalue] at h
    cases h
    exact hvalue

/-- What a demand answers is stored. -/
lemma answers_settleGlobal (hd : d.Settling) (hc : c.Ordered) (h : (settleGlobal d id c).1 = .ok v) :
    ((settleGlobal d id c).2.program.kind id).value? = some v := by
  unfold settleGlobal at h ⊢
  rw [run_bind, run_stageOf] at h ⊢
  cases hstage : c.stages.lookup id with
  | none =>
    rw [hstage] at h
    exact answers_storedValue h
  | some stage =>
    rw [hstage] at h
    cases stage with
    | pending =>
      dsimp only at h ⊢
      rw [get_bind] at h ⊢
      cases hpending : c.globals.lookup id with
      | none =>
        rw [hpending] at h
        cases h
      | some pending =>
        rw [hpending] at h
        exact answers_initializeGlobal hd (hc.isGlobal id (by rw [hpending]; rfl)) h
    | inProgress => cases h
    | done | failed => exact answers_storedValue h

lemma Demand.settling_idle : Demand.idle.Settling where
  function _ := .pure
  global _ := .pure
  globalType _ := .map .program
  answers _ _ _ _ h := nomatch h

/-- By induction on how deep demands may nest. -/
lemma settling_demandWithin : ∀ n : Nat, (demandWithin n).Settling
  | 0 => Demand.settling_idle
  | n + 1 => {
      function := .settleFunction (settling_demandWithin n)
      global := .settleGlobal (settling_demandWithin n)
      globalType := .settleGlobalType (settling_demandWithin n)
      answers := fun _ _ _ => answers_settleGlobal (settling_demandWithin n) }

namespace Settling

lemma demand (h : ∀ d : Demand, d.Settling → Settling (f d)) : Settling (demand >>= f) :=
  fun c => h (demandWithin (2 * c.program.defs.size + 1)) (settling_demandWithin _) c

lemma envIn (unit : UnitId) (generics : List Generic)
    (h : ∀ env : Env, env.demand.Settling → Settling (f env)) : Settling (envIn unit generics >>= f) :=
  fun c => h _ (settling_demandWithin (2 * c.program.defs.size + 1)) c

lemma ensureFunction : Settling (ensureFunction id) := .demand fun _ hd => hd.function id

lemma ensureGlobal : Settling (ensureGlobal id) := .demand fun _ hd => hd.global id

lemma ensureGlobalType : Settling (ensureGlobalType id) := .demand fun _ hd => hd.globalType id

end Settling

end Kite.Check
