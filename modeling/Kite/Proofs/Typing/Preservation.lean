/-
Type preservation of evaluation. Over a program whose bodies and values are exact, an exact
expression gives a value of its type, however deep the calls in it. The proof goes through the tree
with one rule for each node; the frame fits throughout, and what leaves an expression early is
typed as well. Calls are by induction on how deep they may still nest.
-/
import Kite.Compilation.Analysis
import Kite.Proofs.Typing.Calls

namespace Kite.Typed.Exact

open Eval List Option Bool Keeps

variable {cx : Context} {p : Program} {decl : DefId} {span : Span} {f : FunctionDef} {ss : List Stmt} {t : Ty}
  {u : Unwind}

def storedEnv (p : Program) (limits : EvalLimits)
    (invoke : DefId → List TypeId → List Value → Span → EvalM Unit Value) : Env Unit :=
  { host := .stored p, limits, invoke }

variable {limits : EvalLimits} {invoke : DefId → List TypeId → List Value → Span → EvalM Unit Value} {r : ParamId → Ty}

lemma getDef_mem_or (p : Program) (decl : DefId) : p.getDef decl ∈ p.defs ∨ p.getDef decl = default := by
  unfold Program.getDef
  rw [Array.getD_eq_getD_getElem?]
  cases hdef : p.defs[decl.index]? with
  | none => exact .inr rfl
  | some d => exact .inl (Array.mem_of_getElem? hdef)

lemma globalExact_of_exact (h : p.exact) (hg : p.global? decl = some g) : p.globalExact g := by
  have hkind : (p.getDef decl).kind = .const g ∨ (p.getDef decl).kind = .static g := by
    unfold Program.global? at hg
    split at hg <;> simp_all
  rcases getDef_mem_or p decl with hmem | hnone
  · have hdef := Array.all_eq_true_iff_forall_mem.1 h _ hmem
    rcases hkind with hkind | hkind <;> simpa [hkind] using hdef
  · rw [hnone] at hkind
    rcases hkind with hkind | hkind <;> cases hkind

lemma functionExact_of_exact (h : p.exact) (hf : p.function? decl = some f) (hcomptime : f.isComptime) :
    p.functionExact f := by
  have hkind : (p.getDef decl).kind = .function f := by
    unfold Program.function? at hf
    split at hf <;> simp_all
  rcases getDef_mem_or p decl with hmem | hnone
  · have hdef := Array.all_eq_true_iff_forall_mem.1 h _ hmem
    simpa [hkind] using hdef
  · rw [hnone] at hkind
    cases hkind
    cases hcomptime

lemma gives_global (hexact : cx.program.exact) (h : ((cx.program.global? decl).all fun g => cx.ty g.type == t)) :
    Gives cx r (readGlobal (storedEnv cx.program limits invoke) decl span) t := by
  refine .program_bind fun _ => ?_
  split
  · exact .fail _ _
  · have hvalue : ∀ v, (cx.program.global? decl).bind (·.value) = some v → v.fits cx.program (t.subst r) := by
      intro v hv
      obtain ⟨g, hg, hgv⟩ := bind_eq_some_iff.1 hv
      have hfit := globalExact_of_exact hexact hg
      rw [Program.globalExact, hgv, all_some] at hfit
      rw [hg, all_some, beq_iff_eq] at h
      rw [← h]
      exact Value.fits_subst r v _ hfit
    refine (Keeps.askHost fun _ => ?_).bind fun answer hanswer => Keeps.orFail span hanswer
    intro v hv
    simp only [storedEnv, Host.stored] at hv
    apply hvalue
    cases hstored : (cx.program.global? decl).bind (·.value) with
    | none => rw [hstored] at hv; cases hv
    | some w => rw [hstored] at hv; cases hv; rfl

lemma PlaceFits.flow (hplace : PlaceFits cx r s place) (h : flows s t) : PlaceFits cx r t place := by
  simp only [flows, or_eq_true, beq_iff_eq] at h
  rcases h with rfl | rfl
  · intro α P f _
    refine hplace P f ?_
    intro v a w hv
    rw [Ty.subst_never, Value.not_fits_never] at hv
    cases hv
  · exact hplace

lemma leaves_inLoop (h : Leaves cx.inLoop r u) (hbrk : u ≠ .brk) : Leaves cx r u := by
  cases u with
  | brk => exact absurd rfl hbrk
  | fail _ | cont | ret _ => exact h

lemma keeps_round (cx : Context) (hbody : Keeps (FrameFits cx r) body P (Leaves cx.inLoop r)) :
    Keeps (FrameFits cx r) (Eval.loopBody body) (fun _ => True) (Leaves cx r) :=
  (loopBody hbody fun _ hu hbrk _ => leaves_inLoop hu hbrk).weaken fun _ _ => trivial

lemma leaves_inEndless (h : Leaves cx.inEndless r u) : Leaves cx r u := by
  cases u with
  | brk => cases h
  | fail _ | cont | ret _ => exact h

/-- What is known after some statements: they all ended normally, and none of them never does, or
one was left early. The deferred statements may still run. -/
def StmtsEnd (cx : Context) (r : ParamId → Ty) (ss : List Stmt)
    (end_ : Except Unwind Unit × List (EvalM Unit Unit)) : Prop :=
  (∀ d ∈ end_.2, Runs cx r d) ∧ EndsIn (fun _ => diverge cx ss = false) (Leaves cx r) end_.1

lemma gives_block {tail : EvalM Unit Value} {start : EvalM Unit (Except Unwind Unit × List (EvalM Unit Unit))}
    (hstart : Keeps (FrameFits cx r) start (StmtsEnd cx r ss) (Leaves cx r))
    (htail : Gives cx r tail t) :
    Keeps (FrameFits cx r)
      (do
        let (result, deferred) ← start
        let result ← thenTail result tail
        leaveBlock result deferred)
      (fun v => diverge cx ss = false ∧ v.fits cx.program (t.subst r)) (Leaves cx r) := by
  refine hstart.bind fun ended hended => ?_
  obtain ⟨result, ds⟩ := ended
  obtain ⟨hds, hresult⟩ := hended
  have hthen : Keeps (FrameFits cx r) (thenTail result tail)
      (EndsIn (fun v => diverge cx ss = false ∧ v.fits cx.program (t.subst r)) (Leaves cx r))
      (Leaves cx r) := by
    cases result with
    | error u => exact .pure hresult
    | ok _ => exact (htail.weaken fun v hv => ⟨hresult, hv⟩).attempt
  refine hthen.bind fun result hresult => (deferred ds hds).bind fun _ _ => ?_
  cases result with
  | ok v => exact .pure hresult
  | error u => exact .throw hresult

lemma runs_rangeLoop {id : LocalId} (hfirst : first.fits cx.program ((cx.localTy id).subst r))
    (hround : Keeps (FrameFits cx r) (loopBody body) R (Leaves cx r)) :
    Runs cx r (rangeLoop id first last inclusive body span) := by
  unfold rangeLoop
  split
  · rename_i a ty b _
    refine .countUp (fun n frame hframe => hframe.bind ?_) hround _ _
    rwa [Value.fits_int_value]
  · exact .fail _ _

lemma evalStmts_step
    (hs : Keeps (FrameFits cx r) (evalStmt env s) (fun _ => diverges cx s = false) (Leaves cx r))
    (hss : ∀ ds, (∀ d ∈ ds, Runs cx r d) → Keeps (FrameFits cx r) (evalStmts env ss ds) (StmtsEnd cx r ss) (Leaves cx r))
    (hds : ∀ d ∈ ds, Runs cx r d) :
    Keeps (FrameFits cx r) (evalStmts env (s :: ss) ds) (StmtsEnd cx r (s :: ss)) (Leaves cx r) := by
  have hrest : ∀ ds, (∀ d ∈ ds, Runs cx r d) → diverges cx s = false →
      Keeps (FrameFits cx r) (evalStmts env ss ds) (StmtsEnd cx r (s :: ss)) (Leaves cx r) := by
    intro ds hds hends
    refine (hss ds hds).weaken fun ended hended => ?_
    rwa [StmtsEnd, diverge, hends, Bool.false_or]
  cases s with
  | defer inner =>
    refine hrest _ (fun d hd => ?_) (by simp [diverges])
    rcases mem_cons.1 hd with rfl | hd
    · exact hs.weaken fun _ _ => trivial
    · exact hds d hd
  | _ =>
    rw [evalStmts]
    · refine hs.attempt.bind fun result hresult => ?_
      cases result with
      | ok _ => exact hrest ds hds hresult
      | error u => exact .pure ⟨hds, hresult⟩
    · simp

/-! ## The tree -/

section

variable (limits : EvalLimits) (invoke : DefId → List TypeId → List Value → Span → EvalM Unit Value) (r : ParamId → Ty)

structure Sound (p : Program) : Prop where
  exact : p.exact
  calls : CallsFit p invoke

mutual

theorem evalExpr_gives {cx : Context} (hp : Sound invoke cx.program) :
    ∀ e : Expr, expr cx e → Gives cx r (evalExpr (storedEnv cx.program limits invoke) e) (cx.ty e.type)
  | ⟨kind, type, span⟩, h => by exact (Keeps.tick _ _).bind fun _ _ => evalKind_gives hp type span kind h

theorem evalKind_gives {cx : Context} (hp : Sound invoke cx.program) (type : TypeId) (span : Span) :
    ∀ kind, exprKind cx type kind →
      Gives cx r (evalKind (storedEnv cx.program limits invoke) type span kind) (cx.ty type)
  | .int value, h => gives_int (fun _ => rfl) (by rwa [exprKind] at h)
  | .float value, h => gives_float (by rwa [exprKind] at h)
  | .bool _, h | .char _, h | .str _, h | .void, h => by
    rw [exprKind, beq_iff_eq] at h
    rw [evalKind, h]
    exact .pure (by simp [Ty.bool, Ty.string, Ty.void])
  | .none, h => by
    rw [exprKind] at h
    split at h
    · rename_i hty
      rw [evalKind, hty]
      exact .pure (by simp)
    · cases h
  | .some inner, h => by
    rw [exprKind, and_eq_true] at h
    obtain ⟨hinner, h⟩ := h
    split at h
    · rename_i part rest hty
      rw [evalKind, hty]
      refine ((evalExpr_gives hp inner hinner).flow h).bind fun v hv => .pure ?_
      simpa using hv
    · cases h
  | .var id, h => by
    rw [exprKind, beq_iff_eq] at h
    rw [evalKind, ← h]
    exact gives_local
  | .global decl, h => gives_global hp.exact (by rwa [exprKind] at h)
  | .constParam id, h => gives_constParam (fun _ => rfl) (by rwa [exprKind] at h)
  | .unary op operand, h => by
    rw [exprKind, and_eq_true] at h
    refine (evalExpr_gives hp operand h.1).bind fun v hv => ?_
    exact .orFail span fun w hw => unary_fits h.2 hv hw
  | .binary op lhs rhs, h => by
    simp only [exprKind, and_eq_true] at h
    obtain ⟨⟨hlhs, hrhs⟩, h⟩ := h
    have left := evalExpr_gives hp lhs hlhs
    have right := evalExpr_gives hp rhs hrhs
    rw [evalKind]
    split
    · rename_i hop
      simp only [binaryFits, hop, Bool.true_or, if_true, beq_iff_eq] at h
      rw [h]
      exact .logical (fun b => by simp [Ty.bool]) (left.bind fun _ _ => .asCondition _ _)
        (right.bind fun _ _ => .asCondition _ _)
    · rename_i hop
      exact left.bind fun a ha => right.bind fun b _ => gives_binary (by simpa using hop) h ha
  | .assign op target value, h => by
    simp only [exprKind, and_eq_true, beq_iff_eq, or_eq_true] at h
    obtain ⟨⟨⟨htarget, hvalue⟩, hvoid⟩, h⟩ := h
    rw [evalKind, hvoid]
    refine (evalExpr_gives hp value hvalue).bind fun v hv => ?_
    -- a compound assignment stores what the operator gives, which has the type of its left side
    have hstored : Gives cx r (assigned (storedEnv cx.program limits invoke) op
        (evalExpr (storedEnv cx.program limits invoke) target) v target.type span)
        (cx.ty target.type) := by
      cases op with
      | none => exact .pure (fits_of_flows (by simpa using h) hv)
      | some op =>
        refine (evalExpr_gives hp target htarget).bind fun w hw => .program_bind fun _ => ?_
        exact .orFail span fun x hx => arith_fits hw hx
    refine hstored.bind fun w hw => (evalPlace_gives hp target htarget).bind fun place hplace => ?_
    refine gives_modifyPlace hplace fun _ a x _ hx => ?_
    cases hx
    exact ⟨hw, by simp [Ty.void]⟩
  | .cast inner, h => by
    rw [exprKind, and_eq_true] at h
    refine (evalExpr_gives hp inner h.1).bind fun v hv => .program_bind fun _ => ?_
    exact .orFail span fun w hw => cast_fits h.2 hv hw
  | .call callee args, h => by
    rw [exprKind, and_eq_true] at h
    refine gives_call hp.calls h.2 (evalExprs_gives hp args h.1)
      ((evalHead_gives hp args h.1).weaken fun _ _ => trivial) fun m hm => ?_
    exact evalMethod_gives hp span m _ args h.1 (by simpa [hm, calleeFits] using h.2)
  | .field base index name, h => by
    rw [exprKind, and_eq_true] at h
    exact (evalExpr_gives hp base h.1).bind fun v hv => gives_fieldOf h.2 hv
  | .tupleIndex base index, h => by
    rw [exprKind, and_eq_true] at h
    exact (evalExpr_gives hp base h.1).bind fun v hv => gives_itemOf h.2 hv
  | .index base index, h => by
    simp only [exprKind, and_eq_true] at h
    refine (evalExpr_gives hp base h.1.1).bind fun v hv => (evalExpr_gives hp index h.1.2).bind fun _ _ => ?_
    exact .orFail span fun w hw => element_fits h.2 hv hw
  | .slice base start stop inclusive, h => by
    simp only [exprKind, and_eq_true] at h
    obtain ⟨⟨⟨hbase, hstart⟩, hstop⟩, h⟩ := h
    refine (evalExpr_gives hp base hbase).bind fun v hv =>
      (evalExpr_gives hp start hstart).bind fun _ _ => (evalExpr_gives hp stop hstop).bind fun _ _ => ?_
    exact .orFail span fun w hw => slice_fits h hv hw
  | .unwrap inner, h => by
    rw [exprKind, and_eq_true] at h
    obtain ⟨hinner, h⟩ := h
    refine (evalExpr_gives hp inner hinner).bind fun v hv => ?_
    split at h
    · rename_i part rest hty
      rw [hty] at hv
      rw [← beq_iff_eq.1 h]
      exact gives_unwrapped hv
    · cases h
  | .tuple items, h => by
    rw [exprKind, and_eq_true] at h
    obtain ⟨hitems, h⟩ := h
    split at h
    · rename_i types hty
      rw [evalKind, hty]
      refine (evalExprs_gives hp items hitems).bind fun vs hvs => .pure ?_
      rw [Ty.subst_node]
      exact Value.fits_tuple.2 ⟨vs, rfl, hvs.flow h⟩
    · cases h
  | .sequence items, h => by
    simp only [exprKind, and_eq_true, Option.any_eq_true] at h
    obtain ⟨hitems, element, helement, h⟩ := h
    refine (evalExprs_gives hp items hitems).bind fun vs hvs => .pure ?_
    exact sequence_fits helement (hvs.each h)
  | .fill value count, h => by
    simp only [exprKind, and_eq_true, Option.any_eq_true] at h
    obtain ⟨⟨hvalue, hcount⟩, element, helement, h⟩ := h
    exact ((evalExpr_gives hp value hvalue).flow h).bind fun v hv =>
      (evalExpr_gives hp count hcount).bind fun _ _ => gives_filled helement hv
  | .cond cond thenBranch elseBranch, h => by
    simp only [exprKind, and_eq_true] at h
    obtain ⟨⟨⟨⟨hcond, hthen⟩, helse⟩, hfirst⟩, hsecond⟩ := h
    refine (evalExpr_gives hp cond hcond).bind fun c _ => (Keeps.asCondition _ _).bind fun b _ => ?_
    cases b with
    | true => exact (evalExpr_gives hp thenBranch hthen).flow hfirst
    | false => exact (evalOrVoid_gives hp elseBranch helse).flow hsecond
  | .matchWith scrutinee as, h => by
    rw [exprKind, and_eq_true] at h
    exact (evalExpr_gives hp scrutinee h.1).bind fun v hv => evalArms_gives hp v span _ _ hv as h.2
  | .block b, h => by
    rw [exprKind, and_eq_true] at h
    refine (evalBlock_gives hp b h.1).weaken fun v hv => ?_
    obtain ⟨ss, tail⟩ := b
    rw [blockFits, hv.1, Bool.false_or] at h
    exact fits_of_flows h.2 hv.2
  | .ret value, h => by
    simp only [exprKind, and_eq_true, Option.any_eq_true] at h
    obtain ⟨hvalue, result, hresult, h⟩ := h
    exact ((evalOrVoid_gives hp value hvalue).flow h).bind fun v hv => Keeps.throw ⟨result, hresult, hv⟩
  | .brk, h => .throw (by rwa [exprKind] at h)
  | .cont, h => .throw trivial
  | .functionRef _ _, _ | .range _ _ _, _ | .error, _ => .fail _ _

theorem evalExprs_gives {cx : Context} (hp : Sound invoke cx.program) : ∀ es : List Expr,
    exprs cx es → Keeps (FrameFits cx r) (evalExprs (storedEnv cx.program limits invoke) es)
      (FitTys cx r (cx.tys es)) (Leaves cx r)
  | [], h => .pure rfl
  | e :: es, h => by
    rw [exprs, and_eq_true] at h
    refine (evalExpr_gives hp e h.1).bind fun v hv => (evalExprs_gives hp es h.2).bind fun vs hvs => .pure ?_
    simp only [FitTys, Context.tys, map_cons, Value.fitAll, and_eq_true]
    exact ⟨hv, hvs⟩

theorem evalOrVoid_gives {cx : Context} (hp : Sound invoke cx.program) :
    ∀ e, exprOption cx e → Gives cx r (evalOrVoid (storedEnv cx.program limits invoke) e)
      ((e.map fun e => cx.ty e.type).getD .void)
  | none, h => .pure (by simp [Ty.void])
  | some e, h => evalExpr_gives hp e (by rwa [exprOption] at h)

theorem evalHead_gives {cx : Context} (hp : Sound invoke cx.program) : ∀ es : List Expr,
    exprs cx es → Keeps (FrameFits cx r) (evalHead (storedEnv cx.program limits invoke) es)
      (fun first => first.isSome = !es.isEmpty ∧ ∀ v e, first = some v → es.head? = some e →
        v.fits cx.program ((cx.ty e.type).subst r)) (Leaves cx r)
  | [], h => .pure ⟨rfl, by simp⟩
  | e :: es, h => by
    rw [exprs, and_eq_true] at h
    refine (evalExpr_gives hp e h.1).bind fun v hv => .pure ⟨rfl, ?_⟩
    intro w e' hw he'
    cases hw
    cases he'
    exact hv

theorem evalMethod_gives {cx : Context} (hp : Sound invoke cx.program) (span : Span)
    (method : BuiltinMethod) (t : Ty) : ∀ args : List Expr, exprs cx args →
      methodFits method (cx.tys args) t →
      Gives cx r (evalMethod (storedEnv cx.program limits invoke) span method args) t
  | [], h, hfits => .fail _ _
  | receiver :: args, h, hfits => by
    rw [exprs, and_eq_true] at h
    rw [evalMethod]
    split
    · rename_i hmutates
      refine (evalHead_gives hp args h.2).bind fun pushed hpushed =>
        (evalPlace_gives hp receiver h.1).bind fun place hplace => ?_
      -- a vector is pushed to with an argument and popped without one
      unfold methodFits at hfits
      split at hfits
      case h_7 element rest value more hargs =>
        cases args with
        | nil => simp [Context.tys] at hargs
        | cons arg args =>
          simp only [Context.tys, map_cons, List.cons.injEq] at hargs
          obtain ⟨hreceiver, harg, -⟩ := hargs
          simp only [and_eq_true, beq_iff_eq] at hfits
          obtain ⟨hsome, hfit⟩ := hpushed
          obtain ⟨w, rfl⟩ := isSome_iff_exists.1 hsome
          rw [hfits.1]
          rw [hreceiver] at hplace
          refine gives_modifyPlace hplace (changes_push (fits_of_flows hfits.2 ?_))
          rw [← harg]
          exact hfit w arg rfl rfl
      case h_8 element rest hargs =>
        cases args with
        | cons arg args => simp [Context.tys] at hargs
        | nil =>
          simp only [Context.tys, map_cons, List.cons.injEq] at hargs
          obtain ⟨hsome, -⟩ := hpushed
          cases pushed with
          | some _ => cases hsome
          | none =>
            rw [beq_iff_eq.1 hfits]
            rw [hargs.1] at hplace
            exact gives_modifyPlace hplace changes_pop
      all_goals first
        | cases hmutates
        | cases hfits
    · rename_i hmutates
      exact (evalExpr_gives hp receiver h.1).bind fun v _ => gives_pureMethod hfits (by simpa using hmutates)

theorem evalPlace_gives {cx : Context} (hp : Sound invoke cx.program) :
    ∀ e : Expr, expr cx e → Keeps (FrameFits cx r) (evalPlace (storedEnv cx.program limits invoke) e)
      (PlaceFits cx r (cx.ty e.type)) (Leaves cx r)
  | ⟨kind, type, span⟩, h => by exact placeOfKind_gives hp type span kind h

theorem placeOfKind_gives {cx : Context} (hp : Sound invoke cx.program) (type : TypeId) (span : Span) :
    ∀ kind, exprKind cx type kind →
      Keeps (FrameFits cx r) (placeOfKind (storedEnv cx.program limits invoke) span kind)
        (PlaceFits cx r (cx.ty type)) (Leaves cx r)
  | kind, h => by
    cases kind with
    | var id =>
      rw [exprKind, beq_iff_eq] at h
      rw [placeOfKind, ← h]
      exact pure (Leads.refl _ _)
    | unary op operand =>
      rw [exprKind, and_eq_true] at h
      cases op with
      | deref => exact (evalPlace_gives hp operand h.1).weaken fun place hplace => hplace.flow h.2
      | _ => exact .fail _ _
    | field base index name =>
      rw [exprKind, and_eq_true] at h
      refine (evalPlace_gives hp base h.1).bind fun place hplace => .pure ?_
      exact Leads.snoc hplace (leads_field h.2)
    | tupleIndex base index =>
      rw [exprKind, and_eq_true] at h
      refine (evalPlace_gives hp base h.1).bind fun place hplace => .pure ?_
      exact Leads.snoc hplace (leads_item h.2)
    | index base index =>
      simp only [exprKind, and_eq_true] at h
      refine (evalExpr_gives hp index h.1.2).bind fun i _ => ?_
      refine (evalPlace_gives hp base h.1.1).bind fun place hplace => ?_
      split
      · exact .fail _ _
      · exact pure (Leads.snoc hplace (leads_element h.2))
    | _ => exact .fail _ _

theorem evalArms_gives {cx : Context} (hp : Sound invoke cx.program) (v : Value) (span : Span)
    (s t : Ty) (hv : v.fits cx.program (s.subst r)) : ∀ as : List Arm, arms cx s t as →
      Gives cx r (evalArms (storedEnv cx.program limits invoke) v span as) t
  | [], h => .fail _ _
  | ⟨pats, body⟩ :: rest, h => by
    simp only [arms, and_eq_true] at h
    obtain ⟨⟨⟨hpats, hbody⟩, hflow⟩, hrest⟩ := h
    refine .program_bind fun _ => (gives_matchesAny hpats hv).bind fun matched _ => ?_
    cases matched with
    | true => exact (evalExpr_gives hp body hbody).flow hflow
    | false => exact evalArms_gives hp v span s t hv rest hrest

theorem evalBlock_gives {cx : Context} (hp : Sound invoke cx.program) : ∀ b, block cx b →
      Keeps (FrameFits cx r) (evalBlock (storedEnv cx.program limits invoke) b)
        (fun v => diverge cx b.stmts = false ∧
          v.fits cx.program (((b.tail.map fun e => cx.ty e.type).getD .void).subst r))
        (Leaves cx r)
  | ⟨ss, tail⟩, h => by
    rw [block, and_eq_true] at h
    exact gives_block (evalStmts_gives hp ss [] h.1 (by simp)) (evalOrVoid_gives hp tail h.2)

theorem evalStmts_gives {cx : Context} (hp : Sound invoke cx.program) :
    ∀ ss ds, stmts cx ss → (∀ d ∈ ds, Runs cx r d) →
      Keeps (FrameFits cx r) (evalStmts (storedEnv cx.program limits invoke) ss ds) (StmtsEnd cx r ss) (Leaves cx r)
  | [], ds, h, hds => .pure ⟨hds, rfl⟩
  | s :: ss, ds, h, hds => by
    rw [stmts, and_eq_true] at h
    exact evalStmts_step (evalStmt_gives hp s h.1) (fun ds hds => evalStmts_gives hp ss ds h.2 hds) hds

theorem evalStmt_gives {cx : Context} (hp : Sound invoke cx.program) : ∀ s, stmt cx s →
      Keeps (FrameFits cx r) (evalStmt (storedEnv cx.program limits invoke) s)
        (fun _ => diverges cx s = false) (Leaves cx r)
  | .letDecl id init, h => by
    rw [stmt, and_eq_true] at h
    have hinit := evalExpr_gives hp init h.1
    by_cases hnever : cx.ty init.type = .never
    · rw [hnever] at hinit
      exact hinit.never.bind fun _ (hv : False) => hv.elim
    · refine (hinit.flow h.2).bind fun v hv => (Keeps.bindLocal fun frame hframe => hframe.bind hv).weaken fun _ _ => ?_
      simp [diverges, hnever]
  | .expr e, h => by
    have he := evalExpr_gives hp e h
    by_cases hnever : cx.ty e.type = .never
    · rw [hnever] at he
      exact he.never.bind fun _ (hv : False) => hv.elim
    · exact he.bind fun _ _ => .pure (by simp [diverges, hnever])
  | .whileLoop cond body, h => by
    rw [stmt, and_eq_true] at h
    have hbody := @evalBlock_gives cx.inLoop hp body h.2
    refine (Keeps.whileTicking _ _ (R := fun _ => True) ?_).weaken fun _ _ => rfl
    refine (evalExpr_gives hp cond h.1).bind fun c _ => (Keeps.asCondition _ _).bind fun b _ => ?_
    cases b with
    | false => exact .pure trivial
    | true => exact keeps_round cx hbody
  | .loop body, h => by
    by_cases hendless : block cx.inEndless body
    · -- no `break` leaves the body, so the loop does not end
      have hbody := @evalBlock_gives cx.inEndless hp body hendless
      refine (Keeps.whileTicking _ _ (R := fun again => again) ?_).weaken fun _ hfalse => by cases hfalse
      refine (Keeps.loopBody hbody fun u hu _ _ => leaves_inEndless hu).bind fun again hagain => ?_
      cases again with
      | false => cases hagain rfl
      | true => exact (Keeps.tick _ _).bind fun _ _ => Keeps.pure rfl
    · have hbody := @evalBlock_gives cx.inLoop hp body h
      refine (Keeps.whileTicking _ _ (R := fun _ => True) ?_).weaken fun _ _ => by simp [diverges, hendless]
      refine (keeps_round cx hbody).bind fun again _ => ?_
      cases again with
      | false => exact .pure trivial
      | true => exact (Keeps.tick _ _).bind fun _ _ => Keeps.pure trivial
  | .forRange id start stop inclusive body, h => by
    simp only [stmt, and_eq_true] at h
    obtain ⟨⟨⟨hstart, hstop⟩, hflow⟩, hbody⟩ := h
    have hround := keeps_round cx (@evalBlock_gives cx.inLoop hp body hbody)
    refine (evalExpr_gives hp start hstart).bind fun first hfirst =>
      (evalExpr_gives hp stop hstop).bind fun last _ => ?_
    exact (runs_rangeLoop (fits_of_flows hflow hfirst) hround).weaken fun _ _ => rfl
  | .forEach id iterable body, h => by
    simp only [stmt, and_eq_true, beq_iff_eq] at h
    obtain ⟨⟨hiterable, helement⟩, hbody⟩ := h
    have hround := keeps_round cx (@evalBlock_gives cx.inLoop hp body hbody)
    refine (evalExpr_gives hp iterable hiterable).bind fun v hv => ?_
    obtain ⟨items, rfl, hitems⟩ := fits_of_element? helement hv
    exact (Keeps.forItems hround items fun w hw frame hframe => hframe.bind (hitems w hw)).weaken fun _ _ => rfl
  | .defer inner, h => by exact (evalStmt_gives hp inner h).weaken fun _ _ => rfl

end

end

/-! ## Calls -/

lemma frameFits_ofSize (r : ParamId → Ty) : FrameFits cx r (.ofSize size bindings) := by
  intro i v hv
  simp only [Frame.ofSize, Array.getElem?_replicate] at hv
  split at hv <;> cases hv

lemma frameFits_bindAll :
    ∀ (ids : List LocalId) (args : List Value) (frame : Eval.Frame),
      Value.fitAll cx.program args (ids.map fun id => (cx.localTy id).subst r) →
      FrameFits cx r frame →
      FrameFits cx r ((ids.zip args).foldl (fun frame (id, v) => frame.bind id v) frame)
  | [], _, _, _, hframe | _ :: _, [], _, _, hframe => hframe
  | id :: ids, v :: args, frame, hfit, hframe => by
    rw [map_cons, Value.fitAll, and_eq_true] at hfit
    exact frameFits_bindAll ids args _ hfit.2 (hframe.bind hfit.1)

lemma gives_callResult (cx : Context) (hcx : cx.result = some t) (hP : ∀ v, v.fits cx.program (t.subst r) → P v)
    (h : EndsIn (fun v => v.fits cx.program (t.subst r)) (Leaves cx r) result) :
    Keeps I (callResult span result : EvalM Unit Value) P OnlyFails := by
  cases result with
  | ok v => exact .pure (hP v h)
  | error u =>
    cases u with
    | ret v =>
      obtain ⟨t', ht', hv⟩ := h
      rw [hcx] at ht'
      cases ht'
      exact .pure (hP v hv)
    | fail failure => exact .throw trivial
    | brk | cont => exact .fail _ _

variable {limits : EvalLimits}

lemma gives_body (hexact : p.exact)
    (hinvoke : CallsFit p invoke) (hf : p.function? decl = some f) (hcomptime : f.isComptime)
    (hbody : f.body = some body)
    (hcall : ∃ types, Value.fitAll p args (paramTys p f body types) ∧
      ∀ v, v.fits p ((p.types.ty f.result).subst (.bind f.generics types)) → P v) :
    Keeps I (do callResult span (← inFrame (callFrame body bindings args)
      (evalExpr (storedEnv p limits invoke) body.expr))) P OnlyFails := by
  obtain ⟨types, hargs, hP⟩ := hcall
  have hbodyExact := functionExact_of_exact hexact hf hcomptime
  rw [Program.functionExact, hcomptime, hbody] at hbodyExact
  simp only [Bool.not_true, Bool.false_or, all_some, and_eq_true] at hbodyExact
  have hgives := (evalExpr_gives limits invoke (.bind f.generics types) ⟨hexact, hinvoke⟩ body.expr
    hbodyExact.1).flow hbodyExact.2
  have hframe : FrameFits (p.exactContext f body) (.bind f.generics types) (callFrame body bindings args) :=
    frameFits_bindAll body.params args _ hargs (frameFits_ofSize _)
  exact (inFrame hgives hframe).bind fun result hresult => gives_callResult (p.exactContext f body) rfl hP hresult

/-- Calls give values of their result types, by induction on how deep they may nest. -/
lemma invoke_fits (hexact : p.exact) : ∀ n, CallsFit p (Eval.invoke (.stored p) limits n)
  | n, I, decl, generics, args, span, P, hcall => by
    unfold Eval.invoke
    refine .get_bind fun m _ => ?_
    simp only [Host.stored]
    split
    · exact .fail _ _
    · rename_i f hf
      split
      · exact .fail _ _
      · rename_i hcomptime
        split
        · exact .fail _ _
        · refine .get_bind fun m _ => ?_
          split
          · exact .fail _ _
          cases n with
          | zero => exact .fail _ _
          | succ n =>
            refine (askHost (P := fun body => body = f.body) fun _ => ?_).bind fun body hbody => ?_
            · show (p.function? decl).bind (·.body) = f.body
              rw [hf, bind_some]
            · cases body with
              | none => exact .fail _ _
              | some body =>
                exact gives_body hexact (invoke_fits hexact n) hf (by simpa using hcomptime)
                  hbody.symm (hcall f body hf (by simpa using hcomptime) hbody.symm)

/-! ## Evaluation -/

lemma evalExpr_gives_invoke (hp : cx.program.exact) (he : expr cx e) (limits : EvalLimits)
    (r : ParamId → Ty) (depth : Nat) : Gives cx r
      (evalExpr (storedEnv cx.program limits (Eval.invoke (.stored cx.program) limits depth)) e) (cx.ty e.type) :=
  evalExpr_gives limits _ r ⟨hp, invoke_fits hp depth⟩ e he

/-- Evaluation over an exact program gives values of the types that checking found: in any frame
whose locals hold values of their declared types, and for an expression on its own. -/
theorem evaluate_fits (cx : Context) (hp : cx.program.exact = true) (e : Expr)
    (he : expr cx e = true) (limits : EvalLimits) :
    (∀ (r : ParamId → Ty) (depth : Nat) (m m' : Machine Unit) (v : Value), FrameFits cx r m.frame →
      (evalExpr (storedEnv cx.program limits (Eval.invoke (.stored cx.program) limits depth)) e).run m = (.ok v, m') →
      v.fits cx.program ((cx.ty e.type).subst r) = true ∧ FrameFits cx r m'.frame) ∧
    (cx.result = none → ∀ (locals : Nat) (v : Value),
      (evaluate (.stored cx.program) limits e locals ()).1 = .ok v → v.fits cx.program (cx.ty e.type) = true) := by
  constructor
  · intro r depth m m' v hframe hrun
    have h := evalExpr_gives_invoke hp he limits r depth m hframe
    rw [hrun] at h
    exact ⟨h.2, h.1⟩
  · intro hresult locals v hv
    -- there is nothing to return from, so a value can only be that of the expression itself
    have h := evalExpr_gives_invoke hp he limits .param limits.depth { frame := .ofSize locals [], steps := 0, host := () }
      (frameFits_ofSize _)
    unfold evaluate at hv
    simp only at hv
    split at hv
    rename_i result stop hrun
    simp only [storedEnv, hrun] at h
    cases result with
    | ok w =>
      cases hv
      rw [← Ty.subst_param (cx.ty e.type)]
      exact h.2
    | error u =>
      cases u with
      | ret w =>
        obtain ⟨t, ht, -⟩ := h.2
        rw [hresult] at ht
        cases ht
      | fail _ | brk | cont => cases hv

def programOf (source : String) : Check.Checker := checkInOrder [⟨"main", parseUnit ⟨0⟩ source 256, false⟩] [0] {}

def initOf (p : Program) (decl : DefId) : Body := ((p.global? decl).bind (·.init)).getD default

/-- A function that calls itself and gives a struct. -/
def sample : Check.Checker := programOf "struct P \x7b x: i64 \x7d
comptime function f(n: i64) -> P \x7b if n <= 1 \x7b return P(1); \x7d return P(n * f(n - 1).x); \x7d
const F: i64? = some(f(3).x);"

def initContext (p : Program) (decl : DefId) : Context :=
  { program := p, locals := (initOf p decl).locals, result := none, breaks := false }

def initValue (p : Program) (decl : DefId) : Except EvalFailure Value :=
  (evaluate (.stored p) {} (initOf p decl).expr (initOf p decl).locals.size ()).1

set_option maxRecDepth 100000

/-- The initializer of the constant of the sample gives an optional that holds an integer. -/
theorem evaluate_fits_sample :
    (hasErrors sample.diagnostics.toList = false ∧ sample.program.exact = true ∧
      expr (initContext sample.program ⟨2⟩) (initOf sample.program ⟨2⟩).expr = true ∧
      (initValue sample.program ⟨2⟩).isOk = true) ∧
    ∀ v, initValue sample.program ⟨2⟩ = .ok v →
      v.fits sample.program (sample.program.types.ty (initOf sample.program ⟨2⟩).expr.type) = true := by
  have hfits : ∀ (p : Program) (decl : DefId), p.exact = true →
      expr (initContext p decl) (initOf p decl).expr = true → ∀ v, initValue p decl = .ok v →
        v.fits p (p.types.ty (initOf p decl).expr.type) = true :=
    fun p decl hp he v hv => (evaluate_fits (initContext p decl) hp _ he {}).2 rfl _ v hv
  suffices hsample : _ from ⟨hsample, hfits _ _ hsample.2.1 hsample.2.2.1⟩
  decide +kernel

/-- A constant that is set from another one of the same type, whose value was converted. -/
def coerced : Check.Checker := programOf "const X: i64? = 5; const Y: i64? = X;"

/-- An integer that stands for an optional is read back as an integer, not as an optional. -/
theorem coerced_constant_not_fits :
    hasErrors coerced.diagnostics.toList = false ∧
      (match initValue coerced.program ⟨1⟩ with
        | .ok v => v.same (.int 5 .i64) && !v.fits coerced.program
            (coerced.program.types.ty (initOf coerced.program ⟨1⟩).expr.type)
        | .error _ => false) = true := by
  decide +kernel

/-! ## Divergence -/

/-- An expression whose type is `never`, on its own or with the generics of the frame put in, gives no value: in any
frame whose locals hold values of their declared types, and under any limits. -/
theorem evalExpr_never (cx : Context) (hp : cx.program.exact) (e : Expr) (he : expr cx e) (limits : EvalLimits)
    (r : ParamId → Ty) (hnever : (cx.ty e.type).subst r = .never) (depth : Nat) (m : Machine Unit)
    (hframe : FrameFits cx r m.frame) (v : Value) :
    ((evalExpr (storedEnv cx.program limits (Eval.invoke (.stored cx.program) limits depth)) e).run m).1 ≠ .ok v := by
  intro hrun
  have h := evalExpr_gives_invoke hp he limits r depth m hframe
  split at h <;> rename_i hresult <;> rw [hresult] at hrun <;> cases hrun
  rw [hnever] at h
  cases (Value.not_fits_never v).symm.trans h.2

/-- Every turn of the loop of `f` goes on, and nothing but the limit on steps ends it. -/
def endless : Check.Checker := programOf "comptime function f() -> never \x7b loop \x7b continue; \x7d \x7d
comptime function g() -> never => f();"

def functionOf (p : Program) (decl : DefId) : FunctionDef := (p.function? decl).getD default

def bodyOf (p : Program) (decl : DefId) : Body := (functionOf p decl).body.getD default

/-- The body of `g` calls `f`, and gives no value. -/
theorem evalExpr_never_endless : hasErrors endless.diagnostics.toList = false ∧
    (bodyOf endless.program ⟨1⟩).expr.type = .never ∧
    ∀ v, ((evalExpr (storedEnv endless.program {} (Eval.invoke (.stored endless.program) {} 8))
      (bodyOf endless.program ⟨1⟩).expr).run { frame := .ofSize 0 [], steps := 0, host := () }).1 ≠ .ok v := by
  refine ⟨by decide +kernel, ?_⟩
  have hendless : (bodyOf endless.program ⟨1⟩).expr.type = .never ∧
      endless.program.types.ty .never = .never ∧ endless.program.exact ∧
      expr (endless.program.exactContext (functionOf endless.program ⟨1⟩)
        (bodyOf endless.program ⟨1⟩)) (bodyOf endless.program ⟨1⟩).expr := by
    decide +kernel
  generalize endless.program = p at hendless ⊢
  obtain ⟨htype, hnever, hp, he⟩ := hendless
  refine ⟨htype, evalExpr_never (p.exactContext (functionOf p ⟨1⟩) (bodyOf p ⟨1⟩)) hp _ he {} .param ?_ 8 _
    (frameFits_ofSize _)⟩
  rw [htype]
  exact congrArg (Ty.subst .param) hnever

/-- A call that binds the parameter of its caller. -/
def rebound : Check.Checker := programOf "comptime function h<A, B>(x: (A, B)) -> A \x7b x.0 \x7d
comptime function k<C>() -> C \x7b h((5, true)) \x7d
const X: i64 = k::<never>();"

/-- The body of `k` is accepted for any result type, and gives an integer. -/
theorem rebound_never_gives : hasErrors rebound.diagnostics.toList = false ∧
    (initOf rebound.program ⟨2⟩).expr.type = .never ∧
      (match initValue rebound.program ⟨2⟩ with
        | .ok v => v.same (.int 5 .i64)
        | .error _ => false) = true := by
  decide +kernel

end Kite.Typed.Exact
