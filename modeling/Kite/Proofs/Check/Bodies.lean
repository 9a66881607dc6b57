/-
Checking a body settles: whatever a rule for an expression, a pattern, a statement or a type does to
the program around the body, it does by reports, types, symbols and demands. There is one lemma for
each rule, under the same for the checks of its operands.
-/
import Kite.Proofs.Check.Settling

namespace Kite.Check

variable {id : LocalId} {expected : Option TypeId} {type : TypeId} {target value : Typed.Expr} {want : Want}
  {element first second : TypeId} {cond : ExprCheck} {arm : ArmReading}

/-! ## Copies -/

lemma allM_le {f : TypeId → StateM Ownership.CopySearch Bool}
    (hf : ∀ (id : TypeId) (s : Ownership.CopySearch), s.types ≤ (f id s).2.types) :
    ∀ (ids : List TypeId) (s : Ownership.CopySearch), s.types ≤ (ids.allM f s).2.types
  | [], _ => le_rfl
  | id :: ids, s => by
    have hall : List.allM f (id :: ids) s =
        (match (f id s).1 with | true => ids.allM f | false => pure false) (f id s).2 := rfl
    rw [hall]
    cases (f id s).1 with
    | false => exact hf id s
    | true => exact (hf id s).trans (allM_le hf ids (f id s).2)

/-- Asking whether a type is copied only adds types. -/
lemma isCopyWithin_le (p : Program) : ∀ (n : Nat) (id : TypeId) (s : Ownership.CopySearch),
    s.types ≤ (p.isCopyWithin n id s).2.types
  | 0, _, _ => le_rfl
  | n + 1, id, s => by
    have ih := isCopyWithin_le p n
    rw [Program.isCopyWithin, get_bind]
    cases s.types.shape id with
    | optional inner => exact ih inner s
    | array element length => exact ih element s
    | tuple items => exact allM_le ih items s
    | named decl name args =>
      have hvisit : (Ownership.CopySearch.visit id s).2.types = s.types := by
        show (if s.visited.contains id then (false, s) else _).2.types = _
        split <;> rfl
      dsimp only
      rw [run_bind]
      generalize Ownership.CopySearch.visit id s = visited at hvisit ⊢
      obtain ⟨new, s'⟩ := visited
      rw [← hvisit]
      cases new with
      | false => exact le_rfl
      | true =>
        cases p.members? decl with
        | none => exact le_rfl
        | some found =>
          refine allM_le (fun member s => ?_) found.2 s'
          let made := TypeM.subst (Program.bindings found.1 args) member s.types
          exact (TypeM.subst_le _ member s.types).trans (ih made.1 { s with types := made.2 })
    | _ => exact le_rfl

/-- The check settles, whatever is wanted of the expression. -/
def ExprCheck.Settling (check : ExprCheck) : Prop := ∀ want, SettlingBody (check want)

def BlockCheck.Settling (block : BlockCheck) : Prop := ∀ expected, SettlingBody (block expected)

namespace SettlingBody

/-! ## Locals -/

lemma localOf : SettlingBody (localOf id) := .map .get

lemma report : SettlingBody (report span problem : BodyM Unit) := .lift .report

lemma program : SettlingBody (program : BodyM Program) := .lift .program

lemma types : SettlingBody (types : BodyM TypeTable) := .lift .types

lemma subst (s : Subst) (type : TypeId) : SettlingBody (build (TypeM.subst s type) : BodyM TypeId) :=
  .lift .buildSubst

lemma intern (shape : TypeShape) : SettlingBody (build (TypeM.intern shape) : BodyM TypeId) := .lift .buildIntern

/-- A name that is taken is reported, and declared all the same. -/
lemma declareLocal : SettlingBody (declareLocal name type isMut kind) := by
  refine .bind .get fun {s} => .bind (.modify _) <| .bind .get fun {s} => ?_
  cases s.scopes.define name.name _
  case' ok => refine .bind (.modify _) ?_
  case' error => refine .bind .localOf <| .bind .report ?_
  all_goals
    exact .bind (.lift (.display _)) <| .bind (.lift .defineSymbol) <| .map (.modify _)

lemma referToLocal : SettlingBody (referToLocal id span) := by
  refine .bind .get fun {s} => ?_
  split
  · exact .bind (.lift .referTo) <| .map .localOf
  · exact .map .localOf

lemma checkNotMoved : SettlingBody (checkNotMoved id span) := by
  refine .bind .get fun {s} => ?_
  split
  · exact .pure
  · exact .bind .localOf <| .bind .report <| .modify _

lemma useLocal : SettlingBody (useLocal id span) := .bind .checkNotMoved .referToLocal

lemma inScope (h : SettlingBody x) : SettlingBody (inScope x) := .bind (.modify _) <| .bind h <| .map (.modify _)

lemma inUnchecked (h : SettlingBody x) : SettlingBody (inUnchecked x) :=
  .bind (.modify _) <| .bind h <| .map (.modify _)

end SettlingBody

lemma Settling.runBody {x : BodyM Typed.Expr} (h : SettlingBody x) : Settling (runBody result x) := .map (h _)

/-! ## Types of values -/

lemma Settling.mismatch {expected found : TypeId} : Settling (mismatch expected found span) :=
  .bind .types <| .ite .pure .report

lemma Settling.coerce : ∀ expected, Settling (coerce value expected)
  | none => .pure
  | some _ => .bind .types <| .ite .mismatch .pure

namespace SettlingBody

variable {check : ExprCheck} (hcheck : check.Settling)

section

include hcheck

lemma synth : SettlingBody (synth check expected) := hcheck _

lemma checkAgainst (expected : Option TypeId) : SettlingBody (checkAgainst check expected) :=
  .bind (.synth hcheck) <| .map (.lift (.coerce _))

end

lemma blockExpr (h : block.Settling) (span : Span) (expected : Option TypeId) :
    SettlingBody (blockExpr block span expected) :=
  .map (h _)

/-! ## Ownership -/

lemma isCopy (p : Program) (type : TypeId) : SettlingBody (build (p.isCopy type) : BodyM Bool) :=
  .lift (.build fun table => isCopyWithin_le p Program.typeNesting type { types := table })

/-- Only a local whose type is not copied is marked as moved. -/
lemma consume : SettlingBody (consume value) := by
  unfold Check.consume
  split
  · refine .bind .get fun {s} => .ite .pure (.bind .program fun {p} => .bind (.isCopy p _) fun {copied} => ?_)
    exact .ite .pure (.modify _)
  · exact .pure

include hcheck in
lemma takeAgainst : SettlingBody (takeAgainst check expected) := .bind (.checkAgainst hcheck _) <| .map .consume

lemma checkLoopMoves : SettlingBody (checkLoopMoves before firstInner) := by
  refine .bind .get fun {s} => .map (.forIn fun _ _ => ?_)
  exact .ite (.bind .localOf <| .map .report) .pure

lemma requireMutable : SettlingBody (requireMutable target action) := by
  refine .ite .pure (.bind .program fun {p} => .bind .get fun {s} => ?_)
  split
  · exact .pure
  · exact .map .report
  · exact .map .report

/-- Behind a view it is the view that counts. -/
lemma requireMutableThrough : SettlingBody (requireMutableThrough target action) := by
  refine .bind .program fun {p} => ?_
  split
  · exact .pure
  · exact .pure
  · exact .map .report
  · exact .ite .pure .requireMutable
  · exact .requireMutable

end SettlingBody

/-! ## Literals and operators -/

lemma Settling.literalExpr (literal : Literal) (negative : Bool) (expected : Option TypeId) (span : Span) :
    Settling (literalExpr literal negative expected span) := by
  refine .bind .types fun {table} => ?_
  cases literal with
  | int value suffix => exact .ite (.map .report) .pure
  | float _ _ | str _ | char _ | bool _ => exact .pure

lemma Settling.noneExpr : Settling (noneExpr expected span) := by
  refine .bind .types fun {table} => ?_
  dsimp only
  split
  · exact .pure
  · exact .ite (.map .report) .pure

namespace SettlingBody

variable {check left right : ExprCheck} (hcheck : check.Settling) (hleft : left.Settling) (hright : right.Settling)

section

include hcheck

lemma someExpr : SettlingBody (someExpr check expected span) :=
  .bind .types <| .bind (.takeAgainst hcheck) <| .map (.intern _)

lemma negation : SettlingBody (negation check expected span) := by
  refine .bind (.synth hcheck) <| .bind .types fun {_} => ?_
  dsimp only
  split
  · exact .map .report
  · exact .pure

lemma complement : SettlingBody (complement check expected span) :=
  .bind (.synth hcheck) <| .bind .types <| .ite (.map .report) .pure

lemma viewExpr : SettlingBody (viewExpr isMut check expected span) :=
  .bind .types <| .bind (.synth hcheck) <|
    .ite (.bind .requireMutable <| .map (.intern _)) (.map (.intern _))

lemma dereference : SettlingBody (dereference check span) := by
  refine .bind (.synth hcheck) <| .bind .types fun {_} => ?_
  split
  · exact .pure
  · exact .bind .get <| .ite (.map .report) .pure
  · exact .pure
  · exact .map .report

lemma unaryExpr {op : UnaryOp} : SettlingBody (unaryExpr op number check expected span) := by
  unfold Check.unaryExpr
  split
  · exact .lift (.literalExpr _ _ _ _)
  · exact .negation hcheck
  · exact .map (.checkAgainst hcheck _)
  · exact .complement hcheck
  · exact .viewExpr hcheck
  · exact .viewExpr hcheck
  · exact .dereference hcheck

lemma assignTarget : SettlingBody (assignTarget name check span) := by
  refine .bind .get fun {_} => ?_
  split
  · exact .referToLocal
  · exact .synth hcheck

lemma assignedValue : SettlingBody (assignedValue op type check span) := by
  cases op with
  | none => exact .takeAgainst hcheck
  | some op =>
    exact .bind .types <| .bind (.synth hcheck) <| .bind .types <| .ite (.map .report) .pure

lemma castExpr {type : CheckM TypeId} (htype : Settling type) : SettlingBody (castExpr check type span) :=
  .bind (.lift htype) <| .bind (.synth hcheck) <| .bind .program <|
    .ite (.map .report) (.bind .get <| .ite (.map .report) .pure)

end

include hleft hright

/-- The operand that is no literal is checked first, for a hint on the other. -/
lemma operands (op : BinaryOp) (leftLiteral rightLiteral : Bool) (hint : Option TypeId) :
    SettlingBody (operands op left right leftLiteral rightLiteral hint) := by
  refine .ite ?_ (.ite ?_ ?_)
  · exact .bind (.synth hleft) <| .map (.synth hright)
  · exact .bind (.synth hright) <| .bind .types <| .map (.synth hleft)
  · exact .bind (.synth hleft) <| .bind .types <| .map (.synth hright)

lemma binaryExpr {op : BinaryOp} :
    SettlingBody (binaryExpr op left right leftLiteral rightLiteral expected span) := by
  refine .ite ?_ ?_
  · exact .bind (.checkAgainst hleft _) <| .map (.checkAgainst hright _)
  · refine .bind .types <| .bind (.operands hleft hright _ _ _ _) <| .bind .program fun {_} => ?_
    dsimp only
    split
    · exact .map .report
    · exact .pure

lemma assignExpr : SettlingBody (assignExpr op name left targetSpan right span) := by
  refine .bind (.assignTarget hleft) <| .bind (.assignedValue hright) <| .bind .requireMutableThrough fun {_} => ?_
  split
  · exact .map (.modify _)
  · exact .pure

end SettlingBody

/-! ## Parts and aggregates -/

namespace SettlingBody

variable {check base start stop : ExprCheck} (hcheck : check.Settling) (hbase : base.Settling)
  (hstart : start.Settling) (hstop : stop.Settling)

lemma indexOperand (hcheck : check.Settling) : SettlingBody (indexOperand check) :=
  .bind (.synth hcheck) <| .bind .types <| .ite (.map .report) .pure

section

include hbase

lemma fieldExpr : SettlingBody (fieldExpr base name span) := by
  refine .bind (.synth hbase) <| .bind .program <| .ite .pure ?_
  split
  · refine .bind (.subst _ _) <| .bind .getChecker fun {_} => ?_
    split
    · exact .map (.lift .referTo)
    · exact .pure
  · exact .map .report

lemma tupleIndexExpr : SettlingBody (tupleIndexExpr base index indexSpan span) := by
  refine .bind (.synth hbase) <| .bind .types <| .ite .pure ?_
  split
  · exact .pure
  · exact .map .report

include hcheck in
lemma indexExpr : SettlingBody (indexExpr base check span) := by
  refine .bind (.synth hbase) <| .bind .types <| .bind (.indexOperand hcheck) ?_
  split
  iterate 5
    · exact .pure
  · exact .map .report

include hstart hstop in
lemma sliceExpr : SettlingBody (sliceExpr base start stop inclusive span) := by
  refine .bind (.synth hbase) <| .bind .types <| .bind (.indexOperand hstart) <|
    .bind (.indexOperand hstop) ?_
  split
  · exact .pure
  · exact .map (.intern _)
  · exact .map (.intern _)
  · exact .pure
  · exact .pure
  · exact .map .report

end

lemma hinted : SettlingBody (expected.mapM fun type => build (TypeM.optional type) : BodyM (Option TypeId)) := by
  cases expected with
  | none => exact .pure
  | some type => exact .map (.intern _)

include hcheck in
lemma unwrapExpr : SettlingBody (unwrapExpr check expected span) := by
  refine .bind .hinted <| .bind (.synth hcheck) <| .bind .types fun {_} => ?_
  dsimp only
  split
  · exact .pure
  · exact .pure
  · exact .pure
  · exact .map .report

/-- Each item under its own hint. -/
lemma tupleItems : ∀ {items}, (∀ item ∈ items, item.Settling) → ∀ hints, SettlingBody (tupleItems items hints)
  | [], _, _ | _ :: _, _, [] => .pure
  | item :: items, h, hint :: hints =>
    .bind (.takeAgainst (h item (by simp))) <| .map (tupleItems (List.forall_mem_cons.1 h).2 hints)

lemma tupleExpr (h : ∀ item ∈ items, item.Settling) : SettlingBody (tupleExpr items expected span) :=
  .bind .types <| .bind (.tupleItems h _) <| .map (.lift .buildTuple)

lemma sequenceItems : ∀ {items}, (∀ item ∈ items, item.Settling) → ∀ element,
    SettlingBody (sequenceItems items element)
  | [], _, _ => .pure
  | item :: items, h, element =>
    .bind (.takeAgainst (h item (by simp))) <| .map (sequenceItems (List.forall_mem_cons.1 h).2 _)

lemma buildSequence : Settling (build (sequenceType vector element length)) :=
  .build fun table => by
    unfold sequenceType
    split
    · exact TypeM.intern_le _ table
    · exact TypeM.bind_le (TypeM.intern_le _) (fun _ => TypeM.intern_le _) table

lemma sequenceExpr (h : ∀ item ∈ items, item.Settling) : SettlingBody (sequenceExpr items expected span) :=
  .bind .types <| .ite (.map .report) (.bind (.sequenceItems h _) <| .map (.lift buildSequence))

variable {env : Env} (hd : env.demand.Settling)

include hd

/-- The count is evaluated, which may demand other declarations. -/
lemma fillLength {count : Typed.Expr} : SettlingBody (fillLength env count) := by
  unfold Check.fillLength
  split
  · exact .pure
  · refine .bind .get <| .bind (.lift (.evaluate hd _ _)) fun {value} => ?_
    split
    · exact .pure
    · exact .ite (.map (.intern _)) .pure

lemma fillExpr {value count : ExprCheck} (hvalue : value.Settling) (hcount : count.Settling) :
    SettlingBody (fillExpr env value count expected span) := by
  refine .bind .types <| .bind (.checkAgainst hvalue _) <| .bind (.indexOperand hcount) ?_
  refine .ite (.map (.intern _)) (.bind (.fillLength hd) fun {length} => ?_)
  cases length with
  | none => exact .pure
  | some _ => exact .map (.intern _)

end SettlingBody

/-! ## Patterns -/

namespace Settling

lemma patternMismatch : Settling (patternMismatch type what span) := .ite (.bind (.display _) .report) .pure

lemma literalPattern : Settling (literalPattern literal negative type span) := by
  cases literal with
  | int value suffix =>
    refine .bind .types fun {table} => ?_
    split
    · exact .ite (.map .report) .pure
    · exact .map .patternMismatch
  | float _ _ => exact .map .report
  | str _ | char _ | bool _ => exact .ite (.map .patternMismatch) .pure

lemma referToVariant : Settling (referToVariant decl index span) := by
  refine .bind .get fun {c} => ?_
  split
  · exact .referTo
  · exact .pure

lemma patternEnum? : Settling (patternEnum? env owner span) := by
  refine .bind (.lookupItem _) fun {found} => ?_
  split
  · exact .pure
  · exact .map .report
  · refine .ite (.map .report) (.bind (.getDef _) fun {d} => ?_)
    split
    · exact .pure
    · exact .map .report

/-- The variant that a path stands for, with the types of its fields. -/
lemma patternVariant? : Settling (patternVariant? env path type span) := by
  unfold Check.patternVariant?
  split
  · exact .pure
  · refine .bind .patternEnum? fun {found} => ?_
    split
    · exact .pure
    · refine .bind .program fun {p} => ?_
      split
      · exact .map .report
      · refine .bind .referToVariant ?_
        split
        · refine .ite (.map .patternMismatch) ?_
          exact .map (.build (TypeM.mapM_le (TypeM.subst_le _) _))
        · exact .map .patternMismatch

end Settling

namespace SettlingBody

lemma namePattern : SettlingBody (namePattern ident type alternatives) := by
  refine .bind .program fun {p} => ?_
  split
  · exact .map (.lift .referToVariant)
  · refine .ite (.map .report) ?_
    exact .map .declareLocal

lemma variantPattern
    (h : ∀ types, SettlingBody (fields types)) : SettlingBody (variantPattern env path type span given fields) := by
  refine .bind (.lift .patternVariant?) fun {found} => ?_
  split
  · exact .pure
  · refine .ite (.bind .program <| .map .report) ?_
    exact .map (h _)

mutual

/-- By recursion over the pattern. -/
theorem checkPattern (env : Env) (alternatives : Bool) : ∀ pattern type,
    SettlingBody (checkPattern env alternatives pattern type)
  | ⟨_, kind, span⟩, type => checkPatternKind env alternatives span kind type

theorem checkPatternKind (env : Env) (alternatives : Bool) (span : Span) :
    ∀ kind type, SettlingBody (checkPatternKind env alternatives span kind type)
  | .wildcard, _ => .pure
  | .binding ident, type => .namePattern
  | .literal value negative, type => .lift .literalPattern
  | .variant path none, type => .variantPattern fun _ => .pure
  | .variant path (some fields), type => .variantPattern (checkPatterns env alternatives fields)
  | .some inner, type => by
    refine .bind .types fun {table} => ?_
    split
    · exact .map (checkPattern env alternatives inner _)
    · exact .map (.lift .patternMismatch)
  | .none, type => .bind .types <| .ite .pure (.map (.lift .patternMismatch))

theorem checkPatterns (env : Env) (alternatives : Bool) : ∀ patterns types,
    SettlingBody (checkPatterns env alternatives patterns types)
  | [], _ | _ :: _, [] => .pure
  | pattern :: patterns, type :: types =>
    .bind (checkPattern env alternatives pattern type) <| .map (checkPatterns env alternatives patterns types)

end

lemma checkAlternatives : SettlingBody (checkAlternatives env patterns type) :=
  .mapM fun pattern _ => .checkPattern env _ pattern type

lemma checkExhaustive : SettlingBody (checkExhaustive type patterns span : BodyM Unit) :=
  .lift (.bind .program <| .ite .report .pure)

/-! ## Branches -/

lemma condTypeWithoutElse : SettlingBody (condTypeWithoutElse want span : BodyM TypeId) := by
  refine .lift ?_
  unfold Check.condTypeWithoutElse
  split
  · exact .pure
  · exact .ite .pure (.map .report)

lemma condTypeOf : SettlingBody (condTypeOf want first second span : BodyM TypeId) := by
  refine .lift ?_
  unfold Check.condTypeOf
  split
  · exact .pure
  · exact .pure
  · refine .bind .types fun {table} => ?_
    split
    · exact .pure
    · exact .map .report

/-- Both branches start from the moves before them. -/
lemma condExpr (hcond : cond.Settling) (hthen : ∀ expected, SettlingBody (thenBranch expected))
    (helse : ∀ branch ∈ elseBranch, SettlingBody branch) :
    SettlingBody (condExpr cond thenBranch elseBranch want span) := by
  refine .bind (.checkAgainst hcond _) <| .bind .get <| .bind (hthen _) <| .bind .get <| .bind (.modify _) ?_
  cases elseBranch with
  | none => exact .bind (.modify _) <| .map .condTypeWithoutElse
  | some branch =>
    refine .bind (helse branch rfl) <| .bind (.modify _) ?_
    exact .ite .pure (.map .condTypeOf)

/-- The body of an arm settles, as a block and as any other expression. -/
structure ArmSettling (arm : ArmReading) : Prop where
  block : ∀ block ∈ arm.block, BlockCheck.Settling block
  check : arm.check.Settling

lemma armBody (h : ArmSettling arm) (want : Want) : SettlingBody (armBody arm want) := by
  unfold Check.armBody
  split
  · rename_i block hblock
    have hblock := h.block block (by rw [hblock]; rfl)
    refine .ite (.blockExpr hblock _ _) ?_
    exact .bind .report <| .map (.blockExpr hblock _ _)
  · exact h.check _
  · exact .checkAgainst h.check _

lemma joinArm : SettlingBody (joinArm state want type span : BodyM MatchState) := by
  refine .lift ?_
  unfold Check.joinArm
  split
  · exact .pure
  · refine .bind .types fun {table} => ?_
    split
    · exact .pure
    · exact .map .report
  · exact .pure

lemma matchArm (env : Env) (type : TypeId) (want : Want) (before : Ownership.Moves) (state : MatchState)
    (h : ArmSettling arm) : SettlingBody (matchArm env type want before state arm) := by
  refine .bind (.modify _) <| .bind (.inScope ?_) <| .bind .get <| .bind (.modify _) <| .map .joinArm
  exact .bind .checkAlternatives <| .map (.armBody h _)

/-- The type found so far is handed from arm to arm. -/
lemma matchArms (env : Env) (type : TypeId) (want : Want) (before : Ownership.Moves) :
    ∀ {arms}, (∀ arm ∈ arms, ArmSettling arm) → ∀ state, SettlingBody (matchArms env type want before arms state)
  | [], _, _ => .pure
  | arm :: arms, h, state =>
    .bind (.matchArm env type want before state (h arm (by simp))) fun {state} =>
      matchArms env type want before (List.forall_mem_cons.1 h).2 state

lemma matchExpr (hscrutinee : scrutinee.Settling)
    (h : ∀ arm ∈ arms, ArmSettling arm) : SettlingBody (matchExpr env scrutinee arms want span) :=
  .bind (.synth hscrutinee) <| .bind .types <| .bind .get <|
    .bind (.matchArms _ _ _ _ h _) <| .bind (.modify _) <| .map .checkExhaustive

lemma thisExpr : SettlingBody (thisExpr span) := by
  refine .bind .get fun {s} => ?_
  split
  · exact .useLocal
  · exact .map .report

lemma returnExpr {value : Option ExprCheck} (h : ∀ check ∈ value, ExprCheck.Settling check) :
    SettlingBody (returnExpr value span) := by
  refine .bind .get fun {s} => ?_
  split
  · exact .map .report
  · exact .bind .report <| .map (.synth (h _ rfl))
  · exact .map (.takeAgainst (h _ rfl))
  · exact .ite (.map (.lift .mismatch)) .pure

lemma breakExpr : SettlingBody (breakExpr span) := by
  refine .bind .get fun {s} => ?_
  split
  · exact .map .report
  · exact .map (.modify _)

lemma continueExpr : SettlingBody (continueExpr span) := .bind .get <| .ite (.map .report) .pure

end SettlingBody

end Kite.Check
