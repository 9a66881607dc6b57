/-
One walk over the trees of bodies, for every judgement of the rules. Expressions are judged in all their uses, and
statements, once it is known how types are spelled and what becomes of the rules that may fail.
-/
import Kite.Proofs.Emission.Emittable
import Kite.Proofs.Emission.Rules

namespace Kite.Emission

open List Typed.Emittable
open Typed (Jumps.exprKind Jumps.exprs Jumps.exprOption Jumps.callee)

/-- The rules at which judgements differ. With `C`, the tree has passed its check. -/
structure Leaves (j : Judgement) (C : Prop) (p : Program) (scope : Scope) (t : TypeTable) : Prop where
  spelled : ∀ {type}, (C → p.isProper scope.generics type) → Spelled j t (concrete type)
  spelledLocal : ∀ {id}, (C → declares p scope id) → Spelled j t (localType id)
  constParam : ∀ {W type id span}, (C → (Program.generic? scope.generics id).any (·.constType.isSome)) →
    Level j W t (constParamText type id span)
  fill : ∀ {W type} {a b : Lowered}, (C → p.isProper scope.generics type) → Level j W t a.bare → Level j W t b.bare →
    Level j W t (fillText type a b)
  traitMethod : ∀ {W traitDef method type span} {args : List Arg},
    (C → callee p scope (.traitMethod traitDef method type)) → (∀ arg ∈ args, Level j W t arg.2.value) →
      Level j W t (callTraitMethod traitDef method type span args)
  arms : ∀ {subject type} {arms : List LoweredArm} dest, (∀ arm ∈ arms, (C → patterns p scope arm.patterns) ∧
    Judged j True t arm.body) → Level j True t (armLines subject type dest arms true)
  fails : ∀ {α W message span}, ¬C → Level j W t (violation message span : EmitM α)

/-! What is known of a node is known of its parts: that they are checked, joined by `&&`, and where control may jump out
of them, joined by `||`. -/

lemma fst (h : C → (a && b) = true) : C → a = true := fun hC => (Bool.and_eq_true_iff.1 (h hC)).1

lemma snd (h : C → (a && b) = true) : C → b = true := fun hC => (Bool.and_eq_true_iff.1 (h hC)).2

lemma left {W : Prop} (h : (a || b) = true → W) : a = true → W := fun ha => h (by simp [ha])

lemma right {W : Prop} (h : (a || b) = true → W) : b = true → W := fun hb => h (by simp [hb])

section Trees

variable {j : Judgement} {C : Prop} {p : Program} {scope : Scope} {t : TypeTable}

mutual

/-- The value of an expression writes only if control may jump out of it. -/
theorem judged_expr (hj : Leaves j C p scope t) : ∀ {e W}, (C → expr p scope e) → (e.escapes = true → W) → Judged j W t (lower e)
  | ⟨_, _, span⟩, _, h, hW => by
    refine judged_kind hj span (snd h) (fun hspells hC => ?_) hW
    simpa [hspells] using fst h hC

theorem judged_kind (hj : Leaves j C p scope t) {type : TypeId} (span : Span) : ∀ {kind W}, (C → exprKind p scope kind) →
    (spells kind → C → p.isProper scope.generics type) → (Jumps.exprKind 0 kind = true → W) →
      Judged j W t (lowerKind kind type span)
  | .int _, _, _, _, _ => judged_plain type (closed_intText .level)
  | .float _, _, _, _, _ => judged_plain type (closed_floatText .level)
  | .bool _, _, _, _, _ | .char _, _, _, _, _ | .str _, _, _, _, _ => judged_plain type (.pure _)
  | .void, _, _, _, _ => judged_void
  | .none, _, _, htype, _ => judged_plain type (.bind (level_bodyTypeText (hj.spelled (htype rfl))) (.pure _))
  | .some _, _, h, htype, hW => judged_plain type (level_wrapText (hj.spelled (htype rfl)) (judged_expr hj h hW))
  | .var _, _, _, _, _ => judged_plain type (closed_localName .level)
  | .global _, _, _, _, _ => judged_plain type (closed_baseName .level)
  | .constParam _, _, h, _, _ => judged_plain type (hj.constParam h)
  | .functionRef .., _, _, _, _ => judged_plain type (closed_functionText .level)
  | .unary .., _, h, _, hW => judged_plain type (closed_unaryText .level (judged_expr hj h hW).value)
  | .binary .., _, h, _, hW => judged_plain type (closed_binaryText .level (judged_expr hj (fst h) (left hW)).value
    (judged_expr hj (snd h) (right hW)).value)
  | .assign .., _, h, _, hW => judged_assign (judged_expr hj (fst h) (left hW)) (judged_expr hj (snd h) (right hW))
  | .range .., _, h, _, _ | .error, _, h, _, _ => judged_plain type (hj.fails fun hC => by simpa [exprKind] using h hC)
  | .cast _, _, h, htype, hW => judged_plain type (level_castText (hj.spelled (htype rfl)) (judged_expr hj h hW))
  | .call .., _, h, _, hW => judged_plain type (level_call hj span (fst h) (right hW) (level_args hj (snd h) (left hW)))
  | .field .., _, h, _, hW => judged_plain type (closed_fieldText .level (judged_expr hj h hW).value)
  | .tupleIndex .., _, h, _, hW => judged_plain type (.bind (judged_expr hj h hW).bare (.pure _))
  | .index .., _, h, _, hW => judged_index (judged_expr hj (fst h) (left hW)) (judged_expr hj (snd h) (right hW))
  | .slice .., _, h, _, hW =>
    judged_plain type (closed_sliceText .level (judged_expr hj (fst (fst h)) (left (left hW))).value
      (judged_expr hj (snd (fst h)) (right (left hW))).value (judged_expr hj (snd h) (right hW)).value)
  | .unwrap _, _, h, _, hW => judged_plain type (.bind (judged_expr hj h hW).value (.pure _))
  | .tuple _, _, h, htype, hW | .sequence _, _, h, htype, hW =>
    judged_plain type (level_sequenceText (hj.spelled (htype rfl)) (judged_all hj h hW))
  | .fill .., _, h, htype, hW =>
    judged_plain type (hj.fill (htype rfl) (judged_expr hj (fst h) (left hW)).bare (judged_expr hj (snd h) (right hW)).bare)
  | .cond .., _, h, htype, hW =>
    judged_cond (e := ⟨.cond _ _ _, type, span⟩) (hj.spelled (htype rfl)) hW
      (judged_expr hj (fst (fst h)) (left (left hW))) (judged_expr hj (snd (fst h)) (right (left hW)))
      (judged_else hj (snd h) (right hW))
  | .matchWith .., _, h, htype, hW =>
    judged_control (e := ⟨.matchWith _ _, type, span⟩) (hj.spelled (htype rfl)) hW fun dest =>
      level_matchInto (judged_expr hj (fst h) (left hW)) fun _ _ => hj.arms dest (judged_arms hj (snd h))
  | .block ⟨_, _⟩, _, h, htype, hW =>
    judged_blockExpr (e := ⟨.block _, type, span⟩) (hj.spelled (htype rfl)) _ hW (level_stmts hj (fst h))
      (judged_tail hj (snd h) (right hW))
  | .ret _, _, h, _, hW => judged_jump (hW rfl) (level_returnLines (judged_returned hj h))
  | .brk, _, _, _, hW | .cont, _, _, _, hW => judged_jump (hW rfl) level_line

theorem level_call (hj : Leaves j C p scope t) {type : TypeId} (span : Span) : ∀ {target W}, (C → callee p scope target) →
    (Jumps.callee 0 target = true → W) → (∀ a ∈ args, Level j W t a.2.value) →
      Level j W t (lowerCall target args type span)
  | .function .., _, _, _, h => closed_callFunction .level h
  | .traitMethod .., _, hcallee, _, h => hj.traitMethod hcallee h
  | .builtin _, _, _, _, h => closed_callBuiltin .level h
  | .builtinMethod _, _, _, _, h => closed_callBuiltinMethod .level h
  | .indirect _, _, hcallee, hW, h => closed_callValue .level h (judged_expr hj hcallee hW).value
  | .constructor _, _, _, _, h => closed_callConstructor .level h
  | .variant .., _, _, _, h => closed_callVariant .level h

theorem judged_all (hj : Leaves j C p scope t) : ∀ {es W}, (C → exprs p scope es) → (Jumps.exprs 0 es = true → W) →
    ∀ l ∈ lowerAll es, Judged j W t l
  | [], _, _, _ => forall_mem_nil _
  | _ :: _, _, h, hW => forall_mem_cons.2 ⟨judged_expr hj (fst h) (left hW), judged_all hj (snd h) (right hW)⟩

theorem level_args (hj : Leaves j C p scope t) : ∀ {es W}, (C → exprs p scope es) → (Jumps.exprs 0 es = true → W) →
    ∀ a ∈ lowerArgs es, Level j W t a.2.value
  | [], _, _, _ => forall_mem_nil _
  | _ :: _, _, h, hW => forall_mem_cons.2 ⟨(judged_expr hj (fst h) (left hW)).value, level_args hj (snd h) (right hW)⟩

theorem judged_else (hj : Leaves j C p scope t) : ∀ {e W}, (C → exprOption p scope e) → (Jumps.exprOption 0 e = true → W) →
    ∀ b, lowerElse e = some b → Judged j W t b.2
  | some _, _, h, hW, _, hb => by cases hb; exact judged_expr hj h hW

theorem judged_tail (hj : Leaves j C p scope t) : ∀ {e W}, (C → exprOption p scope e) → (Jumps.exprOption 0 e = true → W) →
    ∀ l, lowerTail e = some l → Judged j W t l
  | some _, _, h, hW, _, hl => by cases hl; exact judged_expr hj h hW

theorem judged_returned (hj : Leaves j C p scope t) : ∀ {e}, (C → exprOption p scope e) →
    ∀ v, lowerReturned e = some v → Judged j True t v.2
  | some _, h, _, hv => by cases hv; exact judged_expr hj h fun _ => trivial

theorem judged_arms (hj : Leaves j C p scope t) : ∀ {branches}, (C → arms p scope branches) → ∀ arm ∈ lowerArms branches,
    (C → patterns p scope arm.patterns) ∧ Judged j True t arm.body
  | [], _ => forall_mem_nil _
  | ⟨_, _⟩ :: _, h =>
    forall_mem_cons.2 ⟨⟨fst (fst h), judged_expr hj (snd (fst h)) fun _ => trivial⟩, judged_arms hj (snd h)⟩

theorem level_block (hj : Leaves j C p scope t) : ∀ {b}, (C → block p scope b) → ∀ dest, Level j True t (lowerBlock b dest)
  | ⟨_, _⟩, h, dest => level_blockContents (level_stmts hj (fst h)) (judged_tail hj (snd h) fun _ => trivial) dest

theorem level_stmts (hj : Leaves j C p scope t) : ∀ {body}, (C → stmts p scope body) → Level j True t (lowerStmts body)
  | [], _ => .pure ()
  | _ :: _, h => .bind (level_stmt hj (fst h)) (level_stmts hj (snd h))

theorem level_stmt (hj : Leaves j C p scope t) : ∀ {s}, (C → stmt p scope s) → Level j True t (lowerStmt s)
  | .letDecl _ init, h => level_letLines (hj.spelledLocal (fst h)) init (judged_expr hj (snd h) fun _ => trivial)
  | .expr _, h => (judged_expr hj h fun _ => trivial).into .discard
  | .whileLoop cond _, h => level_whileLines cond (judged_expr hj (fst h) fun _ => trivial) (level_block hj (snd h))
  | .loop _, h => level_inBraces (level_block hj h .discard)
  | .forRange _ _ _ inclusive _, h =>
    level_rangeLines (hj.spelledLocal (fst (fst (fst h)))) (judged_expr hj (snd (fst (fst h))) fun _ => trivial)
      (judged_expr hj (snd (fst h)) fun _ => trivial) inclusive (level_block hj (snd h))
  | .forEach .., h =>
    level_eachLines (hj.spelledLocal (fst (fst h))) (judged_expr hj (snd (fst h)) fun _ => trivial) (level_block hj (snd h))
  | .defer _, h => .bind level_temp (level_inBraces (level_stmt hj h))

end

end Trees

end Kite.Emission
