/-
What an assignment may write to. A target is a local or a path of fields, items and elements that
begins at one. What can be written through a local that is not mutable is behind a handle: a mutable
view, a raw pointer or an object of a class, somewhere on the path.

The handle may stand at the end of the path, as the type of the target itself. So a local with such
a type can be assigned to whether it is mutable or not.
-/
import Kite.Compilation.Analysis
import Mathlib.Tactic.Lemma

namespace Kite

/-- Types whose values lead to something else that can be written to. -/
def Program.isHandle (p : Program) (type : TypeId) : Bool :=
  match p.types.shape type with
  | .view true _ | .raw _ => true
  | .named decl _ _ => p.isClass decl
  | _ => false

namespace Typed

/-- The expression is a path that begins at the local, over values of these types; the last first. -/
inductive Expr.Path (id : LocalId) : Expr → List TypeId → Prop where
  | var {type : TypeId} {span : Span} : Path id ⟨.var id, type, span⟩ []
  | field {base : Expr} {types : List TypeId} {index : Nat} {name : String} {type : TypeId} {span : Span}
    (h : Path id base types) : Path id ⟨.field base index name, type, span⟩ (base.type :: types)
  | item {base : Expr} {types : List TypeId} {index : Nat} {type : TypeId} {span : Span} (h : Path id base types) :
    Path id ⟨.tupleIndex base index, type, span⟩ (base.type :: types)
  | element {base index : Expr} {types : List TypeId} {type : TypeId} {span : Span} (h : Path id base types) :
    Path id ⟨.index base index, type, span⟩ (base.type :: types)

end Typed

namespace Check

variable {p : Program} {state : BodyState} {target : Typed.Expr} {id : LocalId} {types : List TypeId}

lemma placeThrough_writable {type : TypeId} (h : placeThrough p type own = .writable) :
    p.isHandle type ∨ own = .writable := by
  unfold placeThrough at h
  rw [Program.isHandle]
  split at h
  case h_3 => cases h
  case h_4 hshape =>
    rw [hshape]
    split at h
    · exact .inl ‹_›
    · exact .inr h
  case h_5 => exact .inr h
  all_goals
    rename_i hshape
    rw [hshape]
    exact .inl rfl

/-- A path whose place is writable begins at a mutable local or leads over a handle. -/
lemma placeOf_writable (hpath : target.Path id types) (h : placeOf p state target = .writable) :
    (state.locals.getD id.index default).isMut ∨ ∃ type ∈ types, p.isHandle type := by
  have hstep {base : Typed.Expr} {types : List TypeId}
      (ih : placeOf p state base = .writable → (state.locals.getD id.index default).isMut ∨ ∃ type ∈ types, p.isHandle type)
      (h : placeThrough p base.type (placeOf p state base) = .writable) :
      (state.locals.getD id.index default).isMut ∨ ∃ type ∈ base.type :: types, p.isHandle type := by
    rcases placeThrough_writable h with hhandle | hown
    · exact .inr ⟨_, .head _, hhandle⟩
    · exact (ih hown).imp_right fun ⟨type, hmem, hhandle⟩ => ⟨type, .tail _ hmem, hhandle⟩
  induction hpath with
  | var =>
    simp only [placeOf, placeOfKind] at h
    split at h
    · exact .inl ‹_›
    · split at h <;> cases h
  | field _ ih => exact hstep ih (by simpa only [placeOf, placeOfKind] using h)
  | item _ ih => exact hstep ih (by simpa only [placeOf, placeOfKind] using h)
  | element _ ih => exact hstep ih (by simpa only [placeOf, placeOfKind] using h)

lemma hasErrors_report (span : Span) (problem : Problem) (c : Checker) :
    hasErrors (report span problem c).2.diagnostics.toList := by
  change hasErrors (c.diagnostics.push _).toList
  rw [Array.toList_push, hasErrors, List.any_append]
  exact Bool.or_true _

/-- If the program has no error after the target was looked at, the place of the target is writable. -/
def Allows (target : Typed.Expr) (b : BodyState) (c : Checker) (x : BodyM Bool) : Prop :=
  ∃ r c', x b c = ((r, b), c') ∧ c'.program = c.program ∧
    (hasErrors c'.diagnostics.toList = false → target.type = .error ∨ c.program.isHandle target.type ∨
      placeOf c.program b target = .writable)

variable {b : BodyState} {c : Checker} {action : String}

namespace Allows

lemma pure (h : target.type = .error ∨ c.program.isHandle target.type ∨ placeOf c.program b target = .writable) :
    Allows target b c (pure r) :=
  ⟨r, c, rfl, rfl, fun _ => h⟩

lemma report : Allows target b c (do report span problem; return r) := by
  refine ⟨r, (Check.report span problem c).2, rfl, rfl, fun hclean => ?_⟩
  rw [hasErrors_report] at hclean
  cases hclean

lemma program_bind {f : Program → BodyM Bool} (h : Allows target b c (f c.program)) :
    Allows target b c (do f (← program)) := h

lemma get_bind {f : BodyState → BodyM Bool} (h : Allows target b c (f b)) : Allows target b c (do f (← get)) := h

lemma requireMutable : Allows target b c (requireMutable target action) := by
  unfold Check.requireMutable
  split
  · exact pure (.inl (beq_iff_eq.1 ‹_›))
  · refine program_bind (get_bind ?_)
    split
    · exact pure (.inr (.inr ‹_›))
    · exact report
    · exact report

lemma requireMutableThrough : Allows target b c (requireMutableThrough target action) := by
  refine program_bind ?_
  have hhandle := Program.isHandle.eq_1 c.program target.type
  split
  case h_3 => exact report
  case h_4 hshape =>
    rw [hshape] at hhandle
    split
    · exact pure (.inr (.inl (hhandle.trans ‹_›)))
    · exact requireMutable
  case h_5 => exact requireMutable
  all_goals
    rename_i hshape
    rw [hshape] at hhandle
    exact pure (.inr (.inl hhandle))

end Allows

/-- An assignment, plain or compound, whose target begins at a local: if it leaves no error then the
local is mutable, or the target is behind a handle or is one itself, or it is what was left of an
operand whose type is unknown. -/
theorem assignExpr_writes (op : Option BinaryOp) (name : Option Ident) (target : ExprCheck) (targetSpan : Span)
    (value : ExprCheck) (span : Span) (b : BodyState) (c : Checker) : ∃ written assigned b' c',
    assignExpr op name target targetSpan value span b c = ((⟨.assign op written assigned, .void, span⟩, b'), c') ∧
      ∀ id types, written.Path id types → hasErrors c'.diagnostics.toList = false →
        (b'.locals.getD id.index default).isMut ∨ written.type = .error ∨
          ∃ type ∈ written.type :: types, c'.program.isHandle type := by
  rcases htarget : assignTarget name target targetSpan b c with ⟨⟨written, b₁⟩, c₁⟩
  rcases hvalue : assignedValue op written.type value span b₁ c₁ with ⟨⟨assigned, b₂⟩, c₂⟩
  have hthrough : Allows written b₂ c₂ (requireMutableThrough written "assignment to") := .requireMutableThrough
  obtain ⟨r, c', hrun, hprogram, hallows⟩ := hthrough
  have hassign : ∃ b', assignExpr op name target targetSpan value span b c =
      ((⟨.assign op written assigned, .void, span⟩, b'), c') ∧ b'.locals = b₂.locals := by
    simp only [assignExpr, bind, StateT.bind, htarget, hvalue, hrun]
    generalize Typed.Expr.mk (.assign op written assigned) .void span = result
    rcases r with _ | _
    · exact ⟨_, rfl, rfl⟩
    · rcases op with _ | op
      · cases written.kind <;> exact ⟨_, rfl, rfl⟩
      · exact ⟨_, rfl, rfl⟩
  obtain ⟨b', hassign, hlocals⟩ := hassign
  refine ⟨written, assigned, b', c', hassign, fun id types hpath hclean => ?_⟩
  rw [hlocals, hprogram]
  rcases hallows hclean with herror | hhandle | hplace
  · exact .inr (.inl herror)
  · exact .inr (.inr ⟨_, .head _, hhandle⟩)
  · rcases placeOf_writable hpath hplace with hmut | ⟨type, hmem, hhandle⟩
    · exact .inl hmut
    · exact .inr (.inr ⟨type, .tail _ hmem, hhandle⟩)

/-- A parameter that is a mutable view is assigned to as a whole. -/
def rebound : Checker :=
  checkInOrder [⟨"main", parseUnit ⟨0⟩ "function f(a: &mut i64, b: &mut i64) \x7b a = b; \x7d" 256, false⟩] [0] {}

/-- The local that the only statement of a body assigns to. -/
def assignedLocal (body : Typed.Body) : Option Typed.Local :=
  match body.expr.kind with
  | .block ⟨[.expr ⟨.assign none ⟨.var id, _, _⟩ _, _, _⟩], _⟩ => body.locals[id.index]?
  | _ => none

theorem immutable_local_rebound : hasErrors rebound.diagnostics.toList = false ∧
    (((rebound.program.function? ⟨0⟩).bind (·.body)).bind assignedLocal).map (fun x => (x.name, x.isMut)) =
      some ("a", false) := by
  decide +kernel

end Check

end Kite
