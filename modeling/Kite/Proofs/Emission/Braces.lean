/-
The braces of emitted text. What emission writes is made of steps of the writer, and each brace that it closes is one
that it has opened itself, however the branches of conditionals and the arms of a `match` share and chain them. So the
indentation is in the end what it was, and no line in between stands further out.

The same induction on the tree says what an operand writes before the statement it stands in: the one thing that makes
a value write is control that may jump out of it.
-/
import Kite.Proofs.Emission.Trees

namespace Kite.Emission

open List

variable {span : Span} {type : TypeId}

/-! ## Steps -/

/-- How the text goes on from a writer, with the number of braces that have been opened since and are open. No other
brace is closed. -/
inductive Writes (w : Writer) : Nat → Writer → Prop where
  | start : Writes w 0 w
  | line (h : Writes w d v) : Writes w d (v.line text)
  | enter (h : Writes w d v) : Writes w (d + 1) (v.openBrace text)
  | leave (h : Writes w (d + 1) v) : Writes w d (v.closeBrace text)
  | next (h : Writes w (d + 1) v) : Writes w (d + 1) (v.nextBrace text)

lemma Writes.indent_eq (h : Writes w d v) : v.indent = w.indent + d := by
  induction h with
  | start => rfl
  | line _ ih => exact ih
  | enter _ ih => exact congrArg (· + 1) ih
  | leave _ ih => exact congrArg (· - 1) ih
  | next _ ih => exact congrArg (· - 1 + 1) ih

/-- A computation by steps of the writer: where it begins, at least `d` braces are open that it may close, and where it
ends, `d'`. Only with `W` does it write. What is captured goes to a writer of its own. -/
inductive Braced : (W : Prop) → (d : Nat) → {α : Type} → EmitM α → (d' : Nat) → Prop where
  | still {x : EmitM α} (h : ∀ {cx s a s'}, x cx s = .ok (a, s') → s'.out = s.out) : Braced W d x d
  | line (h : W) : Braced W d (line text) d
  | enter (h : W) : Braced W d (write (·.openBrace text)) (d + 1)
  | leave (h : W) : Braced W (d + 1) (write (·.closeBrace text)) d
  | next (h : W) : Braced W (d + 1) (nextBranch text) (d + 1)
  | capture (h : Braced True 0 body 0) : Braced W d (capture body) d
  | bind {x : EmitM α} {f : α → EmitM β} (h : Braced W d x k) (h' : ∀ {a}, Braced W k (f a) d') :
    Braced W d (x >>= f) d'

variable {W : Prop} {x : EmitM α} {f : α → EmitM β} {cx : Context} {s s' : Emitter}

lemma bind_ok (h : (x >>= f) cx s = .ok (b, s')) : ∃ a mid, x cx s = .ok (a, mid) ∧ f a cx mid = .ok (b, s') := by
  replace h : (x cx s >>= fun r => f r.1 cx r.2) = .ok (b, s') := h
  cases hx : x cx s with
  | error e => rw [hx] at h; cases h
  | ok r => rw [hx] at h; exact ⟨r.1, r.2, rfl, h⟩

lemma capture_out (h : capture body cx s = .ok (text, s')) : s'.out = s.out := by
  obtain ⟨outer, _, hget, hrest⟩ := bind_ok h
  obtain ⟨_, _, _, hbody⟩ := bind_ok hrest
  obtain ⟨_, _, _, hafter⟩ := bind_ok hbody
  obtain ⟨_, _, _, hback⟩ := bind_ok hafter
  obtain ⟨_, _, hset, hlast⟩ := bind_ok hback
  cases hget
  cases hset
  cases hlast
  rfl

namespace Braced

variable {d d' : Nat}

lemma mono (h : Braced W d x d') (hW : W → W') : Braced W' d x d' := by
  induction h with
  | still h => exact .still h
  | line h => exact .line (hW h)
  | enter h => exact .enter (hW h)
  | leave h => exact .leave (hW h)
  | next h => exact .next (hW h)
  | capture h => exact .capture h
  | bind _ _ ih ih' => exact .bind (ih hW) (ih' hW)

/-- Each run takes the steps of the computation. -/
lemma writes (h : Braced W d x d') : ∀ {w cx s a s'}, Writes w d s.out → x cx s = .ok (a, s') → Writes w d' s'.out := by
  induction h with
  | still h =>
    intro w cx s a s' hw hrun
    rwa [h hrun]
  | line => rintro w cx s a s' hw ⟨⟩; exact hw.line
  | enter => rintro w cx s a s' hw ⟨⟩; exact hw.enter
  | leave => rintro w cx s a s' hw ⟨⟩; exact hw.leave
  | next => rintro w cx s a s' hw ⟨⟩; exact hw.next
  | capture =>
    -- The body has been written elsewhere.
    intro w cx s a s' hw hrun
    rwa [capture_out hrun]
  | bind _ _ ih ih' =>
    intro w cx s a s' hw hrun
    obtain ⟨_, _, hx, hf⟩ := bind_ok hrun
    exact ih' (ih hw hx) hf

lemma out_eq (h : Braced W d x d') (hW : ¬W) : ∀ {cx s a s'}, x cx s = .ok (a, s') → s'.out = s.out := by
  induction h with
  | still h => exact h
  | line h | enter h | leave h | next h => exact absurd h hW
  | capture => exact capture_out
  | bind _ _ ih ih' =>
    intro cx s a s' hrun
    obtain ⟨_, _, hx, hf⟩ := bind_ok hrun
    rw [ih' hW hf, ih hW hx]

end Braced

lemma still_build {x : TypeM α} : Braced W d (build x) d := .still fun h => by cases h; rfl

/-- The rules as they keep the braces, whatever the types. -/
def braces : Judgement where
  Holds W _ d _ x d' := Braced W d x d'
  mono hW _ h := h.mono hW
  pure := .still fun h => by cases h; rfl
  bind := .bind
  context := .still fun h => by cases h; rfl
  state := .still fun h => by cases h; rfl
  concrete _ := .bind (.still fun h => by cases h; rfl) still_build
  temp := .still fun h => by cases h; rfl
  line := .line
  enter := .enter trivial
  leave := .leave trivial
  next := .next trivial
  capture := .capture

variable {t : TypeTable}

lemma level_violation : Level braces W t (violation message span : EmitM α) := fun _ => .still fun h => by cases h

lemma level_lift {x : Except ToolError α} : Level braces W t (x : EmitM α) := fun _ => .still fun h => by
  cases x with
  | error e => cases h
  | ok b => cases h; rfl

lemma level_typeText (id : TypeId) : Level braces W t (typeText id) :=
  .bind Closed.level.program <| .bind Closed.level.context level_lift

lemma spelled_concrete : Spelled braces t (concrete type) :=
  ⟨fun hf => .bind level_concrete (hf _ le_rfl (level_typeText _))⟩

lemma spelled_local {id : LocalId} : Spelled braces t (localType id) :=
  ⟨fun hf => .bind (.bind Closed.level.context level_concrete) (hf _ le_rfl (level_typeText _))⟩

/-! ## Rules that spell types or fail -/

lemma level_fillText {a b : Lowered} (ha : Level braces W t a.bare) (hb : Level braces W t b.bare) :
    Level braces W t (fillText type a b) := by
  refine .bind level_concrete <| .bind ha <| .bind level_types fun {_} => ?_
  split
  · exact .bind (level_typeText _) <| .bind (level_typeText _) (.pure _)
  · exact .bind hb <| .bind (level_typeText _) (.pure _)

lemma level_constParamText {id : ParamId} : Level braces W t (constParamText type id span) := by
  refine .bind level_concrete <| .bind level_types <| .bind Closed.level.context fun {_} => ?_
  split
  · exact .pure _
  · exact level_violation

lemma level_callTraitMethod {args : List Arg} (h : ∀ arg ∈ args, Level braces W t arg.2.value) :
    Level braces W t (callTraitMethod traitDef method type span args) := by
  refine .bind (closed_argTexts .level h) ?_
  refine .bind level_concrete <| .bind Closed.level.program fun {_} => ?_
  split
  · exact .bind (closed_functionName .level) (.pure _)
  · exact level_violation

lemma level_variantTest : Level braces W t (variantTest subject type decl index) := by
  refine .bind (closed_typeName .level) <| .bind Closed.level.program fun {_} => ?_
  split
  · exact .pure _
  · split
    · exact .pure _
    · exact .bind (.bind Closed.level.program <| .bind (fun _ => still_build) (.pure _)) (.pure _)

mutual

theorem level_patternTest : ∀ q subject type, Level braces W t (patternTest q subject type)
  | .wildcard, _, _ | .binding _, _, _ | .bool _, _, _ | .char _, _, _ | .str _, _, _ | .none, _, _ => .pure _
  | .int _, _, _ => .bind level_types (.pure _)
  | .some inner, _, _ => .bind level_types <| .bind (level_patternTest inner _ _) (.pure _)
  | .variant decl index fields, _, _ => by
    refine .bind level_variantTest fun {test} => ?_
    cases test with
    | unknown | number => exact .pure _
    | payload members => exact .bind (level_patternTests fields _ _ _) (.pure _)

theorem level_patternTests : ∀ qs members access position, Level braces W t (patternTests qs members access position)
  | [], _, _, _ | _ :: _, [], _, _ => by
    rw [patternTests]
    · exact .pure _
    · nofun
  | q :: qs, _ :: _, _, _ => .bind (level_patternTest q _ _) <| .bind (level_patternTests qs _ _ _) (.pure _)

end

lemma level_bindings : ∀ {l : List (LocalId × String)},
    Level braces True t (l.forM fun b => bindLocal b.1 b.2)
  | [] => .pure ()
  | _ :: _ => .bind (level_bindLocal spelled_local) level_bindings

/-- The first arm opens a brace and each further one exchanges it; it is closed behind the last one. -/
lemma holds_armLines (dest : Dest) : ∀ {arms : List LoweredArm} (isFirst : Bool),
    (∀ arm ∈ arms, Judged braces True t arm.body) →
      Braced True (d + (!isFirst).toNat) (armLines subject type dest arms isFirst) d
  | [], true, _ => .line trivial
  | [], false, _ => .bind (.next trivial) <| .bind (.line trivial) (.leave trivial)
  | arm :: arms, isFirst, h => by
    refine .bind (closed_mapM (Closed.level (t := t)) (fun q _ => level_patternTest q subject type) _) fun {tests} => ?_
    -- From here on the brace of the arm is open, to the end of its body.
    refine .bind (holds_armLine (j := braces) (t := t)) <| .bind (level_bindings (t := t) _) ?_
    refine .bind ((h arm (by simp)).branch dest _) fun {_} => ?_
    split
    · exact .leave trivial
    · exact holds_armLines dest false fun arm harm => h arm (by simp [harm])

/-- What a tree holds makes no difference, so it does not have to be checked. -/
lemma leaves_braces : Leaves braces False default ⟨[], #[]⟩ t where
  spelled _ := spelled_concrete
  spelledLocal _ := spelled_local
  constParam _ := level_constParamText
  fill _ := level_fillText
  traitMethod _ := level_callTraitMethod
  arms dest h _ := holds_armLines dest true fun arm harm => (h arm harm).2
  fails _ := level_violation

/-- An expression keeps the braces, and its value writes only if control may jump out of it. -/
lemma braced_expr (h : e.escapes = true → W) : Judged braces W t (lower e) :=
  judged_expr leaves_braces False.elim h

/-- A computation by steps that close only braces of their own; so each of its runs goes by such steps, and ends at the
indentation at which it began. -/
def KeepsBraces (x : EmitM α) : Prop :=
  Braced True 0 x 0 ∧ ∀ cx s a s', x cx s = .ok (a, s') → Writes s.out 0 s'.out ∧ s'.out.indent = s.out.indent

lemma Level.keepsBraces (h : Level braces True t x) : KeepsBraces x := by
  refine ⟨h 0, fun cx s a s' hrun => ?_⟩
  have hwrites : Writes s.out 0 s'.out := Braced.writes (h 0) .start hrun
  exact ⟨hwrites, hwrites.indent_eq⟩

/-- The emission of statements, and of expressions in all their uses, keeps the braces that are open. -/
theorem emission_keepsBraces (st : Typed.Stmt) (e : Typed.Expr) (dest : Dest) :
    KeepsBraces (lowerStmt st) ∧ KeepsBraces ((lower e).into dest) ∧ KeepsBraces ((lower e).branch dest) ∧
      KeepsBraces (controlValue e.type e.escapes (lower e).into) ∧ KeepsBraces (lower e).value ∧
      KeepsBraces (lower e).place := by
  have he : Judged braces True default (lower e) := braced_expr fun _ => trivial
  have hcontrol : Level braces True default (controlValue e.type e.escapes (lower e).into) :=
    level_controlValue spelled_concrete (fun _ => trivial) he.into
  have hst : Level braces True default (lowerStmt st) := level_stmt leaves_braces False.elim
  exact ⟨hst.keepsBraces, (he.into dest).keepsBraces, (he.branch dest).keepsBraces,
    hcontrol.keepsBraces, he.value.keepsBraces, he.place.keepsBraces⟩

end Kite.Emission
