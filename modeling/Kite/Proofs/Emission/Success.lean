/-
A program whose reached declarations pass their checks is emitted: when compiling reports no error,
there is a text and no failure. The check is of the declarations, and not of the instances, of which
there may be many for each. Without it the statement fails: an operand that does not come back can
leave a node in the checked tree that stands for something wrong though nothing was reported.
-/
import Kite.Compilation.Compile
import Kite.Proofs.Emission.Members

namespace Kite.Emission

open TypeTable Bool Program

variable {p : Program} {cx : Context} {table : TypeTable} {f : FunctionDef} {decl : DefId} {x : EmitM α} {i : Instance}
  {scope : Typed.Emittable.Scope}

/-! ## Functions -/

lemma total_withReader {f : Context → Context} (h : Total p (f cx) table x) : Total p cx table (withReader f x) := h

lemma total_paramTexts (hin : Inside p table scope cx)
    (h : ∀ id ∈ Instance.signatureTypes f, p.isProper scope.generics id) : Total p cx table (paramTexts f) := by
  have hparams : Total p cx table (f.paramTypes.mapM bodyTypeText) :=
    closed_mapM total_closed fun id hid => hin.total_bodyTypeText (h id (by simp [Instance.signatureTypes, hid]))
  unfold paramTexts
  split
  · rename_i type _ hself
    have htype := h type (by simp [Instance.signatureTypes, hself])
    exact (hin.total_bodyTypeText htype).bind <| hparams.bind <| .pure _
  · exact hparams.bind <| .pure _

lemma total_signature (hin : Inside p table scope cx)
    (h : ∀ id ∈ Instance.signatureTypes f, p.isProper scope.generics id) :
    Total p cx table (signature name f names) := by
  have hresult : p.isProper scope.generics f.result = true := h _ (by simp [Instance.signatureTypes])
  exact (hin.total_bodyTypeText hresult).bind <| (total_paramTexts hin h).bind <| .pure _

/-- Emission inside an instance at arguments that leave nothing open. -/
lemma total_withInstance (hf : p.function? i.decl = some f)
    (h : Total p { cx with bindings := bindings f.generics i.args } table x) :
    Total p cx table (withInstance i x) := by
  refine total_program_bind fun now => ?_
  have hbindings : i.bindings (p.withTypes now) = bindings f.generics i.args := by
    unfold Instance.bindings
    rw [show (p.withTypes now).function? i.decl = p.function? i.decl from rfl, hf]
  rw [hbindings]
  exact h

def Outside (cx : Context) : Prop := cx.bindings = [] ∧ cx.localTypes = #[]

lemma inside_of_outside (hle : p.types ≤ table) (hcx : Outside cx) : Inside p table ⟨[], #[]⟩ cx where
  le := hle
  args := ⟨[], hcx.1, rfl, fun _ _ h => nomatch h⟩
  locals := hcx.2.trans (by simp)

lemma total_emitForeign (hle : p.types ≤ table) (hcx : Outside cx)
    (h : p.emittableForeign decl) : Total p cx table (emitForeign decl) := by
  refine total_program_bind fun now => ?_
  rw [show (p.withTypes now).function? decl = p.function? decl from rfl]
  unfold emittableForeign at h
  cases hf : p.function? decl with
  | none => exact .pure ()
  | some f =>
    rw [hf, List.all_eq_true] at h
    exact (total_signature (inside_of_outside hle hcx) h).bind <| total_line

lemma total_emitPrototype (hle : p.types ≤ table) (hcx : Outside cx) (hargs : Instance.Callable p table i.decl i.args)
    (h : p.emittableFunction i.decl) : Total p cx table (emitPrototype i) := by
  refine total_program_bind fun now => ?_
  rw [show (p.withTypes now).function? i.decl = p.function? i.decl from rfl]
  unfold emittableFunction at h
  cases hf : p.function? i.decl with
  | none => exact .pure ()
  | some f =>
    rw [hf, and_eq_true, List.all_eq_true] at h
    have hin : Inside p table ⟨f.generics, #[]⟩ { cx with bindings := bindings f.generics i.args } :=
      ⟨hle, ⟨i.args, rfl, hargs f hf⟩, hcx.2.trans (by simp)⟩
    refine total_withInstance hf ?_
    exact (total_signature hin h.1).bind <| total_line

lemma total_emitFunction (hle : p.types ≤ table) (htargets : p.TargetsHeld)
    (hargs : Instance.Callable p table i.decl i.args) (h : p.emittableFunction i.decl) :
    Total p cx table (emitFunction i) := by
  refine total_program_bind fun now => ?_
  rw [show (p.withTypes now).function? i.decl = p.function? i.decl from rfl]
  unfold emittableFunction at h
  cases hf : p.function? i.decl with
  | none => exact .pure ()
  | some f =>
    rw [hf, and_eq_true, List.all_eq_true] at h
    dsimp only
    cases hbody : f.body with
    | none => exact .pure ()
    | some body =>
      rw [hbody] at h
      have hexpr := (and_eq_true_iff.1 h.2).2
      refine .bind (total_modify fun _ => rfl) <| total_withInstance hf (total_withReader ?_)
      have hin : Inside p table ⟨f.generics, body.locals⟩ { cx with
          bindings := bindings f.generics i.args
          localNames := (localNames body.locals.toList).toArray
          localTypes := body.locals.map (·.type) } :=
        ⟨hle, ⟨i.args, rfl, hargs f hf⟩, rfl⟩
      refine (closed_mapM total_closed fun id _ => closed_localName total_closed).bind ?_
      refine (total_signature hin h.1).bind <| total_inBraces ?_
      refine (total_concrete _).bind <| (closed_isVoidLike total_closed).bind ?_
      exact (judged_expr (hin.leaves htargets) (fun _ => hexpr) fun _ => trivial).branch _ 0

/-! ## Globals and the program -/

lemma total_emitGlobal (hle : p.types ≤ table) (h : p.emittableGlobal decl) : Total p cx table (emitGlobal decl) := by
  refine total_program.bind <| total_program_bind fun now => ?_
  rw [show (p.withTypes now).global? decl = p.global? decl from rfl]
  unfold emittableGlobal at h
  cases hg : p.global? decl with
  | none => exact .pure ()
  | some g =>
    rw [hg, and_eq_true] at h
    obtain ⟨v, hv, hsits⟩ := (Option.any_eq_true _ _).1 h.2
    have htype : Concrete p table g.type := proper_of_le hle h.1
    rw [← tree_eq_of_le hle g.type (holds_of_proper h.1)] at hsits
    refine (closed_baseName total_closed).bind ?_
    rw [hv]
    exact (total_typeText htype).bind <| (total_valueText hle htype hsits).bind <| total_line

lemma total_emitMain : Total p cx table emitMain := by
  refine total_program.bind <| total_read.bind fun {_} => ?_
  split
  · exact .pure ()
  · refine total_blank.bind <| total_inBraces ?_
    split
    · exact total_line
    · exact total_line.bind <| total_line

lemma total_paragraph {emit : α → EmitM Unit}
    (h : ∀ a ∈ items, Total p cx table (emit a)) : Total p cx table (paragraph items emit) := by
  unfold paragraph
  split
  · exact total_blank.bind <| .forM h
  · exact .pure ()

lemma total_emitProgram (hclosed : instances.Closed p q) (htargets : p.TargetsHeld) (hcx : Outside cx)
    (hfunctions : ∀ i ∈ instances.functions, p.emittableFunction i.decl)
    (htypes : ∀ id ∈ instances.types, p.emittableType (q.types.shape id))
    (hforeign : ∀ decl ∈ instances.foreign, p.emittableForeign decl)
    (hglobals : ∀ decl ∈ instances.globals, p.emittableGlobal decl) (hasMain : Bool) :
    Total p cx q.types (emitProgram instances hasMain) := by
  have hle := hclosed.le
  have hlast : Total p cx q.types (do
      paragraph instances.foreign emitForeign
      paragraph instances.functions emitPrototype
      paragraph instances.globals emitGlobal
      instances.functions.forM fun i => do
        blank
        emitFunction i
      if hasMain then emitMain) := by
    refine (total_paragraph fun decl hdecl => total_emitForeign hle hcx (hforeign decl hdecl)).bind ?_
    refine (total_paragraph fun i hi => total_emitPrototype hle hcx (hclosed.functions i hi)
      (hfunctions i hi)).bind ?_
    refine (total_paragraph fun decl hdecl => total_emitGlobal hle (hglobals decl hdecl)).bind ?_
    refine .bind (.forM fun i hi => total_blank.bind <|
      total_emitFunction hle htargets (hclosed.functions i hi) (hfunctions i hi)) ?_
    split
    · exact total_emitMain
    · exact .pure ()
  refine total_line.bind <| (total_write _).bind ?_
  dsimp only
  split
  · refine total_blank.bind <| .bind (total_defineTypes hle fun id hid => ?_) hlast
    exact ⟨hclosed.types id hid, htypes id hid⟩
  · exact hlast

end Kite.Emission

namespace Kite

open List Bool

variable {units : List LoadedUnit} {p : Program} {entry : UnitId}

lemma targetsHeld_of_emittable (h : p.impls.all (fun impl => impl.target.index < p.types.size)) : p.TargetsHeld := by
  rw [← Array.all_toList, all_eq_true] at h
  exact fun impl himpl => of_decide_eq_true (h impl himpl)

/-- A checked program that passes the checks is emitted. -/
lemma generate_of_emittable (h : p.emittable entry)
    (hasMain : Bool) : ∃ text, Emission.generate p entry hasMain = .ok text := by
  unfold Program.emittable at h
  split at h
  · rename_i instances q hrun
    simp only [and_eq_true, all_eq_true] at h
    obtain ⟨⟨⟨⟨hfunctions, htypes⟩, hforeign⟩, hglobals⟩, himpls⟩ := h
    have htargets := targetsHeld_of_emittable himpls
    have hclosed := collectInstances_closed hrun hfunctions htypes hglobals htargets
    have hcx : Emission.Outside { naming := { entry } } := ⟨rfl, rfl⟩
    have htotal := Emission.total_emitProgram hclosed htargets hcx hfunctions htypes hforeign hglobals hasMain
    obtain ⟨_, stop, hstop, -⟩ := htotal { program := q } hclosed.program le_rfl
    refine ⟨stop.out.text, ?_⟩
    unfold Emission.generate
    rw [hrun]
    show (Emission.emitProgram instances hasMain { naming := { entry } } { program := q } >>= _) = _
    rw [hstop]
    rfl
  · cases h

/-! ## Reports -/

lemma isError_foldl {f : Diagnostic → α → Diagnostic} (hf : ∀ d a, (f d a).isError = d.isError) :
    ∀ (l : List α) (d : Diagnostic), (l.foldl f d).isError = d.isError
  | [], _ => rfl
  | a :: l, d => by rw [foldl_cons, isError_foldl hf l, hf]

lemma isError_cycleReport : (ImportOrder.cycleReport units edges cycle).isError := by
  refine (isError_foldl ?_ _ _).trans rfl
  rintro d ⟨source, target⟩
  rfl

lemma isError_of_mem_importOrder (h : d ∈ (importOrder units).2) : d.isError := by
  unfold importOrder at h
  rcases mem_append.1 h with h | h
  · obtain ⟨_, -, rfl⟩ := mem_map.1 h
    rfl
  · obtain ⟨cycle, -, rfl⟩ := mem_map.1 h
    exact isError_cycleReport

lemma hasErrors_sortDiagnostics : hasErrors (sortDiagnostics ds) = hasErrors ds := by
  unfold hasErrors sortDiagnostics
  rw [Bool.eq_iff_iff, any_eq_true, any_eq_true]
  simp only [mem_mergeSort]

/-! ## Compiling -/

def checkedEntry (units : List SourceUnit) (entry : String) (options : CompileOptions) :
    Except ToolError (Program × UnitId) := do
  let frontend ← loadUnits units options
  let checker := checkInOrder frontend.units (importOrder frontend.units).1 options.limits
  match checker.unitId? entry with
  | some unit => return (checker.program, unit)
  | none => throw (.unknownEntry entry)

lemma reported_or_generated {units : List SourceUnit} {entry : String} (hrun : compile units entry options = .ok c)
    (hchecked : checkedEntry units entry options = .ok (p, unit)) : hasErrors c.diagnostics ∧ c.output = none ∨
    (options.emitMain → hasMain p unit) ∧ c.output = some (Emission.generate p unit options.emitMain) := by
  unfold compile at hrun
  unfold checkedEntry at hchecked
  cases hload : loadUnits units options with
  | error e => rw [hload] at hchecked; cases hchecked
  | ok frontend =>
    rw [hload] at hrun hchecked
    simp only [bind, Except.bind] at hrun hchecked
    generalize checkInOrder frontend.units (importOrder frontend.units).1 options.limits = checker at hrun hchecked
    cases hunit : checker.unitId? entry with
    | none => rw [hunit] at hchecked; cases hchecked
    | some found =>
      rw [hunit] at hrun hchecked
      cases hchecked
      split at hrun
      · cases hrun
      · split at hrun <;> cases hrun
        · rename_i hcycle
          obtain ⟨d, hd, -⟩ := any_eq_true.1 hcycle
          refine .inl ⟨?_, rfl⟩
          rw [hasErrors_sortDiagnostics]
          exact any_eq_true.2 ⟨d, mem_append_right _ hd, isError_of_mem_importOrder hd⟩
        · generalize hstart : (if options.emitMain then _ else [] : List Diagnostic) = start
          split
          · exact .inl ⟨‹_›, rfl⟩
          · rename_i hclean
            refine .inr ⟨fun hmain => Bool.of_not_eq_false fun hhas => hclean ?_, rfl⟩
            rw [if_pos hmain, entryReports, hhas] at hstart
            rw [← hstart, hasErrors_sortDiagnostics, hasErrors, any_append]
            exact Bool.or_true _

/-- If compiling reports no error and all that the entry unit reaches passes its checks, there is a
text and no failure. -/
theorem compile_emits {units : List SourceUnit} {entry : String} {options : CompileOptions} {c : Compiled}
    {p : Program} {unit : UnitId} (hrun : compile units entry options = .ok c)
    (hclean : hasErrors c.diagnostics = false) (hchecked : checkedEntry units entry options = .ok (p, unit))
    (hemit : p.emittable unit = true) : c.failure? = none ∧ c.text?.isSome = true ∧ c.success = true := by
  rcases reported_or_generated hrun hchecked with ⟨herrors, -⟩ | ⟨-, houtput⟩
  · rw [hclean] at herrors
    cases herrors
  · obtain ⟨text, htext⟩ := generate_of_emittable hemit options.emitMain
    unfold Compiled.success Compiled.text? Compiled.failure?
    rw [houtput, htext]
    exact ⟨rfl, rfl, rfl⟩

def Instance.Search.emittable (s : Search) (p : Program) : Bool :=
  !s.exhausted && s.functions.all (fun i => p.emittableFunction i.decl) &&
    s.types.all (fun id => p.emittableType (s.program.types.shape id)) &&
    s.foreign.all p.emittableForeign && s.globals.all p.emittableGlobal &&
    p.impls.all fun impl => impl.target.index < p.types.size

lemma emittable_of_search (h : (firstSearch p entry).emittable p) : p.emittable entry := by
  unfold Instance.Search.emittable at h
  simp only [and_eq_true, ← Array.all_toList, all_eq_true, not_eq_true'] at h
  obtain ⟨⟨⟨⟨⟨hends, hfunctions⟩, htypes⟩, hforeign⟩, hglobals⟩, himpls⟩ := h
  unfold Program.emittable
  rw [collectInstances_of_first hends]
  simp only [Instance.Search.instances, and_eq_true, ← Array.all_toList, all_eq_true, mem_mergeSort,
    Instance.mem_sortByName]
  exact ⟨⟨⟨⟨hfunctions, htypes⟩, hforeign⟩, hglobals⟩, himpls⟩

/-- Whether a compilation without errors has a program that passes its checks. -/
def passes : Except ToolError Compiled → Except ToolError (Program × UnitId) → Bool
  | .ok c, .ok (p, entry) => !hasErrors c.diagnostics &&
      (firstSearch p entry).emittable p
  | _, _ => false

/-- A method called through the bound of a generic function. -/
def boundedSource : String :=
  "trait S \x7b function s(this) -> i64; \x7d impl S for i64 \x7b function s(this) -> i64 \x7b this \x7d \x7d " ++
  "function f<T: S>(x: T) -> i64 \x7b x.s() \x7d function main() \x7b f(3); \x7d"

set_option maxRecDepth 100000

theorem compile_emits_bounded :
    ∃ c, compile [⟨"main", boundedSource⟩] "main" { library := .none } = .ok c ∧
      hasErrors c.diagnostics = false ∧ c.failure? = none ∧ c.text?.isSome = true ∧
      c.success = true := by
  have hpasses : passes (compile [⟨"main", boundedSource⟩] "main" { library := .none })
      (checkedEntry [⟨"main", boundedSource⟩] "main" { library := .none }) = true := by
    decide +kernel
  unfold passes at hpasses
  split at hpasses
  · rename_i c p entry hrun hchecked
    rw [and_eq_true, not_eq_true'] at hpasses
    exact ⟨c, hrun, hpasses.1, compile_emits hrun hpasses.1 hchecked (emittable_of_search hpasses.2)⟩
  · cases hpasses

/-- A member of what does not come back. -/
def divergingSource : String := "function main() \x7b let x = panic(\"a\").foo; \x7d"

theorem compile_fails_after_clean_check :
    ((compile [⟨"main", divergingSource⟩] "main" { library := .none }).toOption.map fun c =>
      (hasErrors c.diagnostics, c.failure?.isSome, c.text?.isSome, c.success)) =
      some (false, true, false, false) := by
  decide +kernel

end Kite
