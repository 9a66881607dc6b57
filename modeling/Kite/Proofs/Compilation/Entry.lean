/-
The start of a compiled program. Compiling asks only for some function named `main` in the entry
unit, the emitted text calls `kite_main` without arguments, and a method or a function with generics
has another name. They meet in a program with one declaration of that name, a free function without
generics and parameters: then it is listed under the name that is called, and nothing else is.
-/
import Kite.Proofs.Instance.Complete
import Kite.Proofs.Instance.Distinct

namespace Kite

open Instance List Emission Program

variable {p q : Program} {n : Naming} {i : Instance} {decl : DefId} {f : FunctionDef} {unit : UnitId}

/-! ## Names of functions -/

/-- The name of an instance is the one of its function, in some table of types. -/
def Instance.Spelled (p : Program) (n : Naming) (i : Instance) : Prop :=
  ∃ f table, p.function? i.decl = some f ∧ f.isForeign = false ∧
    i.name = n.functionName (p.withTypes table) i.decl i.args

lemma spelled_visitPending : ∀ k {s}, Sound p s → s.naming = n →
    (∀ i ∈ s.functions, Spelled p n i) → ∀ i ∈ (visitPending bound k s).2.functions, Spelled p n i
  | 0, _, _, _, h => h
  | k + 1, s, hsound, hnaming, h => by
    cases hpending : s.pending with
    | nil => rw [visitPending_nil hpending]; exact h
    | cons r rest =>
      obtain ⟨hforeign, hrest⟩ := forall_mem_cons.1 (hpending ▸ hsound.pending)
      have hpopped : Sound p { s with pending := rest } := ⟨hsound.program, hsound.types, hrest⟩
      have hsame : s.program.function? r.1 = p.function? r.1 := by rw [hsound.program]; rfl
      rw [visitPending_cons hpending]
      cases hf : p.function? r.1 with
      | none =>
        rw [visit_of_none (s := { s with pending := rest }) (hsame.trans hf)]
        exact spelled_visitPending k hpopped hnaming h
      | some f =>
        rw [visit_of_function (s := { s with pending := rest }) (hsame.trans hf)]
        have hkept := (exploring_explore bound f (bindings f.generics r.2) { s with pending := rest }).kept (p := p)
        generalize (explore bound f (bindings f.generics r.2) { s with pending := rest }).2 = now at hkept ⊢
        have hnow := hkept.sound hpopped
        refine spelled_visitPending k ⟨hnow.program, hnow.types, hnow.pending⟩ (hkept.naming.trans hnaming) fun i hi => ?_
        -- The new function is named in the table that exploring it has made.
        rcases Array.mem_push.1 hi with hi | rfl
        · exact h i (hkept.functions ▸ hi)
        · refine ⟨f, now.program.types, hf, by simpa [hf] using hforeign, ?_⟩
          rw [← hnow.program, ← hnaming, ← hkept.naming]

lemma spelled_collected
    (h : collectInstances p entry = some (instances, q)) (hi : i ∈ instances.functions) : Spelled p { entry } i := by
  obtain ⟨bound, _, rfl, -, rfl, -⟩ := collectInstances_ended h
  have hstart : Exploring ((range p.defs.size).forM fun i => addRoot bound ⟨i⟩) :=
    .forM (fun _ => exploring_addRoot) _
  have hkept := (hstart { program := p, naming := { entry } }).kept (p := p)
  refine spelled_visitPending bound (hkept.sound ⟨rfl, nofun, nofun⟩) hkept.naming (fun i hi => ?_) i
    (Search.mem_functions.1 hi)
  rw [hkept.functions] at hi
  exact absurd hi (Array.not_mem_empty i)

lemma eq_start_of_withArgs {name : String} {args : List String} (h : Naming.withArgs name args = Naming.start) :
    name = Naming.start ∧ args = [] := by
  cases args with
  | nil => exact ⟨by simpa [Naming.withArgs] using h, rfl⟩
  | cons arg args =>
    have hlength := congrArg (fun name => (segments name).length) h
    have hname : 0 < (segments name).length := length_pos_of_ne_nil segments_ne_nil
    have harg : 0 < (segments arg).length := length_pos_of_ne_nil segments_ne_nil
    have hstart : (segments Naming.start).length = 2 := by decide
    simp only [segments_withArgs, hstart, length_append, flatMap_cons, length_cons] at hlength
    omega

lemma eq_main_of_joined (h : a ++ "_" ++ b = Naming.start) : b = "main" := by
  have hseg := congrArg segments h
  rw [segments_joined, show segments Naming.start = ["kite".toList, "main".toList] by decide] at hseg
  obtain ⟨word, words, ha⟩ : ∃ word words, segments a = word :: words := exists_cons_of_ne_nil segments_ne_nil
  rw [ha] at hseg
  obtain ⟨-, hseg⟩ := cons.inj hseg
  cases words with
  | nil => exact eq_of_segments_eq (hseg.trans (by decide))
  | cons => exact absurd (append_eq_nil_iff.1 (cons.inj hseg).2).2 segments_ne_nil

lemma escapeIdent_ne_start {name : String} : escapeIdent name ≠ Naming.start := by
  unfold escapeIdent
  split
  · intro h
    rw [← String.append_empty (s := name ++ "_")] at h
    exact absurd (eq_main_of_joined h) (by decide)
  · rename_i hname
    rintro rfl
    exact hname (by decide +kernel)

lemma Instance.Spelled.main (h : Spelled p n i) (hname : i.name = Naming.start) : p.defName i.decl = "main" ∧
    ∀ f, p.function? i.decl = some f → f.owner = none → i.args = [] := by
  obtain ⟨f, table, hf, hforeign, hspelled⟩ := h
  have hf' : (p.withTypes table).function? i.decl = some f := hf
  rw [hname, Naming.functionName, hf'] at hspelled
  dsimp only at hspelled
  rw [if_neg (by simp [hforeign])] at hspelled
  split at hspelled
  · rename_i impl himpl
    refine ⟨eq_main_of_joined (eq_start_of_withArgs hspelled.symm).1, fun g hg howner => ?_⟩
    cases hf.symm.trans hg
    rw [howner] at himpl
    cases himpl
  · obtain ⟨hbase, hargs⟩ := eq_start_of_withArgs hspelled.symm
    refine ⟨?_, fun _ _ _ => map_eq_nil_iff.1 hargs⟩
    unfold Naming.base at hbase
    dsimp only at hbase
    split at hbase
    · split at hbase
      · rename_i hmain
        exact eq_of_beq (Bool.and_eq_true_iff.1 hmain).1
      · exact absurd hbase escapeIdent_ne_start
    · exact eq_main_of_joined hbase

/-! ## Compiling -/

/-- Whether a declaration is the only one named `main`: a free function of the unit, without generics
and parameters, which is defined there. -/
def Program.startsAt (p : Program) (unit : UnitId) (decl : DefId) : Bool :=
  isGiven p (p.getDef decl) && (p.getDef decl).unit == unit && p.defName decl == "main" &&
    (p.function? decl).any (fun f => f.owner.isNone && f.generics.isEmpty && f.paramTypes.isEmpty && !f.isForeign) &&
    (range p.defs.size).all fun index => p.defName ⟨index⟩ != "main" || index == decl.index

lemma lt_of_defName (h : p.defName decl ≠ "") : decl.index < p.defs.size := by
  refine Decidable.byContradiction fun hge => h ?_
  rw [defName, getDef_eq_default (Nat.le_of_not_lt hge)]
  rfl

lemma mainFunction?_of_only (hhas : hasMain p unit) (honly : ∀ other, p.defName other = "main" → other = decl) :
    mainFunction? p unit = p.function? decl := by
  unfold hasMain at hhas
  unfold mainFunction?
  cases hinfo : p.units[unit.index]? with
  | none => rw [hinfo] at hhas; cases hhas
  | some info =>
    rw [hinfo] at hhas
    dsimp only [Option.bind_some, bind] at hhas ⊢
    cases hfind : info.defs.toList.find? (p.defName · == "main") with
    | none =>
      obtain ⟨other, hother, hmain⟩ := Array.any_eq_true'.1 hhas
      have hno := find?_eq_none.1 hfind other (Array.mem_toList_iff.2 hother)
      exact absurd (Bool.and_eq_true_iff.1 hmain).1 hno
    | some other =>
      have hother := find?_some hfind
      rw [honly other (by simpa using hother)]
      rfl

/-- A program that compiles lists exactly one function under the name that its start calls, if the
declaration named `main` is one that can be called so; and that is the function the start looks for. -/
theorem start_calls_main {units : List SourceUnit} {entry : String} {options : CompileOptions} {c : Compiled}
    (hrun : compile units entry options = .ok c) (hsuccess : c.success) (hmain : options.emitMain)
    (hchecked : checkedEntry units entry options = .ok (p, unit)) (hstart : p.startsAt unit decl) :
    ∃ instances q f, collectInstances p unit = some (instances, q) ∧
      instances.functions.filter (·.name == Naming.start) = [⟨decl, [], Naming.start⟩] ∧
      Emission.mainFunction? q unit = some f ∧ p.function? decl = some f ∧ f.paramTypes = [] := by
  unfold Compiled.success Compiled.text? at hsuccess
  obtain ⟨-, houtput⟩ | ⟨hhas, houtput⟩ := reported_or_generated hrun hchecked
  · rw [houtput] at hsuccess; cases hsuccess
  rw [houtput, Emission.generate] at hsuccess
  cases hcollect : collectInstances p unit with
  | none => rw [hcollect] at hsuccess; cases hsuccess
  | some found =>
    obtain ⟨instances, q⟩ := found
    have hcomplete := complete_collected hcollect
    simp only [Program.startsAt, Bool.and_eq_true, Option.any_eq_true, all_eq_true, beq_iff_eq] at hstart
    obtain ⟨⟨⟨⟨hgiven, hunit⟩, hname⟩, f, hf, ⟨⟨howner, hgenerics⟩, hparams⟩, hforeign⟩, honly⟩ := hstart
    have honly (other : DefId) (h : p.defName other = "main") : other = decl := by
      have := honly other.index (mem_range.2 (lt_of_defName (by simp [h])))
      cases other
      cases decl
      simpa [h] using this
    have hlists : instances.Lists (.function decl []) := by
      have hkind : (p.getDef decl).kind = .function f := by
        unfold Program.function? at hf
        split at hf <;> cases hf
        assumption
      have hcallee : callee p decl [] = .function decl [] := by simp_all [callee]
      exact hcallee ▸ hcomplete.roots decl (lt_of_defName (by simp [hname])) (.call decl [])
        (by simp [root?, hgiven, hkind, hgenerics, hforeign]) _ rfl
    obtain ⟨i, hi, hkey⟩ := mem_map.1 hlists
    have hall : ∀ j ∈ instances.functions.filter (·.name == Naming.start), j = ⟨decl, [], Naming.start⟩ := by
      intro j hj
      obtain ⟨hj, hstart⟩ := mem_filter.1 hj
      obtain ⟨hdecl, hargs⟩ := (spelled_collected hcollect hj).main (eq_of_beq hstart)
      obtain ⟨d, args, name⟩ := j
      cases honly d hdecl
      cases (show args = [] from hargs f hf (Option.isNone_iff_eq_none.1 howner))
      cases (show name = Naming.start from eq_of_beq hstart)
      rfl
    have hmem : i ∈ instances.functions.filter (·.name == Naming.start) := by
      obtain ⟨d, args, name⟩ := i
      cases hkey
      obtain ⟨_, table, hf', -, hspelled⟩ := spelled_collected hcollect hi
      cases hf.symm.trans hf'
      have hf : (p.withTypes table).function? d = some f := hf
      have hunit : ((p.withTypes table).getDef d).unit = unit := hunit
      have hname : ((p.withTypes table).getDef d).name = "main" := hname
      refine mem_filter.2 ⟨hi, beq_iff_eq.2 (hspelled.trans ?_)⟩
      simp only [Bool.not_eq_true', Option.isNone_iff_eq_none] at hforeign howner
      simp [Naming.functionName, Naming.withArgs, Naming.base, hf, hforeign, howner, hunit, hname]
    have hnodup := (hcomplete.once.of_map _).filter (·.name == Naming.start)
    have hcopies := eq_replicate_of_mem hall
    refine ⟨instances, q, f, rfl, ?_, ?_, hf, by simpa using hparams⟩
    · rw [hcopies] at hnodup hmem ⊢
      have hle := nodup_replicate.1 hnodup
      have hpos := (mem_replicate.1 hmem).1
      rw [show length _ = 1 by omega]
      rfl
    · rw [hcomplete.program]
      exact (mainFunction?_of_only (hhas hmain) honly).trans hf

/-- Whether a compilation succeeds, with a start in its program. -/
def starts : Except ToolError Compiled → Except ToolError (Program × UnitId) → Bool
  | .ok c, .ok (p, unit) => c.success && (range p.defs.size).any (p.startsAt unit ⟨·⟩)
  | _, _ => false

/-- A unit whose only function has nothing to do. -/
def idleUnits (generics : String) : List SourceUnit := [⟨"main", "function main" ++ generics ++ "() \x7b \x7d"⟩]

set_option maxRecDepth 100000

lemma starts_idle : starts (compile (idleUnits "") "main" { library := .none })
    (checkedEntry (idleUnits "") "main" { library := .none }) = true := by
  decide +kernel

theorem start_calls_main_idle : ∃ p unit decl instances q f,
    checkedEntry (idleUnits "") "main" { library := .none } = .ok (p, unit) ∧
      collectInstances p unit = some (instances, q) ∧
      instances.functions.filter (·.name == Naming.start) = [⟨decl, [], Naming.start⟩] ∧
      Emission.mainFunction? q unit = some f ∧ p.function? decl = some f ∧ f.paramTypes = [] := by
  have hstarts := starts_idle
  unfold starts at hstarts
  split at hstarts
  · rename_i c p unit hrun hchecked
    obtain ⟨hsuccess, hstart⟩ := Bool.and_eq_true_iff.1 hstarts
    obtain ⟨index, -, hstart⟩ := any_eq_true.1 hstart
    obtain ⟨instances, q, f, hcalled⟩ := start_calls_main hrun hsuccess rfl hchecked hstart
    exact ⟨p, unit, ⟨index⟩, instances, q, f, hchecked, hcalled⟩
  · cases hstarts

/-- With generics it is never listed, but compiling succeeds and the start calls it. -/
theorem start_of_generic_main : (compile (idleUnits "<T>") "main" { library := .none }).toOption.map (·.success) = some true ∧
    ((checkedEntry (idleUnits "<T>") "main" { library := .none }).toOption.bind fun checked =>
      (collectInstances checked.1 checked.2).map (·.1.functions.length)) = some 0 := by
  decide +kernel

end Kite
