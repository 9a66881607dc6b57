/-
What a search for instances records, whatever it meets: types keep their regular shapes, only named
types are recorded, no function that is defined elsewhere is visited. A function is named when it has
been explored, after its arguments came into the table.
-/
import Kite.Proofs.Emission.Closed
import Kite.Proofs.Instance.Names

namespace Kite

open TypeTable

variable {n : Naming} {s s' : Search} {shape : TypeShape}

/-! ## Regular tables -/

variable {p : Program}

lemma stable_isRegular : TypeShape.Stable (p.isRegular ·) := by
  intro shape ids h hempty
  cases shape with
  | tuple items =>
    show (!ids.isEmpty)
    rw [hempty]
    exact h
  | _ => exact h

namespace Instance

/-! ## What every step keeps -/

structure Sound (p : Program) (s : Search) : Prop where
  program : s.program = p.withTypes s.program.types
  types : ∀ id ∈ s.types, (s.program.types.shape id).isNamed
  /-- Functions that are defined elsewhere are not visited. -/
  pending : ∀ r ∈ s.pending, (p.function? r.1).any (·.isForeign) = false

lemma isNamed_of_le {a b : TypeTable} (hab : a ≤ b) {id : TypeId}
    (h : (a.shape id).isNamed) : (b.shape id).isNamed := by
  have hheld : a.Holds id := by
    refine Decidable.byContradiction fun hno => ?_
    rw [shape_of_not_holds hno] at h
    cases h
  rwa [shape_eq_of_le hab hheld]

/-- From one state to another without naming a function. -/
structure Kept (p : Program) (s s' : Search) : Prop where
  functions : s'.functions = s.functions
  naming : s'.naming = s.naming
  regular : p.Regular s.program.types → p.Regular s'.program.types
  sound : Sound p s → Sound p s'

lemma Kept.refl (s : Search) : Kept p s s := ⟨rfl, rfl, id, id⟩

lemma Explores.kept (h : Explores s s') : Kept p s s' := by
  induction h with
  | refl s => exact .refl s
  | trans _ _ h h' => exact ⟨h'.functions.trans h.functions, h'.naming.trans h.naming, h'.regular ∘ h.regular, h'.sound ∘ h.sound⟩
  | subst b id s =>
    refine ⟨rfl, rfl, TypeM.subst_all stable_isRegular b id _, fun hs => ⟨?_,
      fun other hother => isNamed_of_le (TypeM.subst_le b id _) (hs.types other hother), hs.pending⟩⟩
    show s.program.withTypes (TypeM.subst b id s.program.types).2 = p.withTypes (TypeM.subst b id s.program.types).2
    rw [hs.program]
    rfl
  | exhaust s => exact ⟨rfl, rfl, id, fun hs => ⟨hs.program, hs.types, hs.pending⟩⟩
  | @record id _ _ _ s hshape =>
    show Kept p s (if _ then (false, s) else (true, { s with types := id :: s.types })).2
    split
    · exact .refl s
    · exact ⟨rfl, rfl, fun h => h, fun hs => ⟨hs.program,
        List.forall_mem_cons.2 ⟨by rw [hshape]; rfl, hs.types⟩, hs.pending⟩⟩
  | request decl args s =>
    show Kept p s (if _ then if _ then s else _ else if _ then s else _)
    split
    · split
      · exact .refl s
      · exact ⟨rfl, rfl, id, fun hs => ⟨hs.program, hs.types, hs.pending⟩⟩
    · rename_i hforeign
      split
      · exact .refl s
      · refine ⟨rfl, rfl, id, fun hs => ⟨hs.program, hs.types, ?_⟩⟩
        have hsame : s.program.function? decl = p.function? decl := by rw [hs.program]; rfl
        rw [hsame, Bool.not_eq_true] at hforeign
        exact List.forall_mem_cons.2 ⟨hforeign, hs.pending⟩
  | addGlobal decl s => exact ⟨rfl, rfl, id, fun hs => ⟨hs.program, hs.types, hs.pending⟩⟩

/-! ## The names of functions -/

structure NamedAt (p : Program) (n : Naming) (table : TypeTable) (i : Instance) (f : FunctionDef) :
    Prop where
  le : p.types ≤ table
  regular : p.Regular table
  function : p.function? i.decl = some f
  isForeign : f.isForeign = false
  args : FitsAll p table f.generics i.args
  name : i.name = n.functionName (p.withTypes table) i.decl i.args

structure Recorded (p : Program) (n : Naming) (s : Search) : Prop where
  sound : Sound p s
  regular : p.Regular s.program.types
  naming : s.naming = n
  functions : ∀ i ∈ s.functions, ∃ table f, table ≤ s.program.types ∧ NamedAt p n table i f

lemma Recorded.explore (h : Recorded p n s) (hexplores : Explores s s') : Recorded p n s' where
  sound := hexplores.kept.sound h.sound
  regular := hexplores.kept.regular h.regular
  naming := (hexplores.kept (p := p)).naming.trans h.naming
  functions i hi := by
    rw [(hexplores.kept (p := p)).functions] at hi
    obtain ⟨table, f, htable, hnamed⟩ := h.functions i hi
    exact ⟨table, f, htable.trans hexplores.grows.le, hnamed⟩

lemma recorded_visit {decl : DefId} {args : List TypeId}
    (hs : s.Of p) (hrecorded : Recorded p n s) (hcall : Callable p s.program.types decl args)
    (hforeign : (p.function? decl).any (·.isForeign) = false) : Recorded p n (visit bound decl args s).2 := by
  cases hf : p.function? decl with
  | none =>
    rw [visit_of_none (by rw [hs.function?, hf])]
    exact hrecorded
  | some f =>
    rw [visit_of_function (by rw [hs.function?, hf])]
    rw [hf] at hforeign
    have hexplores := exploring_explore bound f (Program.bindings f.generics args) s
    have hle := hexplores.grows.le
    have hexplored := hrecorded.explore hexplores
    generalize (explore bound f (Program.bindings f.generics args) s).2 = now at hle hexplored
    refine ⟨⟨hexplored.sound.program, hexplored.sound.types, hexplored.sound.pending⟩,
      hexplored.regular, hexplored.naming, fun i hi => ?_⟩
    rcases Array.mem_push.1 hi with hi | rfl
    · exact hexplored.functions i hi
    · refine ⟨now.program.types, f, le_rfl, hs.le.trans hle, hexplored.regular, hf, hforeign, (hcall f hf).mono hle, ?_⟩
      rw [hexplored.naming, ← hexplored.sound.program]

lemma recorded_visitPending (htargets : p.TargetsHeld) (hchecked : Checked p final) :
    ∀ k s, Ready (hchecked.plan htargets) bound [] s → Recorded p n s →
      Grows (visitPending bound k s).2 final → Recorded p n (visitPending bound k s).2
  | 0, s, _, hrecorded, _ => hrecorded.explore (.exhaust s)
  | k + 1, s, hready, hrecorded, hfinal => by
    cases hpending : s.pending with
    | nil => rw [visitPending_nil hpending]; exact hrecorded
    | cons r rest =>
      have hforeign := hrecorded.sound.pending
      rw [hpending, List.forall_mem_cons] at hforeign
      have hrecorded' : Recorded p n { s with pending := rest } :=
        ⟨⟨hrecorded.sound.program, hrecorded.sound.types, hforeign.2⟩,
          hrecorded.regular, hrecorded.naming, hrecorded.functions⟩
      have hpopped := hready.pop hpending
      have hknown := hready.known_pending hpending
      rw [visitPending_cons hpending] at hfinal ⊢
      obtain ⟨hvisited, -⟩ := ready_visit hpopped hknown ((finds_visitPending k _).trans hfinal)
      exact recorded_visitPending htargets hchecked k _ hvisited
        (recorded_visit hpopped.toOf hrecorded' hknown hforeign.1) hfinal

/-- Everything that a search finds is recorded properly, if it passes the checks. -/
lemma recorded_search (htargets : p.TargetsHeld) (hreg : p.Regular p.types)
    (hchecked : Checked p (search bound { program := p, naming := n }).2) :
    Recorded p n (search bound { program := p, naming := n }).2 := by
  have hstart : Recorded p n { program := p, naming := n } := ⟨⟨rfl, by simp, by simp⟩, hreg, rfl, by simp⟩
  have hroots := (does_start (c := hchecked.plan htargets) n (finds_visitPending bound (started bound p n))).1
  exact recorded_visitPending htargets hchecked bound _ ((ready_start n).extend hroots)
    (hstart.explore (Exploring.forM (fun i => exploring_addRoot) _ _)) (.refl _)

end Instance

end Kite
