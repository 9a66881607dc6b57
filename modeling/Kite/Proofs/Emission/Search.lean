/-
The search for instances, step by step. Whatever the search does, it only finds more.
-/
import Kite.Proofs.Emission.Instances

namespace Kite.Instance

open List TypeM TypeTable

variable {s : Search} {bound : Nat} {decl : DefId} {args : List TypeId} {b : Subst} {id : TypeId}

/-- What has been found stays found, once each, and types keep their handles. -/
structure Grows (s s' : Search) : Prop where
  program : s'.program = s.program.withTypes s'.program.types
  le : s.program.types ≤ s'.program.types
  types : ∀ id ∈ s.types, id ∈ s'.types
  functions : ∀ i ∈ s.functions, i ∈ s'.functions
  globals : ∀ decl ∈ s.globals, decl ∈ s'.globals
  nodup : s.types.Nodup → s'.types.Nodup

namespace Grows

lemma refl (s : Search) : Grows s s := ⟨rfl, le_rfl, fun _ h => h, fun _ h => h, fun _ h => h, id⟩

lemma trans {s₁ s₂ s₃ : Search} (h : Grows s₁ s₂) (h' : Grows s₂ s₃) : Grows s₁ s₃ where
  program := by rw [h'.program, h.program]; rfl
  le := h.le.trans h'.le
  types id hid := h'.types id (h.types id hid)
  functions i hi := h'.functions i (h.functions i hi)
  globals decl hdecl := h'.globals decl (h.globals decl hdecl)
  nodup hnodup := h'.nodup (h.nodup hnodup)

end Grows

/-- A computation that only finds more. -/
def Finds (x : SearchM α) : Prop := ∀ s, Grows s (x s).2

namespace Finds

lemma pure (a : α) : Finds (Pure.pure a) := fun s => .refl s

lemma bind {x : SearchM α} {f : α → SearchM β} (hx : Finds x) (hf : ∀ a, Finds (f a)) :
    Finds (x >>= f) := fun s => (hx s).trans (hf (x s).1 (x s).2)

lemma get_bind {f : Search → SearchM α} (hf : ∀ s, Finds (f s)) : Finds (get >>= f) := fun s => hf s s

lemma forM {f : α → SearchM Unit} (hf : ∀ a, Finds (f a)) : ∀ l : List α, Finds (l.forM f)
  | [] => pure ()
  | a :: l => by exact (hf a).bind fun _ => forM hf l

end Finds

lemma finds_build {x : TypeM α} (h : ∀ now, now ≤ (x now).2) : Finds (build x) := fun s =>
  ⟨rfl, h s.program.types, fun _ h => h, fun _ h => h, fun _ h => h, id⟩

lemma finds_subst : Finds (build (TypeM.subst b id)) := finds_build (subst_le b id)

lemma finds_exhaust : Finds exhaust := fun _ => ⟨rfl, le_rfl, fun _ h => h, fun _ h => h, fun _ h => h, id⟩

lemma finds_recordType : Finds (recordType id) := by
  intro s
  show Grows s (if _ then (false, s) else (true, { s with types := id :: s.types })).2
  split
  · exact .refl s
  · rename_i hnew
    have hfresh : id ∉ s.types := by
      intro hmem
      simp [hmem] at hnew
    exact ⟨rfl, le_rfl, fun _ h => .tail _ h, fun _ h => h, fun _ h => h, fun hnodup => nodup_cons.2 ⟨hfresh, hnodup⟩⟩

lemma finds_request : Finds (request decl args) := by
  intro s
  show Grows s (if _ then if _ then s else _ else if _ then s else _)
  split
  iterate 2
    · split
      · exact .refl s
      · exact ⟨rfl, le_rfl, fun _ h => h, fun _ h => h, fun _ h => h, id⟩

/-- What a search may do without naming a function, one step after the other. -/
inductive Explores : Search → Search → Prop where
  | refl (s : Search) : Explores s s
  | trans {s₁ s₂ s₃ : Search} : Explores s₁ s₂ → Explores s₂ s₃ → Explores s₁ s₃
  | subst (b : Subst) (id : TypeId) (s : Search) : Explores s (build (TypeM.subst b id) s).2
  | exhaust (s : Search) : Explores s (exhaust s).2
  | record {id : TypeId} {decl : DefId} {name : String} {args : List TypeId} {s : Search}
      (h : s.program.types.shape id = .named decl name args) : Explores s (recordType id s).2
  | request (decl : DefId) (args : List TypeId) (s : Search) : Explores s (request decl args s).2
  | addGlobal (decl : DefId) (s : Search) : Explores s { s with globals := decl :: s.globals }

lemma Explores.grows {s' : Search} (h : Explores s s') : Grows s s' := by
  induction h with
  | refl s => exact .refl s
  | trans _ _ h h' => exact h.trans h'
  | subst b id s => exact finds_subst s
  | exhaust s => exact finds_exhaust s
  | @record id _ _ _ s _ => exact finds_recordType s
  | request decl args s => exact finds_request s
  | addGlobal decl s => exact ⟨rfl, le_rfl, fun _ h => h, fun _ h => h, fun _ h => .tail _ h, id⟩

/-- A computation that names no function. -/
def Exploring (x : SearchM α) : Prop := ∀ s, Explores s (x s).2

namespace Exploring

lemma finds (h : Exploring x) : Finds x := fun s => (h s).grows

lemma pure (a : α) : Exploring (Pure.pure a) := fun s => .refl s

lemma bind (hx : Exploring x) (hf : ∀ a, Exploring (f a)) :
    Exploring (x >>= f) := fun s => (hx s).trans (hf (x s).1 (x s).2)

lemma get_bind {f : Search → SearchM α} (hf : ∀ s, Exploring (f s)) : Exploring (get >>= f) := fun s => hf s s

lemma forM {f : α → SearchM Unit} (hf : ∀ a, Exploring (f a)) : ∀ l : List α, Exploring (l.forM f)
  | [] => pure ()
  | a :: l => by exact (hf a).bind fun _ => forM hf l

lemma substAll (b : Subst) : ∀ ids : List TypeId, Exploring (build (ids.mapM (TypeM.subst b)))
  | [] => pure _
  | id :: ids => by
    rw [mapM_cons]
    exact fun s => (Explores.subst b id s).trans (substAll b ids (build (TypeM.subst b id) s).2)

end Exploring

lemma exploring_noteParts {noteMember : TypeId → SearchM Unit} (hmember : ∀ id, Exploring (noteMember id)) :
    ∀ m id, Exploring (noteParts noteMember m id)
  | 0, _ => .pure ()
  | m + 1, id => by
    intro s
    unfold noteParts
    rw [get_bind]
    cases hshape : s.program.types.shape id with
    | named decl name args =>
      -- Recording comes after the arguments, which leave the shape of the type as it is.
      have hargs := Exploring.forM (exploring_noteParts hmember m) args s
      have hsame := shape_eq_of_le hargs.grows.le (holds_of_shape (by rw [hshape]; nofun))
      dsimp only
      rw [run_bind, run_bind]
      refine hargs.trans (Explores.trans (.record (hsame.trans hshape)) ?_)
      split
      · refine Exploring.get_bind (fun s => ?_) _
        exact .forM (fun _ => .bind (.subst _ _) fun _ => hmember _) _
      · exact .refl _
    | array element _ => exact exploring_noteParts hmember m element s
    | _ => exact Exploring.forM (exploring_noteParts hmember m) _ s

lemma exploring_noteType : ∀ bound id, Exploring (noteType bound id)
  | 0, _ => .exhaust
  | bound + 1, _ => exploring_noteParts (exploring_noteType bound) _ _

lemma noteGlobal_of_mem (h : s.globals.contains decl) : noteGlobal bound decl s = ((), s) := by
  unfold noteGlobal
  rw [get_bind, h]
  rfl

lemma noteGlobal_of_new (h : s.globals.contains decl = false) :
    noteGlobal bound decl s = (match s.program.global? decl with
      | some g => noteType bound g.type
      | none => pure () : SearchM Unit) { s with globals := decl :: s.globals } := by
  unfold noteGlobal
  rw [get_bind, h]
  rfl

lemma exploring_noteGlobal : Exploring (noteGlobal bound decl) := by
  intro s
  cases hold : s.globals.contains decl with
  | true => rw [noteGlobal_of_mem hold]; exact .refl s
  | false =>
    rw [noteGlobal_of_new hold]
    refine .trans (.addGlobal decl s) ?_
    cases s.program.global? decl with
    | some g => exact exploring_noteType bound g.type _
    | none => exact .refl _

lemma exploring_follow : ∀ m : Typed.Mention, Exploring (follow bound b m)
  | .exprType _ => .bind (.subst _ _) fun _ => exploring_noteType _ _
  | .global decl => exploring_noteGlobal
  | .function _ args => .bind (.substAll b args) fun _ => .request _ _
  | .traitMethod _ _ _ => by
    refine .bind (.subst _ _) fun _ => .get_bind fun _ => ?_
    split
    · exact .request _ _
    · exact .pure ()

def explore (bound : Nat) (f : FunctionDef) (b : Subst) : SearchM Unit := do
  (signatureTypes f).forM fun id => follow bound b (.exprType id)
  match f.body with
  | some body => body.mentions.forM (follow bound b)
  | none => return

def Search.found (s : Search) (decl : DefId) (args : List TypeId) : Search :=
  { s with functions := s.functions.push { decl, args, name := s.naming.functionName s.program decl args } }

lemma visit_of_function (h : s.program.function? decl = some f) :
    (visit bound decl args s).2 = (explore bound f (Program.bindings f.generics args) s).2.found decl args := by
  unfold visit explore
  rw [get_bind, h]
  dsimp only
  cases f.body <;> rfl

lemma visit_of_none (h : s.program.function? decl = none) : (visit bound decl args s).2 = s := by
  unfold visit
  rw [get_bind, h]
  rfl

lemma exploring_explore (bound : Nat) (f : FunctionDef) (b : Subst) : Exploring (explore bound f b) := by
  refine .bind (.forM (fun id => exploring_follow (.exprType id)) _) fun _ => ?_
  cases f.body with
  | none => exact .pure ()
  | some body => exact .forM exploring_follow _

lemma grows_found : Grows s (s.found decl args) :=
  ⟨rfl, le_rfl, fun _ h => h, fun _ h => Array.mem_push_of_mem _ h, fun _ h => h, id⟩

lemma finds_visit : Finds (visit bound decl args) := by
  intro s
  cases hf : s.program.function? decl with
  | none => rw [visit_of_none hf]; exact .refl s
  | some f => rw [visit_of_function hf]; exact (exploring_explore bound f _ s).grows.trans grows_found

lemma visitPending_nil (h : s.pending = []) : (visitPending bound (n + 1) s).2 = s := by
  rw [visitPending, get_bind, h]
  rfl

lemma visitPending_cons (h : s.pending = (decl, args) :: rest) :
    (visitPending bound (n + 1) s).2 = (visitPending bound n (visit bound decl args { s with pending := rest }).2).2 := by
  rw [visitPending, get_bind, h]
  rfl

lemma finds_visitPending : ∀ n : Nat, Finds (visitPending bound n)
  | 0 => finds_exhaust
  | n + 1 => by
    intro s
    cases hpending : s.pending with
    | nil => rw [visitPending_nil hpending]; exact .refl s
    | cons r rest =>
      have hpop : Grows s { s with pending := rest } := ⟨rfl, le_rfl, fun _ h => h, fun _ h => h, fun _ h => h, id⟩
      rw [visitPending_cons hpending]
      exact (hpop.trans (finds_visit _)).trans (finds_visitPending n _)

lemma exploring_addRoot : Exploring (addRoot bound decl) := by
  refine .get_bind fun s => ?_
  dsimp only
  split
  · split
    · split
      · exact .request _ _
      · exact .pure ()
    · exact exploring_noteGlobal
    · exact exploring_noteGlobal
    · exact .pure ()
  · exact .pure ()

lemma finds_addRoot : Finds (addRoot bound decl) := exploring_addRoot.finds

lemma finds_search : Finds (search bound) :=
  Finds.get_bind fun _ => (Finds.forM (fun _ => finds_addRoot) _).bind fun _ => finds_visitPending _

lemma perm_sortByName (name : α → String) (index : α → Nat) : (sortByName name index items).Perm items := by
  have hsorted := (mergeSort_perm (items.map fun a => (name a, a))
    fun a b => if a.1 == b.1 then index a.2 ≤ index b.2 else a.1 < b.1).map (·.2)
  simpa [sortByName, Function.comp_def] using hsorted

lemma mem_sortByName {name : α → String} : a ∈ sortByName name index items ↔ a ∈ items :=
  (perm_sortByName name index).mem_iff

/-! ## Making the search again -/

lemma endFrom_ended {start : Search} (h : start.endFrom bound = some s) :
    ∃ bound, (search bound start).2 = s ∧ s.exhausted = false := by
  refine Search.endFrom.partial_correctness start (fun _ s => ∃ bound, (search bound start).2 = s ∧ s.exhausted = false)
    (fun again ih bound s h => ?_) bound s h
  dsimp only at h
  split at h
  · exact ih _ _ h
  · rename_i hends
    cases h
    exact ⟨bound, rfl, Bool.eq_false_iff.2 hends⟩

end Kite.Instance

namespace Kite

open Instance

/-- What an answer is made of: the end of a search that did not reach its bound. -/
lemma collectInstances_ended (h : collectInstances p entry = some (instances, q)) :
    ∃ bound s, (search bound { program := p, naming := { entry } }).2 = s ∧ s.exhausted = false ∧
      instances = s.instances ∧ q = s.program := by
  unfold collectInstances at h
  obtain ⟨s, hs, heq⟩ := Option.map_eq_some_iff.1 h
  cases heq
  split at hs
  · obtain ⟨bound, hrun, hends⟩ := endFrom_ended hs
    exact ⟨bound, s, hrun, hends, rfl, rfl⟩
  · rename_i hends
    cases hs
    exact ⟨_, _, rfl, Bool.eq_false_iff.2 hends, rfl, rfl⟩

/-- The state after the first search. -/
def firstSearch (p : Program) (entry : UnitId) : Search := (search (pow2 32) { program := p, naming := { entry } }).2

lemma collectInstances_of_first (h : (firstSearch p entry).exhausted = false) :
    collectInstances p entry = some ((firstSearch p entry).instances, (firstSearch p entry).program) := by
  unfold firstSearch at h ⊢
  unfold collectInstances
  dsimp only
  rw [h]
  rfl

namespace Instance.Search

variable {s : Search} {id : TypeId} {decl : DefId}

lemma mem_functions : i ∈ s.instances.functions ↔ i ∈ s.functions := List.mem_mergeSort.trans Array.mem_toList_iff

lemma perm_types : s.instances.types.Perm s.types := perm_sortByName _ _

lemma mem_types : id ∈ s.instances.types ↔ id ∈ s.types := perm_types.mem_iff

lemma mem_globals : decl ∈ s.instances.globals ↔ decl ∈ s.globals := mem_sortByName

end Instance.Search

end Kite
