/-
Bindings of a session. A binding is in the scope of the session before its value is checked, so it
hides an earlier one of its name whether or not the submission succeeds.
-/
import Kite.Proofs.Check.Units
import Kite.Session

namespace Kite

namespace Check

variable {c c' : Checker} {unit : UnitId} {name : String} {first : Nat}

/-- Settling neither enters a name into a scope nor adds a declaration. -/
lemma Settles.scopes (h : Settles c c') : c'.scopes = c.scopes ∧ c'.program.defs.size = c.program.defs.size := by
  induction h with
  | trans _ _ ih ih' => exact ⟨ih'.1.trans ih.1, ih'.2.trans ih.2⟩
  | globalType _ _ _ _ ih => exact ⟨ih.1, (Array.size_modify ..).trans ih.2⟩
  | function _ _ _ _ _ ih => exact ⟨ih.1, (Array.size_modify ..).trans ih.2⟩
  | global _ _ _ _ _ _ ih => exact ⟨ih.1, (Array.size_modify ..).trans ih.2⟩
  | refl | emit | types | symbols | bound | typed => exact ⟨rfl, rfl⟩

/-- A name of a unit stands for a declaration from `first` on. -/
def Checker.BindsSince (c : Checker) (unit : UnitId) (first : Nat) (name : String) : Prop :=
  ∃ scope id, c.scopes[unit.index]? = some scope ∧ scope.get? name = some id ∧ first ≤ id.index

lemma get?_rebind {scope : ModuleScope} {other : String} {id : DefId} :
    (scope.rebind other id).get? name = if name = other then some id else scope.get? name := by
  unfold ModuleScope.rebind ModuleScope.get?
  by_cases h : name = other
  · simp [h]
  · rw [if_neg h, List.lookup_cons, beq_eq_false_iff_ne.2 h]
    induction scope.items with
    | nil => rfl
    | cons item items ih =>
      obtain ⟨key, decl⟩ := item
      by_cases hkey : key = other
      · have hother : (name == other) = false := beq_eq_false_iff_ne.2 h
        simpa [hkey, List.lookup_cons, hother] using ih
      · by_cases hname : name = key <;> simp [hkey, hname, List.lookup_cons, ih]

section Declaring

variable (ident : Ident) (isMut : Bool) (type : Option TypeExpr) (value : Expr)

lemma declareBinding_scopes (unit : UnitId) (c : Checker) :
    (declareBinding unit ident isMut type value c).2.scopes =
      c.scopes.modify unit.index (·.rebind ident.name ⟨c.program.defs.size⟩) ∧
    (declareBinding unit ident isMut type value c).2.program.defs.size = c.program.defs.size + 1 := by
  let id : DefId := ⟨c.program.defs.size⟩
  let added := addDef { name := ident.name, unit, span := ident.span, kind := .static (newGlobal isMut) } c
  let scopes := c.scopes.modify unit.index (·.rebind ident.name id)
  let entered := { added.2 with scopes }
  let registered := (registerGlobal id { unit, type, value, typed := false, atRunTime := true }
    (defineSymbol (some id) ident .static "" entered).2).2
  have hrest : Settling (do
      let _ ← ensureGlobal id
      let type ← ensureGlobalType id
      setDetail id (← display type)) :=
    .bind .ensureGlobal (.bind .ensureGlobalType (.bind (.display _) (.setDetail _ _)))
  obtain ⟨hscopes, hsize⟩ := (hrest registered).scopes
  exact ⟨hscopes, hsize.trans (Array.size_push ..)⟩

/-- A new binding takes its name, and leaves the other names. -/
lemma bindsSince_declareBinding (hfirst : first ≤ c.program.defs.size) (hunit : unit.index < c.scopes.size)
    (h : name = ident.name ∨ c.BindsSince unit first name) :
    (declareBinding unit ident isMut type value c).2.BindsSince unit first name := by
  obtain ⟨hscopes, _⟩ := declareBinding_scopes ident isMut type value unit c
  have hscope : (declareBinding unit ident isMut type value c).2.scopes[unit.index]? =
      some (c.scopes[unit.index].rebind ident.name ⟨c.program.defs.size⟩) := by
    rw [hscopes, Array.getElem?_modify, if_pos rfl, Array.getElem?_eq_getElem hunit, Option.map_some]
  by_cases hname : name = ident.name
  · exact ⟨_, ⟨c.program.defs.size⟩, hscope, by rw [get?_rebind, if_pos hname], hfirst⟩
  · obtain ⟨scope, id, hget, hid, hle⟩ := h.resolve_left hname
    cases (Array.getElem?_eq_getElem hunit).symm.trans hget
    exact ⟨_, id, hscope, by rw [get?_rebind, if_neg hname, hid], hle⟩

end Declaring

end Check

namespace Session

open Check

/-- All names that the bindings of a submission declare stand for its own declarations afterwards. None of it
depends on the reports, so a submission that fails hides the earlier bindings of its names as well. -/
theorem declareBindings_hides (unit : UnitId) (stmts : List Stmt) (c : Checker) (hunit : unit.index < c.scopes.size) :
    ∀ name ∈ (declareBindings unit stmts c).1.1,
      (declareBindings unit stmts c).2.BindsSince unit c.program.defs.size name := by
  suffices h : ∀ first ≤ c.program.defs.size, ∀ name,
      name ∈ (declareBindings unit stmts c).1.1 ∨ c.BindsSince unit first name →
        (declareBindings unit stmts c).2.BindsSince unit first name from
    fun name hname => h _ le_rfl name (.inl hname)
  intro first hfirst name h
  fun_induction declareBindings unit stmts generalizing c with
  | case1 => exact h.resolve_left nofun
  | case2 id ident isMut type init span rest ih =>
    obtain ⟨hscopes, hsize⟩ := declareBinding_scopes ident isMut type init unit c
    have hunit' : unit.index < (declareBinding unit ident isMut type init c).2.scopes.size := by
      rw [hscopes, Array.size_modify]
      exact hunit
    refine ih (declareBinding unit ident isMut type init c).2 hunit' (by omega) ?_
    rcases h with h | h
    · rcases List.mem_cons.1 h with rfl | h
      · exact .inr (bindsSince_declareBinding ident isMut type init hfirst hunit (.inl rfl))
      · exact .inl h
    · exact .inr (bindsSince_declareBinding ident isMut type init hfirst hunit (.inr h))
  | case3 stmt rest _ ih => exact ih c hunit hfirst h

def number? (r : Submission) : Option Int :=
  match r.outcome with
  | some (.value v _ _) => v.int?
  | _ => none

/-- Whether the submissions of a new session succeed, and the numbers they give. -/
def answersOf (texts : List String) : List (Bool × Option Int) :=
  match start { library := .none } with
  | .ok s => (texts.mapM submit s).1.map fun r => (r.outcome.isSome, number? r)
  | .error _ => []

set_option maxRecDepth 100000 in
/-- A binding that fails hides the one that was there before it. -/
theorem hidden_by_failure :
    answersOf ["let x = 1;", "let x = y;", "x"] = [(true, none), (false, none), (true, none)] ∧
      answersOf ["let x = 1;", "x"] = [(true, none), (true, some 1)] := by
  decide +kernel

end Session

end Kite
