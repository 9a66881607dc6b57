/-
The search for instances finds what can be reached from the declarations of the given units, all of
it and nothing else. It ends if that is finite.
-/
import Kite.Proofs.Check.Units
import Kite.Proofs.Instance.Needs

namespace Kite

open List

namespace Instance

variable (p : Program) (table : TypeTable)

/-- What can be reached from the given units, with types that come up on the way to a table. -/
inductive Reaches : Target → Prop where
  | root {decl : DefId} {r : Request} {x : Target} : decl.index < p.defs.size → root? p decl = some r →
      r.Asks p p.types x → Reaches x
  | need {x y : Target} {need : Need} {before : TypeTable} : Reaches x → need ∈ needs p table x →
      p.types ≤ before → (need.make before).2 ≤ table → need.Asks p before y → Reaches y

def reaching (s : Search) : Plan p := ⟨s, fun _ => Reaches p s.program.types, fun _ h => h, .root, fun h _ => .need h⟩

end Instance

open Instance

def Instances.Lists (instances : Instances) : Target → Prop
  | .function decl args => (decl, args) ∈ instances.functions.map key
  | .type id => id ∈ instances.types
  | .foreign decl => decl ∈ instances.foreign
  | .global decl => decl ∈ instances.globals

def Program.Defines (p : Program) : Target → Prop
  | .function decl _ => (p.function? decl).isSome
  | _ => True

/-- What is listed for a program is what can be reached from its given units, each function once: it
has what the search starts with and what its own targets need, and nothing else. -/
structure Instances.Complete (p : Program) (instances : Instances) (q : Program) : Prop where
  program : q = p.withTypes q.types
  le : p.types ≤ q.types
  once : (instances.functions.map key).Nodup
  roots : ∀ decl, decl.index < p.defs.size → ∀ r, root? p decl = some r → ∀ x, r.Asks p p.types x → instances.Lists x
  closed : ∀ x, instances.Lists x → ∀ need ∈ needs p q.types x,
    Met p q.types (fun y => p.Defines y → instances.Lists y) need
  reached : ∀ x, instances.Lists x → Reaches p q.types x

lemma defines_root {decl : DefId} (h : root? p decl = some r) (hasks : r.Asks p p.types x) : p.Defines x := by
  unfold root? at h
  split at h
  · split at h
    · rename_i f hkind
      have hfunction : p.function? decl = some f := by rw [Program.function?, hkind]
      split at h
      · cases h
        rw [show x = callee p decl [] from hasks, callee, hfunction]
        split
        · trivial
        · exact congrArg Option.isSome hfunction
      · cases h
    all_goals cases h
    all_goals cases hasks
    all_goals trivial
  · cases h

lemma complete_of_ready {instances : Instances}
    (hready : Ready (reaching p s) bound [] s) (hend : s.exhausted = false) (hempty : s.pending = [])
    (hroots : ∀ decl, decl.index < p.defs.size → ∀ r, root? p decl = some r → ∀ x,
      r.Asks p p.types x → s.Has x) (hfunctions : instances.functions.Perm s.functions.toList)
    (htypes : instances.types.Perm s.types) (hforeign : instances.foreign.Perm s.foreign)
    (hglobals : instances.globals.Perm s.globals) : instances.Complete p s.program := by
  obtain ⟨undefined, hvisited, hnone⟩ := hready.visited
  rw [hempty, nil_append, nil_append] at hvisited
  have hkeys := hfunctions.map key
  have hhas : ∀ x, instances.Lists x → s.Has x
    | .function _ _, hx => hvisited.mem_iff.2 (mem_append_left _ (hkeys.mem_iff.1 hx))
    | .type _, hx => htypes.mem_iff.1 hx
    | .foreign _, hx => hforeign.mem_iff.1 hx
    | .global _, hx => hglobals.mem_iff.1 hx
  have hlists : ∀ x, s.Has x → p.Defines x → instances.Lists x
    | .function _ _, hx, hdefined => (mem_append.1 (hvisited.mem_iff.1 hx)).elim hkeys.mem_iff.2
        fun hx => by rw [Program.Defines, hnone _ hx] at hdefined; cases hdefined
    | .type _, hx, _ => htypes.mem_iff.2 hx
    | .foreign _, hx, _ => hforeign.mem_iff.2 hx
    | .global _, hx, _ => hglobals.mem_iff.2 hx
  refine {
    program := hready.program
    le := hready.le
    once := hkeys.nodup_iff.2 (nodup_append.1 (hvisited.nodup_iff.1 hready.distinct)).1
    roots := fun decl hdecl r hr x hx => hlists x (hroots decl hdecl r hr x hx) (defines_root hr hx)
    closed := fun x hx need hneed => ?_
    reached := fun x hx => hready.known x (hhas x hx) }
  rcases hready.settled hend x (hhas x hx) with hawaits | hsettled | ⟨_, hcurrent, _⟩
  · cases x with
    | function decl args =>
      rw [Search.Awaits, hempty] at hawaits
      cases hawaits
    | _ => cases hawaits
  · exact (hsettled need hneed).mono le_rfl hlists
  · cases hcurrent

lemma complete_collected (h : collectInstances p entry = some (instances, q)) : instances.Complete p q := by
  obtain ⟨bound, s, hs, hend, rfl, rfl⟩ := collectInstances_ended h
  obtain ⟨hready, hempty, hroots⟩ := (ready_search (c := reaching p s) hs).2 hend
  exact complete_of_ready hready hend hempty hroots (mergeSort_perm _ _) (perm_sortByName _ _)
    (perm_sortByName _ _) (perm_sortByName _ _)

/-- A type that only a global has. -/
def globalTypeSource : String := "struct S \x7b x: i64 \x7d const X: S = S(x: 1);"

def globalType : Program := (checkedAlone globalTypeSource).program

end Kite
