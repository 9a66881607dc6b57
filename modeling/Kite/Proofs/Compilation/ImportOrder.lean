/-
The order of the units. `Walk.Sound` says what a state of the depth-first walk means: the units on the
stack import each other in turn, each found cycle is one, and while none is found every unit in the
order has all it imports before it. A visit keeps this, so the units are sorted by their imports
unless there is a cycle, and then one is reported: this is `importOrder_sorts`.
-/
import Mathlib.Data.List.Chain
import Mathlib.Data.List.Perm.Subperm
import Kite.Compilation.ImportOrder

namespace Kite.ImportOrder

open List

variable {edges : Edges} {nodes : List Nat} {w w' : Walk} {target : Nat}

def Edge (edges : Edges) (source target : Nat) : Prop := ∃ e ∈ edges.getD source [], e.1 = target

/-- Each of the units is in the relation to the next one, and the last one to the first. -/
structure IsCycle (r : Nat → Nat → Prop) (cycle : List Nat) : Prop where
  nodup : cycle.Nodup
  chain : cycle.IsChain r
  closes : ∃ first last, cycle.head? = some first ∧ cycle.getLast? = some last ∧ r last first

namespace Walk

structure Sound (edges : Edges) (nodes : List Nat) (w : Walk) : Prop where
  size : w.marks.size = edges.length
  marks : ∀ i < edges.length, w.marks.getD i .done =
    if i ∈ w.stack then .active else if i ∈ w.order then .done else .new
  nodup : (w.stack ++ w.order).Nodup
  nodes : ∀ i ∈ w.stack ++ w.order, i ∈ nodes
  path : w.stack.IsChain (Edge edges)
  cycles : ∀ cycle ∈ w.cycles, IsCycle (Edge edges) cycle
  sorted : w.cycles = [] → ∀ before i after, w.order = before ++ i :: after → ∀ j, Edge edges i j → j ∈ before

/-- What a part of the walk does to its state. -/
structure Goes (edges : Edges) (nodes : List Nat) (w w' : Walk) : Prop where
  sound : w'.Sound edges nodes
  stack : w'.stack = w.stack
  order : w.order <+: w'.order
  cycles : w'.cycles = [] → w.cycles = []

lemma Goes.refl (h : w.Sound edges nodes) : Goes edges nodes w w := ⟨h, rfl, prefix_rfl, id⟩

lemma Goes.trans (h : Goes edges nodes w w') (h' : Goes edges nodes w' w'') : Goes edges nodes w w'' :=
  ⟨h'.sound, h'.stack.trans h.stack, h.order.trans h'.order, h.cycles ∘ h'.cycles⟩

lemma Goes.foldl {Q : α → Walk → Prop}
    (hQ : ∀ {a w w'}, Goes edges nodes w w' → Q a w → Q a w') : ∀ {l : List α} {w : Walk}, w.Sound edges nodes →
    (∀ a ∈ l, ∀ w', Goes edges nodes w w' → Goes edges nodes w' (f w' a) ∧ Q a (f w' a)) →
      Goes edges nodes w (l.foldl f w) ∧ ∀ a ∈ l, Q a (l.foldl f w)
  | [], _, hw, _ => ⟨.refl hw, by simp⟩
  | a :: l, w, hw, hf => by
    obtain ⟨hfirst, ha⟩ := hf a (.head _) w (.refl hw)
    obtain ⟨hrest, hl⟩ := Goes.foldl (f := f) (Q := Q) hQ hfirst.sound fun b hb w' hw' =>
      hf b (.tail _ hb) w' (hfirst.trans hw')
    exact ⟨hfirst.trans hrest, forall_mem_cons.2 ⟨hQ hrest ha, hl⟩⟩

/-! ## Steps -/

lemma dropWhile_of_mem : ∀ {l : List Nat}, target ∈ l → ∃ rest, l.dropWhile (· != target) = target :: rest
  | a :: l, h => by
    by_cases ha : a = target
    · exact ⟨l, by simp [ha]⟩
    · rw [dropWhile_cons_of_pos (by simpa using ha)]
      exact dropWhile_of_mem ((mem_cons.1 h).resolve_left (Ne.symm ha))

lemma goes_addCycle (h : w.Sound edges nodes) (hlast : w.stack.getLast? = some node) (hedge : Edge edges node target)
    (htarget : target ∈ w.stack) : Goes edges nodes w (w.addCycle target) ∧ (w.addCycle target).cycles ≠ [] := by
  obtain ⟨rest, hrest⟩ := dropWhile_of_mem htarget
  have hsuffix : target :: rest <:+ w.stack := hrest ▸ dropWhile_suffix _
  have hcycle : IsCycle (Edge edges) (target :: rest) := by
    refine ⟨(nodup_append.1 h.nodup).1.sublist hsuffix.sublist, h.path.suffix hsuffix, target, node, rfl, ?_, hedge⟩
    obtain ⟨before, hbefore⟩ := hsuffix
    rwa [← hbefore, getLast?_append_of_ne_nil _ (cons_ne_nil _ _)] at hlast
  unfold addCycle
  dsimp only
  rw [hrest]
  split
  · rename_i hknown
    exact ⟨.refl h, fun hnone => by simp [hnone] at hknown⟩
  · refine ⟨⟨⟨h.size, h.marks, h.nodup, h.nodes, h.path, ?_, by simp⟩, rfl, prefix_rfl, by simp⟩, by simp⟩
    exact forall_mem_append.2 ⟨h.cycles, by simpa using hcycle⟩

lemma getD_setMark (h : w.marks.size = edges.length) (hnode : node < edges.length) (i : Nat) :
    (w.setMark node mark).marks.getD i .done = if i = node then mark else w.marks.getD i .done := by
  rw [setMark, Array.getD_eq_getD_getElem?, Array.getElem?_setIfInBounds, Array.getD_eq_getD_getElem?]
  grind

lemma sound_push (h : w.Sound edges nodes) (hbound : ∀ i ∈ nodes, i < edges.length) (hnode : node ∈ nodes)
    (hnew : node ∉ w.stack ++ w.order) (hlast : ∀ last ∈ w.stack.getLast?, Edge edges last node) :
    Sound edges nodes { w.setMark node .active with stack := w.stack ++ [node] } := by
  have hperm : (w.stack ++ [node] ++ w.order).Perm (node :: (w.stack ++ w.order)) := by simp [perm_middle]
  refine ⟨by simpa [setMark] using h.size, fun i hi => ?_, hperm.nodup_iff.2 (nodup_cons.2 ⟨hnew, h.nodup⟩), fun i hi => ?_, ?_,
    h.cycles, h.sorted⟩
  · rw [getD_setMark h.size (hbound node hnode), h.marks i hi]
    grind [setMark]
  · rcases mem_cons.1 (hperm.mem_iff.1 hi) with rfl | hi
    · exact hnode
    · exact h.nodes i hi
  · exact h.path.append (.singleton _) (by simpa using hlast)

lemma sound_pop (h : w.Sound edges nodes) (hbound : ∀ i ∈ nodes, i < edges.length) {stack : List Nat}
    (hstack : w.stack = stack ++ [node]) (hdone : w.cycles = [] → ∀ j, Edge edges node j → j ∈ w.order) :
    Sound edges nodes { w.setMark node .done with stack := w.stack.dropLast, order := w.order ++ [node] } := by
  have hperm : (stack ++ (w.order ++ [node])).Perm (w.stack ++ w.order) := by
    rw [hstack, append_assoc]
    exact perm_append_comm.append_left stack
  have hnode : node ∈ nodes := h.nodes node (by simp [hstack])
  have hnodup := hperm.nodup_iff.2 h.nodup
  rw [hstack, dropLast_concat]
  refine ⟨by simpa [setMark] using h.size, fun i hi => ?_, hnodup, fun i hi => h.nodes i (hperm.mem_iff.1 hi), ?_,
    h.cycles, fun hnone before i after horder j hj => ?_⟩
  · rw [getD_setMark h.size (hbound node hnode), h.marks i hi, hstack]
    grind [setMark]
  · exact h.path.prefix ⟨[node], hstack.symm⟩
  · rcases eq_nil_or_concat after with rfl | ⟨after, last, rfl⟩
    · obtain ⟨rfl, hlast⟩ := append_inj' horder rfl
      cases hlast
      exact hdone hnone j hj
    · replace horder : w.order ++ [node] = before ++ i :: after ++ [last] := by simpa using horder
      exact h.sorted hnone before i after (append_inj' horder rfl).1 j hj

end Walk

open Walk

/-! ## Visits -/

section

variable (hbound : ∀ i ∈ nodes, i < edges.length) (hnodes : ∀ i j, Edge edges i j → j ∈ nodes)

include hbound

lemma goes_around (h : w.Sound edges nodes) (hnode : node ∈ nodes) (hnew : node ∉ w.stack ++ w.order)
    (hlast : ∀ last ∈ w.stack.getLast?, Edge edges last node) {f : Walk → Nat × Span → Walk}
    (hf : ∀ e, Edge edges node e.1 → ∀ w', Goes edges nodes { w.setMark node .active with stack := w.stack ++ [node] } w' →
      Goes edges nodes w' (f w' e) ∧ ((f w' e).cycles = [] → e.1 ∈ (f w' e).order)) :
    let w₂ := (edges.getD node []).foldl f { w.setMark node .active with stack := w.stack ++ [node] }
    let w₃ := { w₂.setMark node .done with stack := w₂.stack.dropLast, order := w₂.order ++ [node] }
    Goes edges nodes w w₃ ∧ node ∈ w₃.order := by
  obtain ⟨hgoes, hall⟩ := Goes.foldl (f := f) (Q := fun e w => w.cycles = [] → e.1 ∈ w.order)
    (fun hgoes hq hnone => hgoes.order.subset (hq (hgoes.cycles hnone))) (sound_push h hbound hnode hnew hlast)
    fun e he => hf e ⟨e, he, rfl⟩
  have hpop := sound_pop hgoes.sound hbound hgoes.stack fun hnone j ⟨e, he, hj⟩ => hj ▸ hall e he hnone
  refine ⟨⟨hpop, ?_, hgoes.order.trans (prefix_append _ _), hgoes.cycles⟩, by simp⟩
  exact (congrArg List.dropLast hgoes.stack).trans dropLast_concat

include hnodes

/-- By induction on the bound: there are never as many units on the stack and in the order as there are. -/
lemma goes_visit : ∀ {n node w}, w.Sound edges nodes → node ∈ nodes → node ∉ w.stack ++ w.order →
    (∀ last ∈ w.stack.getLast?, Edge edges last node) → edges.length ≤ n + (w.stack ++ w.order).length →
      Goes edges nodes w (visit edges n node w) ∧ node ∈ (visit edges n node w).order
  | 0, node, w, h, hnode, hnew, _, hfuel => by
    have hsub : node :: (w.stack ++ w.order) ⊆ List.range edges.length := by
      refine cons_subset.2 ⟨mem_range.2 (hbound node hnode), fun i hi => ?_⟩
      exact mem_range.2 (hbound i (h.nodes i hi))
    have hlength := (List.Nodup.subperm (nodup_cons.2 ⟨hnew, h.nodup⟩) hsub).length_le
    rw [length_cons, length_range] at hlength
    omega
  | n + 1, node, w, h, hnode, hnew, hlast, hfuel => by
    refine goes_around hbound h hnode hnew hlast fun e hedge w' hw' => ?_
    have htarget := hnodes node e.1 hedge
    have hmark := hw'.sound.marks e.1 (hbound e.1 htarget)
    have hlast' : w'.stack.getLast? = some node := by simp [hw'.stack]
    dsimp only
    split
    · rename_i hnew'
      have hlength : w.order.length ≤ w'.order.length := hw'.order.length_le
      obtain ⟨hgoes, hdone⟩ := goes_visit (n := n) hw'.sound htarget (by grind) (by simpa [hlast'] using hedge)
        (by simp only [hw'.stack, length_append, length_singleton] at hfuel ⊢; omega)
      exact ⟨hgoes, fun _ => hdone⟩
    · rename_i hactive
      obtain ⟨hgoes, hcycles⟩ := goes_addCycle hw'.sound hlast' hedge (by grind)
      exact ⟨hgoes, fun hnone => absurd hnone hcycles⟩
    · rename_i hdone
      exact ⟨.refl hw'.sound, fun _ => by grind⟩

lemma sound_visitAll (hdistinct : nodes.Nodup) :
    (visitAll edges nodes).Sound edges nodes ∧ (visitAll edges nodes).order.Perm nodes := by
  have hstart : Sound edges nodes { marks := .replicate edges.length .new } :=
    ⟨by simp, fun i hi => by simp [Array.getD_eq_getD_getElem?, hi], by simp, by simp, .nil, by simp, by simp⟩
  obtain ⟨hgoes, hall⟩ := Goes.foldl (l := nodes) (Q := fun root w => root ∈ w.order) (fun h hq => h.order.subset hq)
    hstart (f := fun w root => if w.marks.getD root .done == .new then visit edges edges.length root w else w)
    fun root hroot w hw => by
      have hstack : w.stack = [] := hw.stack
      have hmark := hw.sound.marks root (hbound root hroot)
      split
      · rename_i hnew
        exact goes_visit hbound hnodes hw.sound hroot (by grind) (by simp [hstack]) (Nat.le_add_right _ _)
      · exact ⟨.refl hw.sound, by grind⟩
  have hnodup := (nodup_append.1 hgoes.sound.nodup).2.1
  refine ⟨hgoes.sound, (perm_ext_iff_of_nodup hnodup hdistinct).2 fun i => ⟨fun hi => ?_, hall i⟩⟩
  exact hgoes.sound.nodes i (mem_append_right _ hi)

end

/-! ## Units -/

variable {units : List LoadedUnit}

/-- The one unit imports a name of which the other is the first unit. -/
def Imports (units : List LoadedUnit) (source target : Nat) : Prop :=
  ∃ unit, units[source]? = some unit ∧ ∃ decl ∈ unit.parsed.module.imports, indexOf? units decl.unit.name = some target

lemma edge_edgesOf : Edge (edgesOf units) = Imports units := by
  funext source target
  unfold Edge edgesOf Imports
  rw [getD_eq_getElem?_getD, getElem?_map]
  cases units[source]? <;> simp

lemma mem_roots_of_indexOf? {name : String} (h : indexOf? units name = some target) : target ∈ roots units := by
  obtain ⟨hlt, hname, -⟩ := findIdx?_eq_some_iff_getElem.1 h
  rw [roots, mem_filter, mem_range, getElem?_eq_getElem hlt, Option.bind_some, beq_iff_eq.1 hname, h]
  exact ⟨hlt, beq_self_eq_true _⟩

lemma isImportCycle_cycleReport {cycle : List Nat} : (cycleReport units edges cycle).isImportCycle := by
  exact List.foldlRecOn (motive := fun d => Diagnostic.isImportCycle d) _ _ rfl fun d h _ _ => h

variable {r : Nat → Nat → Prop}

lemma IsCycle.transGen {cycle : List Nat} (h : IsCycle r cycle) : ∃ i, Relation.TransGen r i i := by
  obtain ⟨first, last, hfirst, hlast, hcloses⟩ := h.closes
  have hne : cycle ≠ [] := fun hnil => by simp [hnil] at hfirst
  have hpath := relationReflTransGen_of_exists_isChain cycle h.chain hne
  rw [(head_eq_iff_head?_eq_some hne).2 hfirst, (getLast_eq_iff_getLast?_eq_some hne).2 hlast] at hpath
  exact ⟨first, .tail' hpath hcloses⟩

lemma not_transGen_of_sorted {order : List Nat} (hclosed : ∀ i j, r i j → j ∈ order)
    (hsorted : ∀ before i after, order = before ++ i :: after → ∀ j, r i j → j ∈ before) (i : Nat) :
    ¬ Relation.TransGen r i i := by
  have hstep {i j : Nat} (hi : i ∈ order) (hr : r i j) : order.idxOf j < order.idxOf i := by
    obtain ⟨before, after, horder, hnot⟩ := eq_append_cons_of_mem hi
    have hj := hsorted before i after horder j hr
    rw [horder, idxOf_append_of_mem hj, idxOf_append_of_notMem hnot]
    exact Nat.lt_add_right _ (idxOf_lt_length_of_mem hj)
  have hrun {i j : Nat} (h : Relation.TransGen r i j) : j ∈ order ∧ (i ∈ order → order.idxOf j < order.idxOf i) := by
    induction h with
    | single h => exact ⟨hclosed _ _ h, fun hi => hstep hi h⟩
    | tail _ h ih => exact ⟨hclosed _ _ h, fun hi => (hstep ih.1 h).trans (ih.2 hi)⟩
  exact fun h => Nat.lt_irrefl _ ((hrun h).2 (hrun h).1)

/-- The order is one of the first units of all names. A cycle is reported if and only if there is one, each reported
cycle is one, and if there is none then every unit comes after all units it imports. -/
theorem importOrder_sorts (units : List LoadedUnit) : (importOrder units).1.Perm (roots units) ∧
    ((∃ d ∈ (importOrder units).2, d.isImportCycle) ↔ ∃ i, Relation.TransGen (Imports units) i i) ∧
    (∀ d ∈ (importOrder units).2, d.isImportCycle →
      ∃ cycle, IsCycle (Imports units) cycle ∧ d = cycleReport units (edgesOf units) cycle) ∧
    ((∀ i, ¬ Relation.TransGen (Imports units) i i) → ∀ before i after, (importOrder units).1 = before ++ i :: after →
      ∀ j, Imports units i j → j ∈ before) := by
  have hbound : ∀ i ∈ roots units, i < (edgesOf units).length := fun i hi => by
    simpa [edgesOf] using (mem_filter.1 hi).1
  have hnodes : ∀ i j, Edge (edgesOf units) i j → j ∈ roots units := by
    rw [edge_edgesOf]
    exact fun i j ⟨_, _, _, _, h⟩ => mem_roots_of_indexOf? h
  obtain ⟨hsound, hperm⟩ := sound_visitAll hbound hnodes (nodup_range.filter _)
  have hreported : ∀ d, d ∈ (importOrder units).2 ∧ d.isImportCycle ↔
      ∃ cycle ∈ (visitAll (edgesOf units) (roots units)).cycles, cycleReport units (edgesOf units) cycle = d := by
    intro d
    refine ⟨fun ⟨hd, hcode⟩ => ?_, fun ⟨cycle, hcycle, hd⟩ => ⟨?_, hd ▸ isImportCycle_cycleReport⟩⟩
    · rcases mem_append.1 hd with hd | hd
      · obtain ⟨_, -, rfl⟩ := mem_map.1 hd
        cases hcode
      · exact mem_map.1 hd
    · exact mem_append_right _ (mem_map.2 ⟨cycle, hcycle, hd⟩)
  have hcycles := hsound.cycles
  have hsorted := hsound.sorted
  rw [edge_edgesOf] at hcycles hsorted hnodes
  change (visitAll (edgesOf units) (roots units)).order.Perm _ ∧ _ ∧ _ ∧
    (_ → ∀ before i after, (visitAll (edgesOf units) (roots units)).order = _ → _)
  generalize visitAll (edgesOf units) (roots units) = w at *
  have hnone : (∀ i, ¬ Relation.TransGen (Imports units) i i) → w.cycles = [] := fun h =>
    eq_nil_iff_forall_not_mem.2 fun cycle hcycle => by
      obtain ⟨i, hi⟩ := (hcycles cycle hcycle).transGen
      exact h i hi
  refine ⟨hperm, ⟨fun ⟨d, hd, hcode⟩ => ?_, fun ⟨i, hi⟩ => ?_⟩, fun d hd hcode => ?_, fun h => hsorted (hnone h)⟩
  · obtain ⟨cycle, hcycle, -⟩ := (hreported d).1 ⟨hd, hcode⟩
    exact (hcycles cycle hcycle).transGen
  · refine by_contra fun hno => ?_
    have hempty : w.cycles = [] := eq_nil_iff_forall_not_mem.2 fun cycle hcycle =>
      hno ⟨_, (hreported _).2 ⟨cycle, hcycle, rfl⟩⟩
    exact not_transGen_of_sorted (fun i j h => hperm.mem_iff.2 (hnodes i j h)) (hsorted hempty) i hi
  · obtain ⟨cycle, hcycle, rfl⟩ := (hreported d).1 ⟨hd, hcode⟩
    exact ⟨cycle, hcycles cycle hcycle, rfl⟩

end Kite.ImportOrder
