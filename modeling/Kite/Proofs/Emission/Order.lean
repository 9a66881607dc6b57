/-
The order of definitions. The counters say how many of those that a definition needs are still to
come, and those that may come next are the ones that wait for nothing. So the sorting takes, again and
again, the least of the definitions that need only what was taken: this is `Chosen`. If no type holds
itself through others, that puts each definition after all those it needs, and no such order is less.
-/
import Mathlib.Data.List.Nodup
import Mathlib.Order.WellFoundedSet
import Kite.Compilation.Analysis
import Kite.Emission.Definitions

namespace Kite.Emission

open List Sorting

variable {ds : List Definition} {x y z : Placed} {done : List Nat} {s : Sorting}

/-! ## Positions -/

lemma eq_of_position (hx : x ∈ ds.zipIdx) (hy : y ∈ ds.zipIdx) (h : x.2 = y.2) : x = y := by
  rw [mem_zipIdx_iff_getElem?] at hx hy
  exact Prod.ext (Option.some.inj (hx.symm.trans (h ▸ hy))) h

lemma nodup_positions (ds : List Definition) : (ds.zipIdx.map (·.2)).Nodup := by
  rw [zipIdx_map_snd]
  exact nodup_range' 1

lemma nodup_needed (ds : List Definition) (x : Placed) : (needed ds x).Nodup :=
  (nodup_positions ds).sublist (filter_sublist.map _)

lemma mem_needed (hy : y ∈ ds.zipIdx) : y.2 ∈ needed ds x ↔ y.2 ≠ x.2 ∧ y.1.id ∈ x.1.needs := by
  simp only [needed, mem_map, mem_filter, Bool.and_eq_true, bne_iff_ne, contains_iff_mem]
  constructor
  · rintro ⟨z, ⟨hz, hne, hneed⟩, hzy⟩
    obtain rfl := eq_of_position hz hy hzy
    exact ⟨hne, hneed⟩
  · exact fun h => ⟨y, ⟨hy, h⟩, rfl⟩

lemma exists_of_mem_needed {j : Nat} (h : j ∈ needed ds x) : ∃ y ∈ ds.zipIdx, y.2 = j := by
  obtain ⟨y, hy, rfl⟩ := mem_map.1 h
  exact ⟨y, (mem_filter.1 hy).1, rfl⟩

lemma mem_users : y ∈ users ds x ↔ y ∈ ds.zipIdx ∧ x.2 ∈ needed ds y := by
  simp [users]

/-! ## Names, then positions -/

lemma before_iff : x.before y ↔ x.1.name < y.1.name ∨ x.1.name = y.1.name ∧ x.2 < y.2 := by
  simp [Placed.before]

lemma before_or (h : x.2 ≠ y.2) : x.before y ∨ y.before x := by
  simp only [before_iff]
  rcases Std.lt_trichotomy x.1.name y.1.name with hname | hname | hname
  · exact .inl (.inl hname)
  · exact (Nat.lt_or_gt_of_ne h).imp (.inr ⟨hname, ·⟩) (.inr ⟨hname.symm, ·⟩)
  · exact .inr (.inl hname)

lemma not_before_self : ¬ x.before x := by
  rw [before_iff]
  exact fun h => h.elim (Std.lt_irrefl) fun h => Nat.lt_irrefl _ h.2

lemma before_trans (h : x.before y) (h' : y.before z) : x.before z := by
  rw [before_iff] at *
  rcases h with h | ⟨hname, hlt⟩ <;> rcases h' with h' | ⟨hname', hlt'⟩
  · exact .inl (Std.lt_trans h h')
  · exact .inl (hname' ▸ h)
  · exact .inl (hname ▸ h')
  · exact .inr ⟨hname.trans hname', hlt.trans hlt'⟩

lemma mem_insert : ∀ {ys}, y ∈ Sorting.insert x ys ↔ y = x ∨ y ∈ ys
  | [] => by simp [Sorting.insert]
  | z :: ys => by
    unfold Sorting.insert
    split
    · exact mem_cons
    · rw [mem_cons, mem_insert, mem_cons]
      exact or_left_comm

lemma pairwise_insert : ∀ {ys : List Placed}, (∀ y ∈ ys, x.2 ≠ y.2) → ys.Pairwise (·.before ·) →
    (Sorting.insert x ys).Pairwise (·.before ·)
  | [], _, _ => pairwise_singleton ..
  | y :: ys, hne, h => by
    obtain ⟨hfirst, hrest⟩ := pairwise_cons.1 h
    obtain ⟨hney, hneys⟩ := forall_mem_cons.1 hne
    unfold Sorting.insert
    split
    · rename_i hbefore
      exact pairwise_cons.2 ⟨forall_mem_cons.2 ⟨hbefore, fun z hz => before_trans hbefore (hfirst z hz)⟩, h⟩
    · rename_i hbefore
      refine pairwise_cons.2 ⟨fun z hz => ?_, pairwise_insert hneys hrest⟩
      rcases mem_insert.1 hz with rfl | hz
      · exact (before_or hney).resolve_left hbefore
      · exact hfirst z hz

lemma mem_foldr_insert : ∀ {xs : List Placed}, x ∈ xs.foldr Sorting.insert [] ↔ x ∈ xs
  | [] => .rfl
  | y :: ys => by rw [foldr_cons, mem_insert, mem_foldr_insert, mem_cons]

lemma pairwise_foldr_insert : ∀ {xs : List Placed}, (xs.map (·.2)).Nodup →
    (xs.foldr Sorting.insert []).Pairwise (·.before ·)
  | [], _ => .nil
  | x :: xs, h => by
    rw [map_cons, nodup_cons] at h
    refine pairwise_insert (fun y hy heq => h.1 ?_) (pairwise_foldr_insert h.2)
    exact heq ▸ mem_map_of_mem (mem_foldr_insert.1 hy)

/-! ## Counters -/

/-- A state of the sorting in which the definitions in `done` have come, and each one waits for as many as
`left` says. -/
structure Counts (ds : List Definition) (left : Placed → Nat) (done : List Nat) (s : Sorting) : Prop where
  pending : ∀ x ∈ ds.zipIdx, s.pending[x.2]? = some (left x)
  ready : ∀ x, x ∈ s.ready ↔ x ∈ ds.zipIdx ∧ x.2 ∉ done ∧ left x = 0
  sorted : s.ready.Pairwise (·.before ·)
  settled : ∀ x ∈ ds.zipIdx, x.2 ∈ done → left x = 0

namespace Counts

variable {left left' : Placed → Nat}

lemma congr (h : Counts ds left done s) (heq : ∀ x ∈ ds.zipIdx, left x = left' x) : Counts ds left' done s where
  pending x hx := heq x hx ▸ h.pending x hx
  ready x := (h.ready x).trans (and_congr_right fun hx => by rw [heq x hx])
  sorted := h.sorted
  settled x hx hdone := heq x hx ▸ h.settled x hx hdone

lemma release (h : Counts ds left done s) (hx : x ∈ ds.zipIdx) (hleft : 0 < left x) :
    Counts ds (fun y => if y.2 = x.2 then left y - 1 else left y) done (s.release x) := by
  obtain ⟨n, hn⟩ := Nat.exists_eq_add_one.2 hleft
  have hsame {y : Placed} (hy : y ∈ ds.zipIdx) (heq : y.2 = x.2) : y = x := eq_of_position hy hx heq
  have hnot : x.2 ∉ done := fun hdone => absurd (h.settled x hx hdone) hleft.ne'
  have hrelease : s.release x =
      ⟨s.pending.set x.2 n, if n == 0 then Sorting.insert x s.ready else s.ready⟩ := by
    rw [Sorting.release, h.pending x hx, hn]
  rw [hrelease]
  refine ⟨fun y hy => ?_, fun y => ?_, ?_, fun y hy hdone => ?_⟩
  · have hbound : x.2 < s.pending.length := (List.getElem?_eq_some_iff.1 (h.pending x hx)).1
    by_cases heq : y.2 = x.2
    · obtain rfl := hsame hy heq
      simp [hbound, hn]
    · simpa [heq, getElem?_set_ne (Ne.symm heq)] using h.pending y hy
  · by_cases heq : y = x
    · subst heq
      have hwaits : y ∉ s.ready := fun hmem => hleft.ne' ((h.ready y).1 hmem).2.2
      by_cases hzero : n = 0 <;> simp [hzero, mem_insert, hwaits, hx, hnot, hn]
    · have hmem : y ∈ (if n == 0 then Sorting.insert x s.ready else s.ready) ↔ y ∈ s.ready := by
        split <;> simp [mem_insert, heq]
      exact hmem.trans ((h.ready y).trans (and_congr_right fun hy => by rw [if_neg fun h => heq (hsame hy h)]))
  · dsimp only
    split
    · refine pairwise_insert (fun y hy heq => ?_) h.sorted
      obtain ⟨hmem, _, hzero⟩ := (h.ready y).1 hy
      exact hleft.ne' (hsame hmem heq.symm ▸ hzero)
    · exact h.sorted
  · have hne : y.2 ≠ x.2 := fun heq => hnot (heq ▸ hdone)
    rw [if_neg hne]
    exact h.settled y hy hdone

/-- All in a list are released, each once. -/
lemma releases : ∀ {xs : List Placed} {left : Placed → Nat} {s : Sorting}, Counts ds left done s →
    (xs.map (·.2)).Nodup → (∀ x ∈ xs, x ∈ ds.zipIdx ∧ 0 < left x) →
      Counts ds (fun y => if y.2 ∈ xs.map (·.2) then left y - 1 else left y) done (xs.foldl Sorting.release s)
  | [], left, s, h, _, _ => h.congr fun _ _ => (if_neg not_mem_nil).symm
  | x :: xs, left, s, h, hnodup, hxs => by
    rw [map_cons, nodup_cons] at hnodup
    obtain ⟨⟨hx, hleft⟩, hxs⟩ := forall_mem_cons.1 hxs
    refine (releases (h.release hx hleft) hnodup.2 fun y hy => ?_).congr fun y hy => ?_
    · have hne : y.2 ≠ x.2 := fun heq => hnodup.1 (heq ▸ mem_map_of_mem hy)
      rw [if_neg hne]
      exact hxs y hy
    · by_cases heq : y.2 = x.2
      · simp [heq, hnodup.1]
      · simp only [heq, if_false, map_cons, mem_cons, false_or]

/-- The first one that is ready is taken. -/
lemma take {rest : List Placed} (h : Counts ds left done s) (hready : s.ready = x :: rest) :
    Counts ds left (x.2 :: done) ⟨s.pending, rest⟩ := by
  have hsorted := h.sorted
  rw [hready, pairwise_cons] at hsorted
  obtain ⟨hx, hnot, hzero⟩ := (h.ready x).1 (hready ▸ mem_cons_self)
  refine ⟨h.pending, fun y => ?_, hsorted.2, fun y hy hdone => ?_⟩
  · have hrest : y ∈ rest ↔ y ∈ s.ready ∧ y.2 ≠ x.2 := by
      rw [hready, mem_cons]
      refine ⟨fun hy => ⟨.inr hy, fun heq => ?_⟩, fun hy => hy.1.resolve_left fun h => hy.2 (congrArg _ h)⟩
      have hsame := eq_of_position ((h.ready y).1 (hready ▸ .tail _ hy)).1 hx heq
      exact not_before_self (hsame ▸ hsorted.1 y hy)
    rw [hrest, h.ready, mem_cons, not_or]
    tauto
  · rcases mem_cons.1 hdone with heq | hdone
    · exact eq_of_position hy hx heq ▸ hzero
    · exact h.settled y hy hdone

end Counts

/-- What a definition needs of those that have not come. -/
def unmet (ds : List Definition) (done : List Nat) (x : Placed) : List Nat := (needed ds x).filter (· ∉ done)

lemma length_unmet_cons {j : Nat} (hj : j ∉ done) : (unmet ds (j :: done) x).length =
    if j ∈ needed ds x then (unmet ds done x).length - 1 else (unmet ds done x).length := by
  have hnodup : (unmet ds done x).Nodup := (nodup_needed ds x).filter _
  have herase : unmet ds (j :: done) x = (unmet ds done x).erase j := by
    rw [hnodup.erase_eq_filter, unmet, unmet, filter_filter]
    refine filter_congr fun i _ => ?_
    by_cases hi : i = j <;> simp [hi]
  have hmem : j ∈ unmet ds done x ↔ j ∈ needed ds x := by simp [unmet, hj]
  rw [herase, length_erase]
  simp only [hmem]

lemma unmet_eq_nil : (unmet ds done x).length = 0 ↔ ∀ j ∈ needed ds x, j ∈ done := by
  simp [unmet]

/-- The counters count what is unmet. -/
abbrev Sorting.Counting (ds : List Definition) (done : List Nat) (s : Sorting) : Prop :=
  Counts ds (fun x => (unmet ds done x).length) done s

lemma counting_start (ds : List Definition) : (start ds).Counting ds [] := by
  have hunmet (x : Placed) : unmet ds [] x = needed ds x := filter_eq_self.2 fun _ _ => by simp
  refine ⟨fun x hx => ?_, fun x => ?_, ?_, fun _ _ h => nomatch h⟩
  · rw [hunmet, start, getElem?_map, getElem?_zipIdx, mem_zipIdx_iff_getElem?.1 hx]
    simp
  · simp [start, mem_foldr_insert, hunmet]
  · have hpositions := (nodup_positions ds).sublist
      (filter_sublist (p := fun x => (needed ds x).isEmpty) |>.map (·.2))
    exact pairwise_foldr_insert hpositions

/-- One round of the sorting. -/
lemma counting_next {rest : List Placed} (h : s.Counting ds done) (hready : s.ready = x :: rest) :
    ((users ds x).foldl release ⟨s.pending, rest⟩).Counting ds (x.2 :: done) := by
  obtain ⟨hx, hnot, -⟩ := (h.ready x).1 (hready ▸ mem_cons_self)
  have husers : ((users ds x).map (·.2)).Nodup := (nodup_positions ds).sublist (filter_sublist.map _)
  refine ((h.take hready).releases husers fun y hy => ?_).congr fun y hy => ?_
  · obtain ⟨hmem, hneeds⟩ := mem_users.1 hy
    exact ⟨hmem, length_pos_of_mem (mem_filter.2 ⟨hneeds, by simpa using hnot⟩)⟩
  · have hmem : y.2 ∈ (users ds x).map (·.2) ↔ x.2 ∈ needed ds y := by
      refine ⟨fun h => ?_, fun h => mem_map_of_mem (mem_users.2 ⟨hy, h⟩)⟩
      obtain ⟨z, hz, heq⟩ := mem_map.1 h
      obtain ⟨hz, hneeds⟩ := mem_users.1 hz
      exact eq_of_position hz hy heq ▸ hneeds
    simp only [hmem, length_unmet_cons hnot]

/-! ## The definitions that are taken -/

/-- A definition that is still to come and needs only what has come. -/
structure Ready (ds : List Definition) (done : List Nat) (x : Placed) : Prop where
  mem : x ∈ ds.zipIdx
  waits : x.2 ∉ done
  met : ∀ j ∈ needed ds x, j ∈ done

/-- After `done` come always the least of the ready ones, until none is ready. -/
inductive Chosen (ds : List Definition) : List Nat → List Placed → Prop where
  | stop {done : List Nat} (h : ∀ x, ¬ Ready ds done x) : Chosen ds done []
  | next {done : List Nat} {x : Placed} {rest : List Placed} (h : Ready ds done x)
    (hleast : ∀ y, Ready ds done y → y = x ∨ x.before y) (hrest : Chosen ds (x.2 :: done) rest) :
    Chosen ds done (x :: rest)

/-- By name, then by position. -/
def Precedes (ds : List Definition) (d e : Definition) : Prop := d.name < e.name ∨ d.name = e.name ∧ [d, e].Sublist ds

lemma precedes_of_before (hx : x ∈ ds.zipIdx) (hy : y ∈ ds.zipIdx) (h : x.before y) : Precedes ds x.1 y.1 := by
  refine (before_iff.1 h).imp_right fun ⟨hname, hlt⟩ => ⟨hname, ?_⟩
  rw [mem_zipIdx_iff_getElem?] at hx hy
  have hfirst : x.1 ∈ ds.take y.2 := mem_of_getElem? (by rw [getElem?_take_of_lt hlt, hx])
  have hsecond : y.1 ∈ ds.drop y.2 := mem_of_getElem? (i := 0) (by rw [getElem?_drop, Nat.add_zero, hy])
  rw [← take_append_drop y.2 ds]
  exact (singleton_sublist.2 hfirst).append (singleton_sublist.2 hsecond)

lemma ready_iff (h : s.Counting ds done) : x ∈ s.ready ↔ Ready ds done x := by
  rw [h.ready, unmet_eq_nil]
  exact ⟨fun ⟨hmem, hwaits, hmet⟩ => ⟨hmem, hwaits, hmet⟩, fun ⟨hmem, hwaits, hmet⟩ => ⟨hmem, hwaits, hmet⟩⟩

lemma chosen_order (h : s.Counting ds done) : Chosen ds done (s.order ds) := by
  fun_induction order ds s generalizing done with
  | case1 => exact .stop fun x hx => nomatch (ready_iff h).2 hx
  | case2 pending x rest ih =>
    have hsorted := pairwise_cons.1 h.sorted
    refine .next ((ready_iff h).1 mem_cons_self) (fun y hy => ?_) (ih (counting_next h rfl))
    exact (mem_cons.1 ((ready_iff h).2 hy)).imp_right (hsorted.1 y)

namespace Chosen

variable {rest : List Placed}

lemma mem (h : Chosen ds done rest) : ∀ x ∈ rest, x ∈ ds.zipIdx ∧ x.2 ∉ done := by
  induction h with
  | stop => nofun
  | next h _ _ ih =>
    refine forall_mem_cons.2 ⟨⟨h.mem, h.waits⟩, fun y hy => ?_⟩
    exact ⟨(ih y hy).1, fun hdone => (ih y hy).2 (.tail _ hdone)⟩

/-- No definition needs a later one. -/
lemma pairwise (h : Chosen ds done rest) : rest.Pairwise fun x y => y.2 ≠ x.2 ∧ y.2 ∉ needed ds x := by
  induction h with
  | stop => exact .nil
  | next h _ hrest ih =>
    refine pairwise_cons.2 ⟨fun y hy => ?_, ih⟩
    obtain ⟨hne, hnot⟩ := not_or.1 (mem_cons.not.1 (hrest.mem y hy).2)
    exact ⟨hne, fun hneeds => hnot (h.met _ hneeds)⟩

/-- All come if needs end somewhere. -/
lemma covers {r : Placed → Placed → Prop} (hwf : WellFounded r)
    (hr : ∀ x ∈ ds.zipIdx, ∀ y ∈ ds.zipIdx, y.2 ∈ needed ds x → r y x) (h : Chosen ds done rest) :
    ∀ x ∈ ds.zipIdx, x.2 ∉ done → x ∈ rest := by
  induction h with
  | @stop done h =>
    intro x hx hwaits
    obtain ⟨y, ⟨hy, hwaits⟩, hmin⟩ := hwf.has_min { y | y ∈ ds.zipIdx ∧ y.2 ∉ done } ⟨x, hx, hwaits⟩
    refine absurd ⟨hy, hwaits, fun j hj => ?_⟩ (h y)
    obtain ⟨z, hz, rfl⟩ := exists_of_mem_needed hj
    exact by_contra fun hnot => hmin z ⟨hz, hnot⟩ (hr y hy z hz hj)
  | @next done x _ h _ _ ih =>
    intro y hy hwaits
    by_cases heq : y.2 = x.2
    · exact eq_of_position hy h.mem heq ▸ mem_cons_self
    · exact .tail _ (ih y hy (by simp [heq, hwaits]))

/-- The first one of any order is ready, so what is taken instead of it precedes it. -/
lemma least (h : Chosen ds done rest) : ∀ {other : List Placed}, (∀ x, x ∈ other ↔ x ∈ ds.zipIdx ∧ x.2 ∉ done) →
    (other.Pairwise fun x y => y.2 ≠ x.2 ∧ y.2 ∉ needed ds x) →
      rest.map (·.1) = other.map (·.1) ∨ List.Lex (Precedes ds) (rest.map (·.1)) (other.map (·.1)) := by
  have hfirst {done : List Nat} {y : Placed} {other : List Placed}
      (hmem : ∀ x, x ∈ y :: other ↔ x ∈ ds.zipIdx ∧ x.2 ∉ done)
      (hpairs : (y :: other).Pairwise fun x y => y.2 ≠ x.2 ∧ y.2 ∉ needed ds x) : Ready ds done y := by
    obtain ⟨hy, hwaits⟩ := (hmem y).1 mem_cons_self
    refine ⟨hy, hwaits, fun j hj => by_contra fun hnot => ?_⟩
    obtain ⟨z, hz, rfl⟩ := exists_of_mem_needed hj
    rcases mem_cons.1 ((hmem z).2 ⟨hz, hnot⟩) with rfl | hother
    · exact ((mem_needed hz).1 hj).1 rfl
    · exact (rel_of_pairwise_cons hpairs hother).2 hj
  induction h with
  | @stop done h =>
    intro other hmem hpairs
    cases other with
    | nil => exact .inl rfl
    | cons y other => exact absurd (hfirst hmem hpairs) (h y)
  | @next done x _ h hleast hrest ih =>
    intro other hmem hpairs
    cases other with
    | nil => exact nomatch (hmem x).2 ⟨h.mem, h.waits⟩
    | cons y other =>
      have hready := hfirst hmem hpairs
      rcases hleast y hready with rfl | hbefore
      · refine (ih (fun z => ⟨fun hz => ?_, fun hz => ?_⟩) hpairs.of_cons).imp (congrArg (y.1 :: ·)) .cons
        · obtain ⟨hmem, hwaits⟩ := (hmem z).1 (.tail _ hz)
          exact ⟨hmem, mem_cons.not.2 (not_or.2 ⟨(rel_of_pairwise_cons hpairs hz).1, hwaits⟩)⟩
        · obtain ⟨hne, hwaits⟩ := not_or.1 (mem_cons.not.1 hz.2)
          exact (mem_cons.1 ((hmem z).2 ⟨hz.1, hwaits⟩)).resolve_left fun heq => hne (congrArg _ heq)
      · exact .inr (.rel (precedes_of_before h.mem hready.mem hbefore))

end Chosen

lemma chosen_start (ds : List Definition) : Chosen ds [] ((start ds).order ds) := chosen_order (counting_start ds)

lemma mem_of_mem_definitionOrder {d : Definition} (h : d ∈ definitionOrder ds) : d ∈ ds := by
  obtain ⟨x, hx, rfl⟩ := mem_map.1 h
  have hmem : x ∈ ds.zipIdx := (mem_append.1 hx).elim (fun h => ((chosen_start ds).mem x h).1) (mem_filter.1 · |>.1)
  exact mem_of_getElem? (mem_zipIdx_iff_getElem?.1 hmem)

lemma pairwise_order (ds : List Definition) :
    (((start ds).order ds).map (·.1)).Pairwise fun d e => e.id ∉ d.needs :=
  pairwise_map.2 <| (chosen_start ds).pairwise.imp_of_mem fun _ hy h hneed =>
    h.2 ((mem_needed ((chosen_start ds).mem _ hy).1).2 ⟨h.1, hneed⟩)

/-! ## Definitions of different types -/

section Nodup

variable {r : TypeId → TypeId → Prop} (hnodup : (ds.map (·.id)).Nodup)

include hnodup

lemma position_eq (hx : x ∈ ds.zipIdx) (hy : y ∈ ds.zipIdx) (h : x.1.id = y.1.id) : x.2 = y.2 := by
  rw [mem_zipIdx_iff_getElem?] at hx hy
  have hbound : x.2 < (ds.map (·.id)).length := by
    rw [length_map]
    exact (List.getElem?_eq_some_iff.1 hx).1
  refine (getElem?_inj hbound hnodup).1 ?_
  rw [getElem?_map, getElem?_map, hx, hy, Option.map_some, Option.map_some, h]

lemma zipIdx_eq_map : ds.zipIdx = ds.map fun d => (d, ds.findIdx (·.id == d.id)) := by
  refine ext_getElem (by simp) fun i h h' => ?_
  rw [length_zipIdx] at h
  have hfind : ds.findIdx (·.id == ds[i].id) = i := by
    rw [findIdx_eq h]
    refine ⟨beq_self_eq_true _, fun j hj => beq_eq_false_iff_ne.2 fun hid => hj.ne ?_⟩
    exact position_eq hnodup (mk_mem_zipIdx_iff_getElem?.2 (getElem?_eq_getElem (hj.trans h)))
      (mk_mem_zipIdx_iff_getElem?.2 (getElem?_eq_getElem h)) hid
  simp [hfind]

/-- All definitions are taken if needs end somewhere, and none needs a later one. -/
lemma order_takes_all (hwf : WellFounded r) (hr : ∀ d ∈ ds, ∀ e ∈ ds, e.id ∈ d.needs → e.id ≠ d.id → r e.id d.id) :
    definitionOrder ds = ((start ds).order ds).map (·.1) ∧
      (definitionOrder ds).Perm ds ∧ (definitionOrder ds).Pairwise fun d e => e.id ∉ d.needs := by
  have hchosen := chosen_start ds
  have hcovers := hchosen.covers (InvImage.wf (fun x : Placed => x.1.id) hwf) fun x hx y hy hneeds => by
    obtain ⟨hne, hneed⟩ := (mem_needed hy).1 hneeds
    exact hr _ (mem_of_getElem? (mem_zipIdx_iff_getElem?.1 hx)) _ (mem_of_getElem? (mem_zipIdx_iff_getElem?.1 hy)) hneed
      fun hid => hne (position_eq hnodup hy hx hid)
  have hleft : (ds.zipIdx.filter fun x => !((start ds).order ds).any (·.2 == x.2)) = [] :=
    filter_eq_nil_iff.2 fun x hx => by
      have hany : ((start ds).order ds).any (·.2 == x.2) = true :=
        any_eq_true.2 ⟨x, hcovers x hx not_mem_nil, by simp⟩
      simp [hany]
  have horder : definitionOrder ds = ((start ds).order ds).map (·.1) := by
    unfold definitionOrder
    dsimp only
    rw [hleft, append_nil]
  have hplaced : ((start ds).order ds).Nodup := hchosen.pairwise.imp fun h heq => h.1 (congrArg _ heq.symm)
  have hperm : ((start ds).order ds).Perm ds.zipIdx :=
    (perm_ext_iff_of_nodup hplaced (.of_map _ (nodup_positions ds))).2 fun x =>
      ⟨fun hx => (hchosen.mem x hx).1, fun hx => hcovers x hx not_mem_nil⟩
  refine ⟨horder, ?_, horder ▸ pairwise_order ds⟩
  have hmap := hperm.map (·.1)
  rwa [← horder, zipIdx_map_fst] at hmap

lemma order_least {other : List Definition} (hperm : other.Perm ds) (hpairs : other.Pairwise fun d e => e.id ∉ d.needs) :
    ((start ds).order ds).map (·.1) = other ∨ List.Lex (Precedes ds) (((start ds).order ds).map (·.1)) other := by
  let place (d : Definition) : Placed := (d, ds.findIdx (·.id == d.id))
  have hplaced : (other.map place).Perm ds.zipIdx := by
    rw [zipIdx_eq_map hnodup]
    exact hperm.map place
  have hpositions : ((other.map place).map (·.2)).Nodup := (hplaced.map _).nodup_iff.2 (nodup_positions ds)
  have hneeds : (other.map place).Pairwise fun x y => y.1.id ∉ x.1.needs := pairwise_map.2 hpairs
  have hlater : (other.map place).Pairwise fun x y => y.2 ≠ x.2 ∧ y.2 ∉ needed ds x :=
    (hneeds.and (pairwise_map.1 hpositions)).imp_of_mem fun hx hy h =>
      ⟨h.2.symm, fun hneeded => h.1 ((mem_needed (hplaced.mem_iff.1 hy)).1 hneeded).2⟩
  have hleast := (chosen_start ds).least (fun x => by simp [hplaced.mem_iff]) hlater
  rwa [map_map, show Prod.fst ∘ place = id from rfl, map_id] at hleast

end Nodup

/-- Of two types that are to be defined, the one holds the other by value. -/
def Holds (ds : List Definition) (id need : TypeId) : Prop :=
  need ≠ id ∧ (∃ d ∈ ds, d.id = id ∧ need ∈ d.needs) ∧ ∃ e ∈ ds, e.id = need

/-- If no type holds itself through others, then each is defined once, none needs a later one, and no such
order is less. -/
theorem definitionOrder_least (hnodup : (ds.map (·.id)).Nodup) (hacyclic : ∀ id, ¬ Relation.TransGen (Holds ds) id id) :
    (definitionOrder ds).Perm ds ∧ ((definitionOrder ds).Pairwise fun d e => e.id ∉ d.needs) ∧
      ∀ other : List Definition, other.Perm ds → (other.Pairwise fun d e => e.id ∉ d.needs) →
        definitionOrder ds = other ∨ List.Lex (Precedes ds) (definitionOrder ds) other := by
  have : IsStrictOrder TypeId fun a b => Relation.TransGen (Holds ds) b a :=
    { irrefl := hacyclic, trans := fun _ _ _ h h' => h'.trans h }
  have hwf := Set.wellFoundedOn_iff.1 ((finite_toSet (ds.map (·.id))).wellFoundedOn
    (r := fun a b => Relation.TransGen (Holds ds) b a))
  have hids {d : Definition} (hd : d ∈ ds) : d.id ∈ ds.map (·.id) := mem_map_of_mem hd
  obtain ⟨horder, hperm, hpairwise⟩ := order_takes_all hnodup hwf fun d hd e he hneed hne =>
    ⟨.single ⟨hne, ⟨d, hd, rfl, hneed⟩, e, he, rfl⟩, hids he, hids hd⟩
  exact ⟨hperm, hpairwise, fun other hother hpairs => horder ▸ order_least hnodup hother hpairs⟩

/-- `B` holds `C`, and `A` neither. -/
def three : Check.Checker :=
  checkInOrder [⟨"main", parseUnit ⟨0⟩ ("struct B \x7b c: C \x7d struct C \x7b x: i64 \x7d " ++
    "struct A \x7b b: bool \x7d") 256, false⟩] [0] {}

/-- The definitions of the structs of a program. -/
def structDefinitions (p : Program) : List Definition :=
  let ids := p.defs.toList.filterMap fun d =>
    match d.kind with
    | .struct s => some s.selfType
    | _ => none
  match ids.mapM definition { naming := { entry := ⟨0⟩ } } { program := p } with
  | .ok (ds, _) => ds
  | .error _ => []

set_option maxRecDepth 100000 in
theorem definitionOrder_least_three : hasErrors three.diagnostics.toList = false ∧
    (definitionOrder (structDefinitions three.program)).map (·.name) = ["A", "C", "B"] ∧
    (definitionOrder (structDefinitions three.program)).Perm (structDefinitions three.program) := by
  have hlater : ∀ d ∈ structDefinitions three.program, ∀ need ∈ d.needs, d.id.index < need.index := by decide +kernel
  refine ⟨by decide +kernel, by decide +kernel, (definitionOrder_least (by decide +kernel) fun id hcycle => ?_).1⟩
  have hlt := hcycle.lift TypeId.index (p := (· < ·)) fun _ need h => by
    obtain ⟨-, ⟨d, hd, rfl, hneed⟩, -⟩ := h
    exact hlater d hd need hneed
  rw [Relation.transGen_eq_self] at hlt
  exact Nat.lt_irrefl _ hlt

end Kite.Emission
