/-
The search of the check of containment. It meets every declaration that a value of the given one
holds, directly or through others, so a declaration that is not found to hold itself does not.
-/
import Mathlib.Data.Finset.Card
import Mathlib.Logic.Relation
import Mathlib.Order.WellFounded
import Kite.Check.Containment
import Kite.Proofs.Typing.Ty

namespace Kite.Program

open List

variable {p : Program} {target decl : DefId} {met met' : List DefId}

/-- The number of declarations that were not met. -/
def unmet (p : Program) (met : List DefId) : Nat :=
  ((Finset.range p.defs.size).filter fun i => (⟨i⟩ : DefId) ∉ met).card

lemma unmet_le_of_subset (h : met ⊆ met') : p.unmet met' ≤ p.unmet met := by
  refine Finset.card_le_card fun i hi => ?_
  simp only [Finset.mem_filter] at hi ⊢
  exact ⟨hi.1, fun hmet => hi.2 (h hmet)⟩

lemma unmet_cons_lt (hlt : decl.index < p.defs.size) (hnew : decl ∉ met) : p.unmet (decl :: met) < p.unmet met := by
  refine Finset.card_lt_card ⟨fun i hi => ?_, fun hsub => ?_⟩
  · simp only [Finset.mem_filter, mem_cons, not_or] at hi ⊢
    exact ⟨hi.1, hi.2.2⟩
  · have hmem : decl.index ∈ (Finset.range p.defs.size).filter fun i => (⟨i⟩ : DefId) ∉ met := by
      simp only [Finset.mem_filter, Finset.mem_range]
      exact ⟨hlt, hnew⟩
    have hnot := hsub hmem
    exact (Finset.mem_filter.1 hnot).2 (.head _)

lemma held_eq_nil (h : p.defs.size ≤ decl.index) : p.held decl = [] := by
  unfold held members?
  rw [getDef_eq_default h]
  rfl

/-- From the declarations met at first on, all were followed; none of them is the target. -/
structure Follows (p : Program) (target : DefId) (met met' : List DefId) : Prop where
  subset : met ⊆ met'
  followed : ∀ decl ∈ met', decl ∈ met ∨ ∀ other ∈ p.held decl, other ∈ met' ∧ other ≠ target

lemma Follows.refl (met : List DefId) : Follows p target met met := ⟨List.Subset.refl _, fun _ h => .inl h⟩

lemma Follows.trans (h : Follows p target met met') (h' : Follows p target met' met'') :
    Follows p target met met'' := by
  refine ⟨List.Subset.trans h.subset h'.subset, fun decl hdecl => ?_⟩
  rcases h'.followed decl hdecl with hdecl | hall
  · rcases h.followed decl hdecl with hdecl | hall
    · exact .inl hdecl
    · exact .inr fun other hother => ⟨h'.subset (hall other hother).1, (hall other hother).2⟩
  · exact .inr hall

lemma follows_anyM {f : DefId → StateM (List DefId) Bool}
    (hf : ∀ decl met, p.unmet met < n → (f decl met).1 = false →
      Follows p target met (f decl met).2 ∧ decl ∈ (f decl met).2 ∧ decl ≠ target) :
    ∀ (decls met : List DefId), p.unmet met < n → (decls.anyM f met).1 = false →
      Follows p target met (decls.anyM f met).2 ∧ ∀ decl ∈ decls, decl ∈ (decls.anyM f met).2 ∧ decl ≠ target
  | [], met, _, _ => ⟨.refl met, by simp⟩
  | decl :: decls, met, hn, h => by
    have hrun : (decl :: decls).anyM f met =
        if (f decl met).1 then (true, (f decl met).2) else decls.anyM f (f decl met).2 := by
      show (match (f decl met).1 with | true => pure true | false => decls.anyM f : StateM _ Bool) (f decl met).2 = _
      cases (f decl met).1 <;> rfl
    rw [hrun] at h ⊢
    cases hfirst : (f decl met).1 with
    | true =>
      rw [hfirst] at h
      cases h
    | false =>
      rw [hfirst] at h
      obtain ⟨hfollows, hmem, hne⟩ := hf decl met hn hfirst
      have hn' : p.unmet (f decl met).2 < n := Nat.lt_of_le_of_lt (unmet_le_of_subset hfollows.subset) hn
      obtain ⟨hrest, hdecls⟩ := follows_anyM hf decls _ hn' h
      exact ⟨hfollows.trans hrest, forall_mem_cons.2 ⟨⟨hrest.subset hmem, hne⟩, hdecls⟩⟩

/-- A search that does not meet the target has followed all it met. The bound is not reached, since
every declaration is followed once. -/
lemma follows_reachesWithin : ∀ n decl met, p.unmet met < n →
    (p.reachesWithin target n decl met).1 = false →
      Follows p target met (p.reachesWithin target n decl met).2 ∧
        decl ∈ (p.reachesWithin target n decl met).2 ∧ decl ≠ target
  | n + 1, decl, met, hn, h => by
    have hrun : p.reachesWithin target (n + 1) decl met =
        if decl == target then (true, met)
        else if met.contains decl then (false, met)
        else (p.held decl).anyM (p.reachesWithin target n) (decl :: met) := by
      rw [reachesWithin]
      split
      · rfl
      · show (if met.contains decl then _ else _ : StateM _ Bool) met = _
        split <;> rfl
    rw [hrun] at h ⊢
    by_cases htarget : decl = target
    · rw [if_pos (by simpa using htarget)] at h
      cases h
    rw [if_neg (by simpa using htarget)] at h ⊢
    by_cases hmet : decl ∈ met
    · rw [if_pos (by simpa using hmet)]
      exact ⟨.refl met, hmet, htarget⟩
    rw [if_neg (by simpa using hmet)] at h ⊢
    by_cases hlt : decl.index < p.defs.size
    · have hn' : p.unmet (decl :: met) < n := by
        have := unmet_cons_lt hlt hmet
        omega
      obtain ⟨hfollows, hheld⟩ := follows_anyM (follows_reachesWithin n) _ _ hn' h
      refine ⟨⟨fun _ hmem => hfollows.subset (.tail _ hmem), fun other hother => ?_⟩,
        hfollows.subset (.head _), htarget⟩
      rcases hfollows.followed other hother with hmem | hall
      · rcases mem_cons.1 hmem with rfl | hmem
        · exact .inr hheld
        · exact .inl hmem
      · exact .inr hall
    · rw [held_eq_nil (by omega)]
      refine ⟨⟨fun _ hmem => .tail _ hmem, fun other hother => ?_⟩, .head _, htarget⟩
      rcases mem_cons.1 hother with rfl | hmem
      · exact .inr (by rw [held_eq_nil (by omega)]; simp)
      · exact .inl hmem

lemma not_held_of_holdsItself (h : p.holdsItself decl = false) :
    ¬ Relation.TransGen (fun decl other => other ∈ p.held decl) decl decl := by
  have hn : p.unmet [decl] < p.defs.size + 1 := by
    have hle := Finset.card_filter_le (Finset.range p.defs.size) fun i => (⟨i⟩ : DefId) ∉ [decl]
    rw [Finset.card_range] at hle
    exact Nat.lt_succ_of_le hle
  obtain ⟨hfollows, hheld⟩ := follows_anyM (follows_reachesWithin (p.defs.size + 1)) _ _ hn h
  generalize ((p.held decl).anyM (p.reachesWithin decl (p.defs.size + 1)) [decl]).2 = met at hfollows hheld
  have hreached : ∀ other, Relation.TransGen (fun decl other => other ∈ p.held decl) decl other →
      other ∈ met ∧ other ≠ decl := by
    intro other hreach
    induction hreach with
    | single hother => exact hheld _ hother
    | tail _ hstep ih =>
      rcases hfollows.followed _ ih.1 with hfirst | hall
      · exact absurd (mem_singleton.1 hfirst) ih.2
      · exact hall _ hstep
  exact fun hcycle => (hreached decl hcycle).2 rfl

def Finite (p : Program) : Prop := ∀ decl, ¬ Relation.TransGen (fun decl other => other ∈ p.held decl) decl decl

lemma wellFounded_held (h : p.Finite) : WellFounded fun other decl => other ∈ p.held decl := by
  classical
  -- Fewer declarations are held by what is held.
  let below (decl : DefId) : Finset Nat := (Finset.range p.defs.size).filter fun i =>
    Relation.TransGen (fun decl other => other ∈ p.held decl) decl ⟨i⟩
  refine ⟨fun decl => ?_⟩
  induction hcard : (below decl).card using Nat.strong_induction_on generalizing decl with
  | _ count ih =>
    refine ⟨_, fun other hother => ?_⟩
    by_cases hlt : other.index < p.defs.size
    · refine ih _ ?_ other rfl
      rw [← hcard]
      refine Finset.card_lt_card ⟨fun i hi => ?_, fun hsub => ?_⟩
      · obtain ⟨hi, hreach⟩ := Finset.mem_filter.1 hi
        exact Finset.mem_filter.2 ⟨hi, .head hother hreach⟩
      · have hmem : other.index ∈ below decl := Finset.mem_filter.2 ⟨Finset.mem_range.2 hlt, .single hother⟩
        exact h other (Finset.mem_filter.1 (hsub hmem)).2
    · refine ⟨_, fun _ hmem => ?_⟩
      rw [held_eq_nil (by omega)] at hmem
      cases hmem

end Kite.Program
