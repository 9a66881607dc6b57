/-
The laws of substitution. It adds types to the table while it runs, so two runs are compared in a
table that comes after both of them: there `Puts` says of each what it has made, and a type has one
handle only.
-/
import Kite.Proofs.Types.Handles
import Kite.Proofs.Types.Matching

namespace Kite

open List TypeM TypeShape

namespace TypeTable

variable {table : TypeTable} {s s₁ s₂ : Subst} {t r r₁ r₂ : TypeId}

lemma shape_void : table.shape .void = .void := shape_fixed (i := 1) (by decide)

namespace Puts

lemma hasParams (h : table.Puts s.get? t r) (hbound : ∀ param, table.mentions [param] t → ∃ x, s.get? param = some x ∧
    table.hasParams x = false) : table.hasParams r = false := by
  have hmade {r : TypeId} (hself : (table.shape r).isParam = false)
      (hparts : ∀ part ∈ (table.shape r).parts, table.hasParams part = false) : table.hasParams r = false := by
    rw [TypeTable.hasParams, any_eq, hself, Bool.false_or, any_eq_false]
    exact fun part hpart => Bool.eq_false_iff.1 (hparts part hpart)
  induction h with
  | @param t param name h =>
    obtain ⟨x, hget, hx⟩ := hbound param (mentions_iff.2 (.inl ⟨name, h⟩))
    rwa [hget]
  | unit => exact hmade (by rw [shape_void]; rfl) (by rw [shape_void]; exact forall_mem_nil _)
  | @leaf t h hparam =>
    refine hmade ?_ (by rw [h]; exact forall_mem_nil _)
    cases hshape : table.shape t with
    | param param name => exact absurd hshape (hparam param name)
    | _ => rfl
  | @parts t r ids hne hr hshape hlen _ ih =>
    refine hmade ?_ fun part hpart => ?_
    · cases hparam : table.shape r with
      | param => exact absurd (by rw [← hshape, hparam]; rfl) (parts_withParts_ne_nil hlen hne)
      | _ => rfl
    · rw [hshape, parts_withParts hlen] at hpart
      obtain ⟨i, hi, rfl⟩ := getElem_of_mem hpart
      have hpart := ih i fun param hmention => hbound param (mentions_iff.2 (.inr ⟨_, ?_, hmention⟩))
      · simpa [hi] using hpart
      · simp [-TypeShape.parts, ← hlen, hi]

end Puts

/-- Before the table was made, the bindings were put into a type, with this result. -/
def Gave (table : TypeTable) (s : Subst) (t r : TypeId) : Prop :=
  ∃ now : TypeTable, now.Holds t ∧ s.Held now ∧ (TypeM.subst s t now).1 = r ∧ (TypeM.subst s t now).2 ≤ table

/-- What comes out, by what is bound. If that is nothing, the type is not gone through. -/
def Result (table : TypeTable) (g : ParamId → Option TypeId) (t r : TypeId) : Prop :=
  g = (fun _ => none) ∧ r = t ∨ g ≠ (fun _ => none) ∧ table.Puts g t r

lemma Gave.result (h : table.Gave s t r) : table.Result s.get? t r := by
  obtain ⟨now, ht, hheld, rfl, hle⟩ := h
  rcases s with _ | ⟨⟨param, id⟩, s⟩
  · exact .inl ⟨rfl, rfl⟩
  · refine .inr ⟨fun h => ?_, (substFrom_puts _ t now (Nat.lt_succ_self _) ht hheld).2.2 table hle⟩
    simpa [Subst.get?_cons] using congrFun h param

/-- The tuple of nothing is spelled out nowhere; `tuple` gives `void` for it. -/
abbrev Unitless (table : TypeTable) : Prop := table.All (· ≠ .tuple [])

lemma Unitless.any (h : table.Unitless) (id : TypeId) (hid : table.Holds id) :
    table.any (· == .tuple []) id = false := by
  rw [any_eq, Bool.or_eq_false_iff, any_eq_false]
  refine ⟨beq_false_of_ne (h _ (Array.mem_of_getElem? (getElem?_shapes hid))), fun part hpart => ?_⟩
  have hlt := table.parts_shape_lt hpart
  rw [Unitless.any h part (hid.part hpart)]
  exact Bool.false_ne_true
termination_by id.index

end TypeTable

namespace Interning

end Interning

namespace TypeTable

/-- Spelled out, the tuple of nothing has no parameter either, and still does not stay what it is. -/
theorem subst_spelled_unit : (TypeM.subst [(⟨0⟩, .bool)] ⟨17⟩ (TypeM.intern (.tuple []) initial).2).1 = .void ∧
    (TypeM.intern (.tuple []) initial).1 = ⟨17⟩ := by
  decide +kernel

end TypeTable

end Kite
