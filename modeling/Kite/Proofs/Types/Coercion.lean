/-
Implicit conversions order the types. `Coerces` has a rule for each of them: a value becomes an
optional at any depth, so a type lies below another one if it has no more optional layers and what
is under them is the same or widens. Between types without error parts this is a partial order, and
two branches have a common type exactly if one of them lies below the other.
-/
import Kite.Proofs.Types.Handles
import Kite.Proofs.Types.Matching

namespace Kite

lemma IntTy.fits_of_widensTo {t u : IntTy} (h : t.widensTo u) (hfits : t.fits value) : u.fits value := by
  rw [fits, Bool.and_eq_true, decide_eq_true_iff, decide_eq_true_iff] at hfits ⊢
  have hrange : u.min ≤ t.min ∧ t.max ≤ u.max := by
    revert h
    cases t <;> cases u <;> decide
  omega

namespace TypeTable

inductive Coerces (table : TypeTable) : TypeId → TypeId → Prop where
  | refl (a : TypeId) : Coerces table a a
  | never (b : TypeId) : Coerces table .never b
  | int (ha : table.shape a = .int t) (hb : table.shape b = .int u)
    (h : t.widensTo u) : Coerces table a b
  | float (ha : table.shape a = .float .f32) (hb : table.shape b = .float .f64) : Coerces table a b
  | view {inner : TypeId} (ha : table.shape a = .view true inner) (hb : table.shape b = .view false inner) :
    Coerces table a b
  | optionals (ha : table.shape a = .optional x) (hb : table.shape b = .optional y)
    (h : Coerces table x y) : Coerces table a b
  | some (ha : ∀ x, table.shape a ≠ .optional x) (hb : table.shape b = .optional y)
    (h : Coerces table a y) : Coerces table a b

variable {table : TypeTable} {a b c : TypeId}

namespace Coerces

lemma eq_never (h : Coerces table a .never) : a = .never := by
  cases h with
  | refl | never => rfl
  | _ => simp_all [shape_never]

lemma trans (h : Coerces table a b) (h' : Coerces table b c) : Coerces table a c := by
  induction h' generalizing a with
  | refl => exact h
  | never => exact h.eq_never ▸ .never _
  | int hb hc hwidens =>
    cases h with
    | refl => exact .int hb hc hwidens
    | never => exact .never _
    | int ha hb' hwidens' =>
      cases hb.symm.trans hb'
      refine .int ha hc ?_
      simp only [IntTy.widensTo, Bool.and_eq_true, Bool.or_eq_true, decide_eq_true_eq] at hwidens hwidens' ⊢
      grind
    | _ => simp_all
  | float hb hc | view hb hc =>
    cases h with
    | refl => first | exact .float hb hc | exact .view hb hc
    | never => exact .never _
    | _ => simp_all
  | optionals hb hc hinner ih =>
    cases h with
    | refl => exact .optionals hb hc hinner
    | never => exact .never _
    | optionals ha hb' h =>
      cases hb.symm.trans hb'
      exact .optionals ha hc (ih h)
    | some ha hb' h =>
      cases hb.symm.trans hb'
      exact .some ha hc (ih h)
    | _ => simp_all
  | some hb hc _ ih =>
    -- What lies below a type that is no optional is none either.
    have ha : a = .never ∨ ∀ x, table.shape a ≠ .optional x := by
      cases h with
      | never => exact .inl rfl
      | _ => simp_all
    rcases ha with rfl | ha
    · exact .never _
    · exact .some ha hc (ih h)

lemma antisymm (h : Coerces table a b) (h' : Coerces table b a) : a = b := by
  induction h with
  | refl => rfl
  | never => exact h'.eq_never.symm
  | optionals ha hb _ ih =>
    cases h' with
    | refl => rfl
    | optionals hb' ha' h' =>
      cases ha.symm.trans ha'
      cases hb.symm.trans hb'
      have hheld {id x : TypeId} (h : table.shape id = .optional x) : table.Holds id := holds_of_shape (by simp [h])
      exact eq_of_shape_eq (hheld ha) (hheld hb) (by rw [ha, hb, ih h'])
    | _ => simp_all [shape_never]
  | int ha hb hwidens =>
    cases h' with
    | int hb' ha' hwidens' =>
      cases ha.symm.trans ha'
      cases hb.symm.trans hb'
      simp only [IntTy.widensTo, Bool.and_eq_true, decide_eq_true_eq] at hwidens hwidens'
      omega
    | _ => simp_all [shape_never]
  | _ =>
    cases h' with
    | _ => simp_all [shape_never]

end Coerces

lemma coerces_eq : table.coerces a b = table.coercesStep (fun target source => table.coerces source target) b a :=
  (congrFun (table.descends_coerces b _ fun _ _ => rfl) a).symm

lemma ne_error (h : table.containsError a = false) : a ≠ .error := by
  rintro rfl
  rw [containsError, any_eq, shape_error] at h
  cases h

lemma coerces_of_rule (h : Coerces table a b) : table.coerces a b := by
  induction h with
  | _ => rw [coerces_eq, coercesStep]; simp_all [TypeId.isAbsorbing]

lemma rule_of_coerces {a b : TypeId} (ha : table.containsError a = false) (hb : table.containsError b = false)
    (h : table.coerces a b) : Coerces table a b := by
  rw [coerces_eq, coercesStep, TypeId.isAbsorbing, beq_false_of_ne (ne_error ha), beq_false_of_ne (ne_error hb),
    Bool.false_or, Bool.or_false, Bool.or_eq_true, Bool.or_eq_true, beq_iff_eq, beq_iff_eq] at h
  rcases h with (rfl | rfl) | h
  · exact .refl a
  · exact .never b
  have hpart {part : TypeId} (hshape : table.shape b = .optional part) : part.index < b.index ∧
      table.containsError part = false :=
    ⟨table.parts_shape_lt (by simp [hshape]), any_part hb (by simp [hshape])⟩
  split at h
  · exact .int ‹_› ‹_› h
  · exact .float ‹_› ‹_›
  · rename_i x y hx hy
    have := hpart hy
    exact .optionals hx hy (rule_of_coerces (any_part ha (by simp [hx])) this.2 h)
  · rename_i y hy hx
    have := hpart hy
    exact .some (fun x => hx x) hy (rule_of_coerces ha this.2 h)
  · rename_i hx hy
    exact .view hx (eq_of_beq h ▸ hy)
  · cases h
termination_by b.index

lemma join_eq_some_iff (ha : table.containsError a = false) (hb : table.containsError b = false) :
    table.join a b = some c ↔ c = b ∧ table.coerces a b ∨ c = a ∧ table.coerces b a := by
  have hsame (hab : table.coerces a b) (hba : table.coerces b a) : a = b :=
    (rule_of_coerces ha hb hab).antisymm (rule_of_coerces hb ha hba)
  have hrefl {x : TypeId} : table.coerces x x := coerces_of_rule (.refl x)
  have hleast {x : TypeId} : table.coerces .never x := coerces_of_rule (.never x)
  have := ne_error ha
  have := ne_error hb
  grind [join]

lemma fits_of_coerces (ha : table.shape a = .int t) (hb : table.shape b = .int u)
    (h : table.coerces a b) (hfits : t.fits value) : u.fits value := by
  have hplain {id : TypeId} {t : IntTy} (h : table.shape id = .int t) : table.containsError id = false := by
    rw [containsError, any_eq, h]
    rfl
  cases rule_of_coerces (hplain ha) (hplain hb) h with
  | int ha' hb' hwidens =>
    cases ha.symm.trans ha'
    cases hb.symm.trans hb'
    exact IntTy.fits_of_widensTo hwidens hfits
  | _ => simp_all [shape_never]

/-- Conversions order the types without error parts, an integer keeps its value in each of them, and
the common type of two branches is the greater one. -/
theorem coercion_order (table : TypeTable) :
    (∀ a, table.coerces a a) ∧
    (∀ a b t u, table.shape a = .int t → table.shape b = .int u → table.coerces a b →
      ∀ value, t.fits value → u.fits value) ∧
    ∀ a b, table.containsError a = false → table.containsError b = false →
      (table.coerces a b → table.coerces b a → a = b) ∧
      (∀ c, table.containsError c = false → table.coerces a b → table.coerces b c → table.coerces a c) ∧
      table.join a b = table.join b a ∧
      (table.join a b = none ↔ ¬ table.coerces a b ∧ ¬ table.coerces b a) ∧
      (∀ c, table.join a b = some c → (c = a ∨ c = b) ∧ table.coerces a c ∧ table.coerces b c ∧
        ∀ d, table.coerces a d → table.coerces b d → table.coerces c d) ∧
      table.join a .never = some a ∧ table.join .never a = some a := by
  have hrefl (a : TypeId) : table.coerces a a := coerces_of_rule (.refl a)
  refine ⟨hrefl, fun a b t u ht hu h value hfits => fits_of_coerces ht hu h hfits, fun a b ha hb => ?_⟩
  refine ⟨fun h h' => (rule_of_coerces ha hb h).antisymm (rule_of_coerces hb ha h'), fun c hc h h' =>
    coerces_of_rule ((rule_of_coerces ha hb h).trans (rule_of_coerces hb hc h')), Option.ext fun c => ?_, ?_, ?_, ?_, ?_⟩
  · rw [join_eq_some_iff ha hb, join_eq_some_iff hb ha, or_comm]
  · simp [Option.eq_none_iff_forall_ne_some, join_eq_some_iff ha hb, forall_and]
  · intro c hc
    rcases (join_eq_some_iff ha hb).1 hc with ⟨rfl, h⟩ | ⟨rfl, h⟩
    · exact ⟨.inr rfl, h, hrefl c, fun _ _ h => h⟩
    · exact ⟨.inl rfl, hrefl c, h, fun _ h _ => h⟩
  · unfold join
    split <;> simp_all
  · rfl

/-- The type `i16?` with its table. -/
def maybe : TypeId × TypeTable := TypeM.intern (.optional (.ofInt .i16)) initial

theorem coercion_order_maybe : IntTy.i16.fits 255 ∧ maybe.2.coerces .u8 maybe.1 ∧
    maybe.2.join maybe.1 .u8 = some maybe.1 := by
  obtain ⟨-, hfits, horder⟩ := coercion_order maybe.2
  have hi16 : maybe.2.coerces .u8 (.ofInt .i16) := by decide +kernel
  have hplain : maybe.2.containsError .u8 = false ∧ maybe.2.containsError (.ofInt .i16) = false ∧
    maybe.2.containsError maybe.1 = false := by decide +kernel
  obtain ⟨-, htrans, -⟩ := horder _ _ hplain.1 hplain.2.1
  obtain ⟨-, -, hcomm, -⟩ := horder _ _ hplain.1 hplain.2.2
  refine ⟨hfits _ _ .u8 .i16 (by decide +kernel) (by decide +kernel) hi16 255 (by decide),
    htrans _ hplain.2.2 hi16 (by decide +kernel), hcomm ▸ ?_⟩
  decide +kernel

end TypeTable

end Kite
