/-
The shape of values. A value has the shape of a type when it is built as the type says, all the way
down: an integer carries exactly the integer type, an optional is `none` or holds a value of its
inner type, and an aggregate has components of its component types. No value has the shape of
`never`, of a parameter, of a pointer or of a function.
-/
import Kite.Proofs.Typing.Ty

namespace Kite

open List Bool

variable {v : Value} {parts : List Ty} {decl : DefId} {args : List Ty}

namespace Program

/-- The types of the fields of a struct with the given arguments. -/
def fieldTys? (p : Program) (decl : DefId) (args : List Ty) : Option (List Ty) := do
  let s ← p.struct? decl
  return s.fields.map fun field => (p.types.ty field.type).subst (.bind s.generics args)

/-- The types of the payload of a variant of an enum with the given arguments. -/
def payloadTys? (p : Program) (decl : DefId) (index : Nat) (args : List Ty) : Option (List Ty) := do
  let e ← p.enum? decl
  let v ← e.variants[index]?
  return v.payload.map fun type => (p.types.ty type).subst (.bind e.generics args)

lemma fieldTys?_subst {p : Program} (r : ParamId → Ty) :
    p.fieldTys? decl (args.map (.subst r)) = (p.fieldTys? decl args).map (·.map (.subst r)) := by
  unfold fieldTys?
  cases p.struct? decl with
  | none => rfl
  | some s =>
    simp only [Option.bind_eq_bind, Option.bind_some, Option.pure_def, Option.map_some,
      map_map, Function.comp_def, Ty.subst_subst_bind]

lemma payloadTys?_subst {p : Program} (r : ParamId → Ty) :
    p.payloadTys? decl index (args.map (.subst r)) = (p.payloadTys? decl index args).map (·.map (.subst r)) := by
  unfold payloadTys?
  cases p.enum? decl with
  | none => rfl
  | some e =>
    simp only [Option.bind_eq_bind, Option.bind_some]
    cases e.variants[index]? with
    | none => rfl
    | some v =>
      simp only [Option.bind_some, Option.pure_def, Option.map_some, map_map, Function.comp_def, Ty.subst_subst_bind]

end Program

namespace Value

mutual

@[simp]
def fits (p : Program) : Value → Ty → Bool
  | .int _ ty, .node (.int wanted) _ => ty == wanted
  | .float _, .node (.float _) _ => true
  | .bool _, .node .bool _ => true
  | .char _, .node .char _ => true
  | .str _, .node .string _ => true
  | .void, .node .void _ => true
  | .tuple items, .node .tuple parts => fitAll p items parts
  | .sequence items, .node .vector (element :: _) => fitEach p items element
  | .sequence items, .node .array (element :: _) => fitEach p items element
  | .none, .node .optional (_ :: _) => true
  | .some inner, .node .optional (part :: _) => inner.fits p part
  | .struct decl fields, .node (.named wanted) args =>
    decl == wanted && (p.fieldTys? decl args).any fun types => fitAll p fields types
  | .variant decl index fields, .node (.named wanted) args =>
    decl == wanted && (p.payloadTys? decl index args).any fun types => fitAll p fields types
  | _, _ => false

def fitAll (p : Program) : List Value → List Ty → Bool
  | [], [] => true
  | v :: vs, t :: ts => v.fits p t && fitAll p vs ts
  | _, _ => false

def fitEach (p : Program) : List Value → Ty → Bool
  | [], _ => true
  | v :: vs, t => v.fits p t && fitEach p vs t

end

variable {p : Program}

lemma fitEach_iff : ∀ {vs}, fitEach p vs t ↔ ∀ v ∈ vs, v.fits p t
  | [] => by simp [fitEach]
  | v :: vs => by rw [fitEach, and_eq_true, fitEach_iff, forall_mem_cons]

lemma fitAll_iff : ∀ {vs ts}, fitAll p vs ts ↔
    vs.length = ts.length ∧ ∀ (i : Nat) (v : Value) (t : Ty),
      vs[i]? = Option.some v → ts[i]? = Option.some t → v.fits p t
  | [], [] | [], _ :: _ | _ :: _, [] => by simp [fitAll]
  | v :: vs, t :: ts => by
    rw [fitAll, and_eq_true, fitAll_iff]
    constructor
    · rintro ⟨hv, hlen, hall⟩
      refine ⟨by simp [hlen], ?_⟩
      intro i w u hw hu
      cases i with
      | zero => cases hw; cases hu; exact hv
      | succ i => exact hall i w u hw hu
    · rintro ⟨hlen, hall⟩
      refine ⟨hall 0 v t rfl rfl, by simpa using hlen, ?_⟩
      intro i w u hw hu
      exact hall (i + 1) w u hw hu

lemma fitAll_set (h : fitAll p vs ts) (ht : ts[i]? = Option.some t) (hw : w.fits p t) : fitAll p (vs.set i w) ts := by
  rw [fitAll_iff] at h ⊢
  refine ⟨by simp [h.1], ?_⟩
  intro j v u hv hu
  rw [getElem?_set] at hv
  split at hv
  · rename_i hij
    subst hij
    rw [ht] at hu
    cases hu
    split at hv
    · cases hv; exact hw
    · cases hv
  · exact h.2 j v u hv hu

/-! ## Parameters

What has the shape of a type whatever its parameters stand for keeps it. -/

mutual

theorem fits_subst (r : ParamId → Ty) : ∀ (v : Value) (t : Ty), v.fits p t → v.fits p (t.subst r)
  | v, .param _, h => by cases v <;> simp [fits] at h
  | .tuple items, .node head parts, h => by
    cases head <;> simp only [fits, false_eq_true] at h
    rw [Ty.subst_node, fits]
    exact fitAll_subst r items parts h
  | .sequence items, .node head parts, h => by
    unfold fits at h
    split at h <;> rename_i heq heq' <;> try cases heq
    iterate 2
      · cases heq'
        exact fitEach_subst r items _ h
    · cases h
  | .some inner, .node head parts, h => by
    unfold fits at h
    split at h <;> rename_i heq heq' <;> try cases heq
    · cases heq'
      exact fits_subst r inner _ h
    · cases h
  | .struct decl fields, .node head parts, h => by
    cases head <;> simp only [fits, false_eq_true, and_eq_true, Option.any_eq_true] at h
    obtain ⟨hdecl, types, htypes, hfit⟩ := h
    rw [Ty.subst_node, fits, Program.fieldTys?_subst, htypes, hdecl]
    exact fitAll_subst r fields types hfit
  | .variant decl index fields, .node head parts, h => by
    cases head <;> simp only [fits, false_eq_true, and_eq_true, Option.any_eq_true] at h
    obtain ⟨hdecl, types, htypes, hfit⟩ := h
    rw [Ty.subst_node, fits, Program.payloadTys?_subst, htypes, hdecl]
    exact fitAll_subst r fields types hfit
  | .none, .node head parts, h => by cases head <;> cases parts <;> simp [fits] at h ⊢
  | .int _ ty, .node head parts, h | .float _, .node head parts, h | .bool _, .node head parts, h
  | .char _, .node head parts, h | .str _, .node head parts, h | .void, .node head parts, h => by
    cases head <;> simp_all [fits]

theorem fitAll_subst (r : ParamId → Ty) : ∀ vs ts, fitAll p vs ts → fitAll p vs (ts.map (.subst r))
  | [], [], _ => rfl
  | [], _ :: _, h | _ :: _, [], h => by simp [fitAll] at h
  | v :: vs, t :: ts, h => by
    rw [fitAll, and_eq_true] at h
    rw [map_cons, fitAll, and_eq_true]
    exact ⟨fits_subst r v t h.1, fitAll_subst r vs ts h.2⟩

theorem fitEach_subst (r : ParamId → Ty) : ∀ vs t, fitEach p vs t → fitEach p vs (t.subst r)
  | [], _, _ => rfl
  | v :: vs, t, h => by
    rw [fitEach, and_eq_true] at h ⊢
    exact ⟨fits_subst r v t h.1, fitEach_subst r vs t h.2⟩

end

variable {t : Ty}

/-! ## Values of a type -/

lemma fits_int_value (a b : Int) (ty : IntTy) (t : Ty) : (Value.int a ty).fits p t = (Value.int b ty).fits p t := by
  cases t with
  | param _ => rfl
  | node head _ => cases head <;> rfl

lemma fits_float_value (a b : Double) (t : Ty) : (Value.float a).fits p t = (Value.float b).fits p t := by
  cases t with
  | param _ => rfl
  | node head _ => cases head <;> rfl

lemma fits_str_value (a b : String) (t : Ty) : (Value.str a).fits p t = (Value.str b).fits p t := by
  cases t with
  | param _ => rfl
  | node head _ => cases head <;> rfl

lemma not_fits_never (v : Value) : v.fits p .never = false := by cases v <;> simp [fits, Ty.never]

lemma fits_int : v.fits p (.node (.int ty) parts) ↔ ∃ n, v = .int n ty := by cases v <;> simp [fits]

lemma fits_float : v.fits p (.node (.float ty) parts) ↔ ∃ x, v = .float x := by cases v <;> simp [fits]

lemma fits_bool : v.fits p (.node .bool parts) ↔ ∃ b, v = .bool b := by cases v <;> simp [fits]

lemma fits_char : v.fits p (.node .char parts) ↔ ∃ c, v = .char c := by cases v <;> simp [fits]

lemma fits_string : v.fits p (.node .string parts) ↔ ∃ text, v = .str text := by cases v <;> simp [fits]

lemma fits_optional : v.fits p (.node .optional (t :: parts)) ↔ v = .none ∨ ∃ w, v = .some w ∧ w.fits p t := by
  cases v <;> simp [fits]

lemma fits_vector : v.fits p (.node .vector (t :: parts)) ↔ ∃ items, v = .sequence items ∧ ∀ w ∈ items, w.fits p t :=
    by
  cases v <;> simp [fits, fitEach_iff]

lemma fits_array : v.fits p (.node .array (t :: parts)) ↔ ∃ items, v = .sequence items ∧ ∀ w ∈ items, w.fits p t := by
  cases v <;> simp [fits, fitEach_iff]

lemma fits_tuple : v.fits p (.node .tuple ts) ↔ ∃ items, v = .tuple items ∧ fitAll p items ts := by
  cases v <;> simp [fits]

lemma fits_named : v.fits p (.node (.named decl) args) ↔ (∃ fields types, v = .struct decl fields ∧
    p.fieldTys? decl args = Option.some types ∧ fitAll p fields types) ∨ (∃ index fields types,
    v = .variant decl index fields ∧ p.payloadTys? decl index args = Option.some types ∧ fitAll p fields types) := by
  cases v with
  | struct d fields =>
    simp only [fits, and_eq_true, beq_iff_eq, Option.any_eq_true]
    constructor
    · rintro ⟨rfl, types, htypes, hfit⟩
      exact .inl ⟨fields, types, rfl, htypes, hfit⟩
    · rintro (⟨_, types, hv, htypes, hfit⟩ | ⟨_, _, _, hv, _⟩)
      · cases hv; exact ⟨rfl, types, htypes, hfit⟩
      · cases hv
  | variant d index fields =>
    simp only [fits, and_eq_true, beq_iff_eq, Option.any_eq_true]
    constructor
    · rintro ⟨rfl, types, htypes, hfit⟩
      exact .inr ⟨index, fields, types, rfl, htypes, hfit⟩
    · rintro (⟨_, _, hv, _⟩ | ⟨_, _, types, hv, htypes, hfit⟩)
      · cases hv
      · cases hv; exact ⟨rfl, types, htypes, hfit⟩
  | _ => simp [fits]

end Value

end Kite
