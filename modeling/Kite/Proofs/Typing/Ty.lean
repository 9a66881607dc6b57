/-
Types as finite trees: what a handle of a type table stands for once views are left out. The parts
of a shape stand before it in the table, so every handle stands for a tree. Generic parameters get
their trees all at once from a function, and one substitution after another is a single one.
-/
import Kite.Program
import Mathlib.Tactic.Lemma

namespace Kite

open List

variable {id : ParamId}

lemma Program.getDef_eq_default {p : Program} (h : p.defs.size ≤ decl.index) : p.getDef decl = default := by
  unfold getDef
  rw [Array.getD_eq_getD_getElem?, Array.getElem?_eq_none h, Option.getD_none]

/-- What a type is made with, apart from its parts. -/
inductive TyHead where
  | error
  | void
  | never
  | bool
  | char
  | string
  | int (ty : IntTy)
  | float (ty : FloatTy)
  | named (decl : DefId)
  | const (value : Nat)
  | vector
  | array
  | optional
  | tuple
  | view (isMut : Bool)
  | raw
  | function
  deriving DecidableEq

inductive Ty where
  | param (id : ParamId)
  | node (head : TyHead) (parts : List Ty)

namespace Ty

mutual

def decEq : (a b : Ty) → Decidable (a = b)
  | .param a, .param b => decidable_of_iff (a = b) (by simp)
  | .node a as, .node b bs =>
    match (inferInstance : Decidable (a = b)), decEqAll as bs with
    | isTrue hab, isTrue habs => isTrue (by rw [hab, habs])
    | isFalse hab, _ => isFalse (by simp [hab])
    | _, isFalse habs => isFalse (by simp [habs])
  | .param _, .node _ _ => isFalse (by simp)
  | .node _ _, .param _ => isFalse (by simp)

def decEqAll : (as bs : List Ty) → Decidable (as = bs)
  | [], [] => isTrue rfl
  | a :: as, b :: bs =>
    match decEq a b, decEqAll as bs with
    | isTrue hab, isTrue habs => isTrue (by rw [hab, habs])
    | isFalse hab, _ => isFalse (by simp [hab])
    | _, isFalse habs => isFalse (by simp [habs])
  | [], _ :: _ => isFalse (by simp)
  | _ :: _, [] => isFalse (by simp)

end

instance : DecidableEq Ty := decEq

def error : Ty := .node .error []
def void : Ty := .node .void []
def never : Ty := .node .never []
def bool : Ty := .node .bool []
def string : Ty := .node .string []
def int (ty : IntTy) : Ty := .node (.int ty) []

/-! ## Substitution -/

mutual

def subst (s : ParamId → Ty) : Ty → Ty
  | .param id => s id
  | .node head parts => .node head (substAll s parts)

def substAll (s : ParamId → Ty) : List Ty → List Ty
  | [] => []
  | t :: ts => t.subst s :: substAll s ts

end

lemma substAll_eq_map (s : ParamId → Ty) : ∀ ts : List Ty, substAll s ts = ts.map (subst s)
  | [] => rfl
  | t :: ts => by rw [substAll, substAll_eq_map s ts, map_cons]

@[simp] lemma subst_node (s : ParamId → Ty) (head : TyHead) (parts : List Ty) :
    (Ty.node head parts).subst s = .node head (parts.map (subst s)) := by
  rw [subst, substAll_eq_map]

@[simp] lemma subst_never (s : ParamId → Ty) : never.subst s = never := by simp [never]

mutual

theorem subst_subst (s r : ParamId → Ty) : ∀ t : Ty, (t.subst s).subst r = t.subst fun id => (s id).subst r
  | .param _ => rfl
  | .node head parts => by rw [subst, subst, subst, substAll_substAll s r parts]

theorem substAll_substAll (s r : ParamId → Ty) : ∀ ts : List Ty,
    substAll r (substAll s ts) = substAll (fun id => (s id).subst r) ts
  | [] => rfl
  | t :: ts => by rw [substAll, substAll, substAll, subst_subst s r t, substAll_substAll s r ts]

end

mutual

theorem subst_param : ∀ t : Ty, t.subst .param = t
  | .param _ => rfl
  | .node head parts => by rw [subst, substAll_param parts]

theorem substAll_param : ∀ ts : List Ty, substAll .param ts = ts
  | [] => rfl
  | t :: ts => by rw [substAll, subst_param t, substAll_param ts]

end

/-- The arguments of generics, one by one. No type stands for a parameter without an argument. -/
def bind (generics : List Generic) (args : List Ty) : ParamId → Ty := fun id =>
  (((generics.map (·.id)).zip args).lookup id).getD error

lemma lookup_zip_map {α β : Type} (f : α → β) : ∀ (ids : List ParamId) (args : List α),
    (ids.zip (args.map f)).lookup id = ((ids.zip args).lookup id).map f
  | [], _ => rfl
  | _ :: _, [] => rfl
  | i :: ids, a :: args => by
    rw [map_cons, zip_cons_cons, zip_cons_cons, lookup_cons, lookup_cons, lookup_zip_map f ids args]
    split <;> rfl

lemma subst_bind (r : ParamId → Ty) : (bind generics args id).subst r = bind generics (args.map (subst r)) id := by
  unfold bind
  rw [lookup_zip_map]
  cases ((generics.map (·.id)).zip args).lookup id <;> simp [error]

lemma subst_subst_bind (r : ParamId → Ty) (generics : List Generic) (args : List Ty) (t : Ty) :
    (t.subst (bind generics args)).subst r = t.subst (bind generics (args.map (subst r))) := by
  rw [subst_subst]
  congr 1
  funext id
  exact subst_bind r

end Ty

/-! ## What a handle stands for -/

/-- What a shape is made with. A parameter is made with nothing. -/
def TypeShape.head : TypeShape → TyHead
  | .void => .void
  | .never => .never
  | .bool => .bool
  | .char => .char
  | .string => .string
  | .int ty => .int ty
  | .float ty => .float ty
  | .named decl _ _ => .named decl
  | .const value => .const value
  | .vector _ => .vector
  | .array _ _ => .array
  | .optional _ => .optional
  | .tuple _ => .tuple
  | .view isMut _ => .view isMut
  | .raw _ => .raw
  | .function _ _ => .function
  | .error | .param _ _ => .error

/-- `f` is the recursion `step`, which asks for the results at smaller handles only. -/
def Descends {β : Type} (step : (TypeId → β) → TypeId → β) (f : TypeId → β) : Prop :=
  ∀ id rec, (∀ part : TypeId, part.index < id.index → rec part = f part) → step rec id = f id

lemma descends_of_bounded {β : Type} {step : (TypeId → β) → TypeId → β} (bounded : Nat → TypeId → β)
    (hstep : ∀ n id, bounded (n + 1) id = step (bounded n) id) (hparts : ∀ id rec rec', (∀ part : TypeId,
    part.index < id.index → rec part = rec' part) → step rec id = step rec' id) :
    Descends step fun id => bounded (id.index + 1) id := by
  have hsame : ∀ n m id, id.index < n → id.index < m → bounded n id = bounded m id := by
    intro n
    induction n with
    | zero => intro m id hn; exact absurd hn (Nat.not_lt_zero _)
    | succ n ih =>
      intro m id hn hm
      obtain ⟨m, rfl⟩ : ∃ k, m = k + 1 := ⟨m - 1, by omega⟩
      rw [hstep, hstep]
      exact hparts id _ _ fun part hlt => ih m part (by omega) (by omega)
  intro id rec hrec
  show step rec id = bounded (id.index + 1) id
  rw [hstep]
  refine hparts id _ _ fun part hlt => ?_
  rw [hrec part hlt]
  exact hsame _ _ part (Nat.lt_succ_self _) hlt

namespace TypeTable

def tyFrom (table : TypeTable) : Nat → TypeId → Ty
  | 0, _ => .error
  | n + 1, id =>
    match table.shape id with
    | .param param _ => .param param
    | .view _ inner => table.tyFrom n inner
    | shape => .node shape.head (shape.parts.map (table.tyFrom n))

/-- The type of the values of a handle: views are left out. -/
def ty (table : TypeTable) (id : TypeId) : Ty := table.tyFrom (id.index + 1) id

lemma parts_shape_lt (table : TypeTable) {id part : TypeId} (h : part ∈ (table.shape id).parts) :
    part.index < id.index := by
  unfold shape at h
  rw [Array.getD_eq_getD_getElem?] at h
  by_cases hlt : id.index < table.shapes.size
  · rw [Array.getElem?_eq_getElem hlt] at h
    exact table.parts_lt id.index hlt part h
  · rw [Array.getElem?_eq_none (by omega)] at h
    simp at h

lemma ty_eq (table : TypeTable) (id : TypeId) : table.ty id = match table.shape id with
      | .param param _ => .param param
      | .view _ inner => table.ty inner
      | shape => .node shape.head (shape.parts.map table.ty) := by
  refine .symm (@descends_of_bounded _ (fun rec id => match table.shape id with
      | .param param _ => .param param
      | .view _ inner => rec inner
      | shape => .node shape.head (shape.parts.map rec)) table.tyFrom (fun _ _ => rfl) (fun id rec rec' h => ?_) id _
    fun _ _ => rfl)
  have hparts := fun part hpart => h part (table.parts_shape_lt hpart)
  split
  · rfl
  · rename_i hshape
    rw [hshape] at hparts
    exact hparts _ (by simp)
  · rw [map_congr_left hparts]

lemma stripViewsFrom_spec (table : TypeTable) : ∀ n id, id.index < n →
    table.ty (table.stripViewsFrom n id) = table.ty id ∧
      ∀ isMut inner, table.shape (table.stripViewsFrom n id) ≠ .view isMut inner
  | n + 1, id, hn => by
    unfold stripViewsFrom
    split
    · rename_i isMut inner hshape
      have hlt : inner.index < id.index := table.parts_shape_lt (by simp [hshape])
      have hinner : table.ty id = table.ty inner := by rw [ty_eq table id, hshape]
      rw [hinner]
      exact stripViewsFrom_spec table n inner (by omega)
    · rename_i hview
      exact ⟨rfl, hview⟩

lemma ty_stripViews (table : TypeTable) (id : TypeId) : table.ty (table.stripViews id) = table.ty id :=
  (stripViewsFrom_spec table _ id (by omega)).1

lemma shape_stripViews_of_ty_int {table : TypeTable} {id : TypeId} {ty : IntTy}
    (h : table.ty id = .node (.int ty) parts) : table.shape (table.stripViews id) = .int ty := by
  have hview := (stripViewsFrom_spec table _ id (Nat.lt_succ_self _)).2
  rw [← ty_stripViews, ty_eq] at h
  split at h
  · cases h
  · rename_i hshape
    exact absurd hshape (hview _ _)
  · injection h with hhead _
    cases hs : table.shape (table.stripViews id) <;> rw [hs] at hhead <;> simp [TypeShape.head] at hhead
    rw [hhead]

end TypeTable

end Kite
