/-
The declarations and definitions of types. A type is defined after the types it holds by value; of
those that can come next, the one with the least name does.
-/
import Kite.Emission.Layout

namespace Kite.Emission

/-! ## The order of definitions -/

/-- The types with their definitions inside a type: a class is held by a pointer, and a vector by
its own. -/
def heldByValueFrom (p : Program) : Nat → TypeId → List TypeId
  | 0, _ => []
  | n + 1, id =>
    match p.types.shape id with
    | .named .. => if p.isShared id then [] else [id]
    | .optional inner => heldByValueFrom p n inner
    | .array element _ => heldByValueFrom p n element
    | .tuple items => items.flatMap (heldByValueFrom p n)
    | _ => []

def heldByValue (p : Program) (id : TypeId) : List TypeId := heldByValueFrom p (id.index + 1) id

def valueDependencies (id : TypeId) : EmitM (List TypeId) := do
  let groups ← build ((← program).concreteGroups id)
  return groups.flatten.flatMap (heldByValue (← program))

structure Definition where
  id : TypeId
  name : String
  needs : List TypeId
  deriving Inhabited

def definition (id : TypeId) : EmitM Definition := do
  return { id, name := ← typeName id, needs := ← valueDependencies id }

/-- A definition with its position. -/
abbrev Placed := Definition × Nat

/-- The positions of the other definitions that a definition needs. -/
def needed (ds : List Definition) (x : Placed) : List Nat :=
  (ds.zipIdx.filter fun y => y.2 != x.2 && x.1.needs.contains y.1.id).map (·.2)

def users (ds : List Definition) (x : Placed) : List Placed :=
  ds.zipIdx.filter fun user => (needed ds user).contains x.2

def Placed.before (x y : Placed) : Bool := x.1.name < y.1.name || x.1.name == y.1.name && x.2 < y.2

structure Sorting where
  /-- How many of those that a definition needs are still to come, by position. -/
  pending : List Nat
  /-- Those that may come next, by name and then by position. -/
  ready : List Placed

namespace Sorting

def insert (x : Placed) : List Placed → List Placed
  | [] => [x]
  | y :: ys => if x.before y then x :: y :: ys else y :: insert x ys

def start (ds : List Definition) : Sorting where
  pending := ds.zipIdx.map fun x => (needed ds x).length
  ready := (ds.zipIdx.filter fun x => (needed ds x).isEmpty).foldr insert []

/-- One of those that a definition needs has come. -/
def release (s : Sorting) (x : Placed) : Sorting :=
  match s.pending[x.2]? with
  | some (n + 1) => { pending := s.pending.set x.2 n, ready := if n == 0 then insert x s.ready else s.ready }
  | _ => s

def weight (s : Sorting) : Nat := s.pending.foldr (· + ·) 0 + s.ready.length

theorem length_insert (x : Placed) : ∀ ys, (insert x ys).length = ys.length + 1
  | [] => rfl
  | y :: ys => by
    unfold insert
    split
    · rfl
    · exact congrArg (· + 1) (length_insert x ys)

theorem foldr_set {n : Nat} : ∀ {ns : List Nat} {i : Nat}, ns[i]? = some (n + 1) →
    (ns.set i n).foldr (· + ·) 0 + 1 = ns.foldr (· + ·) 0
  | m :: ns, 0, h => by
    cases h
    simp only [List.set_cons_zero, List.foldr_cons]
    omega
  | m :: ns, i + 1, h => by
    have ih := foldr_set (show ns[i]? = some (n + 1) from h)
    simp only [List.set_cons_succ, List.foldr_cons]
    omega

theorem weight_release (s : Sorting) (x : Placed) : (s.release x).weight ≤ s.weight := by
  unfold release
  split
  · rename_i n h
    have hsum := foldr_set h
    have hready : (if n == 0 then insert x s.ready else s.ready).length ≤ s.ready.length + 1 := by
      split
      · exact Nat.le_of_eq (length_insert x s.ready)
      · exact Nat.le_succ _
    unfold weight
    dsimp only
    omega
  · exact Nat.le_refl _

theorem weight_foldl_release : ∀ (xs : List Placed) (s : Sorting), (xs.foldl release s).weight ≤ s.weight
  | [], _ => Nat.le_refl _
  | x :: xs, s => Nat.le_trans (weight_foldl_release xs (s.release x)) (weight_release s x)

/-- Takes the first one that is ready, and releases those that need it. -/
def order (ds : List Definition) : Sorting → List Placed
  | ⟨_, []⟩ => []
  | ⟨pending, x :: rest⟩ => x :: order ds ((users ds x).foldl release ⟨pending, rest⟩)
termination_by s => s.weight
decreasing_by
  exact Nat.lt_of_le_of_lt (weight_foldl_release _ _) (Nat.lt_succ_self _)

end Sorting

/-- What holds itself by value comes last, as it stands. -/
def definitionOrder (ds : List Definition) : List Definition :=
  let placed := Sorting.order ds (.start ds)
  (placed ++ ds.zipIdx.filter fun x => !placed.any (·.2 == x.2)).map (·.1)

/-! ## Text -/

def declareType (id : TypeId) : EmitM Unit := do
  let name ← typeName id
  match (← program).plainEnum? id with
  | some e => line s!"enum class {name} : {intType e.reprType};"
  | none => line s!"struct {name};"

def defineStruct (name : String) (members : List (String × TypeId)) : EmitM Unit :=
  inBraces s!"struct {name} " ";" <| members.forM fun (field, type) => do
    let type ← typeText type
    line s!"{type} {field};"

def variantName (enumName variant : String) : String := enumName ++ "_" ++ variant

def enumerator (index : Nat) (v : VariantDef) : String :=
  let value := v.discriminant.getD index
  let suffix := if value > IntTy.max .i64 then "ULL" else ""
  s!"{escapeIdent v.name} = {value}{suffix},"

def definePayload (name : String) (members : List TypeId) : EmitM Unit :=
  if members.isEmpty then line s!"struct {name} \x7b\x7d;"
  else defineStruct name (members.zipIdx.map fun (type, i) => (s!"_{i}", type))

def defineType (id : TypeId) : EmitM Unit := do
  match (← types).shape id with
  | .named decl _ _ =>
    let name ← typeName id
    let d := (← program).getDef decl
    match d.kind with
    | .struct s =>
      let members ← memberTypes id 0
      defineStruct name ((s.fields.map fun f => escapeIdent f.name).zip members)
    | .enum e =>
      if e.isPlain then
        inBraces s!"enum class {name} : {intType e.reprType} " ";" <|
          e.variants.zipIdx.forM fun (v, i) => line (enumerator i v)
      else
        e.variants.zipIdx.forM fun (v, i) => do
          definePayload (variantName name v.name) (← memberTypes id i)
        let alternatives := e.variants.map fun v => variantName name v.name
        inBraces s!"struct {name} " ";" (line s!"std::variant<{commas alternatives}> value;")
    | _ => violation s!"`{name}` is not a type" d.span
  | _ => return

def defineTypes (ids : List TypeId) : EmitM Unit := do
  ids.forM declareType
  (definitionOrder (← ids.mapM definition)).forM fun d => do
    blank
    defineType d.id

end Kite.Emission
