/-
Types. A type is a handle into a table; the table gives equal shapes the same handle, so comparing
types is comparing numbers, and two uses of a generic declaration with the same arguments are the
same type. The parts of a shape are handles made before it, which bounds every descent into a type
by its own handle.
-/
import Kite.Number.Numeric

namespace Kite

structure DefId where
  index : Nat
  deriving DecidableEq, Inhabited

/-- A generic parameter, unique in the whole program. -/
structure ParamId where
  index : Nat
  deriving DecidableEq, Inhabited

structure TypeId where
  index : Nat
  deriving DecidableEq, Inhabited

namespace TypeId

/-! ## The handles of the types without parts, in the order in which a new table holds them -/

def error : TypeId := ⟨0⟩
def void : TypeId := ⟨1⟩
/-- The type of what does not come back: `return`, `break`, `panic(..)`. -/
def never : TypeId := ⟨2⟩
def bool : TypeId := ⟨3⟩
def char : TypeId := ⟨4⟩
def string : TypeId := ⟨5⟩

def ofInt : IntTy → TypeId
  | .i8 => ⟨6⟩
  | .i16 => ⟨7⟩
  | .i32 => ⟨8⟩
  | .i64 => ⟨9⟩
  | .u8 => ⟨10⟩
  | .u16 => ⟨11⟩
  | .u32 => ⟨12⟩
  | .u64 => ⟨13⟩
  | .usize => ⟨14⟩

def ofFloat : FloatTy → TypeId
  | .f32 => ⟨15⟩
  | .f64 => ⟨16⟩

def i64 : TypeId := ofInt .i64
def u8 : TypeId := ofInt .u8
def usize : TypeId := ofInt .usize
def f64 : TypeId := ofFloat .f64

def ofName? (name : String) : Option TypeId :=
  match name with
  | "void" => some void
  | "never" => some never
  | "bool" => some bool
  | "char" => some char
  | "String" => some string
  | _ => ((IntTy.ofName? name).map ofInt).or ((FloatTy.ofName? name).map ofFloat)

/-- What was reported, or does not come back: it fits everywhere. -/
def isAbsorbing (t : TypeId) : Bool := t == error || t == never

end TypeId

inductive TypeShape where
  | error
  | void
  | never
  | bool
  | char
  | string
  | int (ty : IntTy)
  | float (ty : FloatTy)
  | named (decl : DefId) (name : String) (args : List TypeId)
  | param (id : ParamId) (name : String)
  | const (value : Nat)
  | vector (element : TypeId)
  /-- The length is a constant or a constant parameter. -/
  | array (element length : TypeId)
  | optional (inner : TypeId)
  | tuple (items : List TypeId)
  | view (isMut : Bool) (inner : TypeId)
  | raw (inner : TypeId)
  | function (params : List TypeId) (result : TypeId)
  deriving DecidableEq, Inhabited

namespace TypeShape

@[simp]
def parts : TypeShape → List TypeId
  | .named _ _ args => args
  | .vector inner | .optional inner | .view _ inner | .raw inner => [inner]
  | .array element length => [element, length]
  | .tuple items => items
  | .function params result => params ++ [result]
  | .error | .void | .never | .bool | .char | .string | .int _ | .float _ | .param .. | .const _ => []

/-- The same shape with other parts, made from left to right. -/
def mapParts {m : Type → Type} [Monad m] (f : TypeId → m TypeId) : TypeShape → m TypeShape
  | .named decl name args => return .named decl name (← args.mapM f)
  | .vector inner => return .vector (← f inner)
  | .optional inner => return .optional (← f inner)
  | .view isMut inner => return .view isMut (← f inner)
  | .raw inner => return .raw (← f inner)
  | .array element length => do
    let element ← f element
    return .array element (← f length)
  | .tuple items => return .tuple (← items.mapM f)
  | .function params result => do
    let params ← params.mapM f
    return .function params (← f result)
  | shape => return shape

def isParam : TypeShape → Bool
  | .param .. => true
  | _ => false

end TypeShape

/-- The shapes of the handles that are the same in every table. -/
def TypeShape.fixed : List TypeShape :=
  [.error, .void, .never, .bool, .char, .string] ++ IntTy.all.map .int ++ [.float .f32, .float .f64]

/-- The shapes of the types there are; the index of a shape is its handle, and the cache has the handles
of the shapes. -/
structure TypeTable where
  shapes : Array TypeShape
  cache : List (TypeShape × TypeId)
  fixed_first : TypeShape.fixed <+: shapes.toList
  /-- The parts of a shape were there before it. -/
  parts_lt : ∀ i (h : i < shapes.size), ∀ part ∈ shapes[i].parts, part.index < i
  cached : ∀ i (h : i < shapes.size), cache.lookup shapes[i] = some ⟨i⟩
  sound : ∀ entry ∈ cache, shapes[entry.2.index]? = some entry.1

variable (table : TypeTable)

namespace TypeTable

def initial : TypeTable where
  shapes := TypeShape.fixed.toArray
  cache := TypeShape.fixed.zipIdx.map fun (shape, i) => (shape, ⟨i⟩)
  fixed_first := List.prefix_refl _
  parts_lt := by decide
  cached := by decide
  sound := by decide

instance : Inhabited TypeTable := ⟨initial⟩

def size (table : TypeTable) : Nat := table.shapes.size

def find? (shape : TypeShape) : Option TypeId := table.cache.lookup shape

def push (table : TypeTable) (shape : TypeShape) (parts : ∀ part ∈ shape.parts, part.index < table.size)
    (new : table.find? shape = none) : TypeTable where
  shapes := table.shapes.push shape
  cache := (shape, ⟨table.size⟩) :: table.cache
  fixed_first := by
    rw [Array.toList_push]
    exact table.fixed_first.trans (List.prefix_append _ _)
  parts_lt := by
    intro i h part hpart
    rw [Array.getElem_push] at hpart
    split at hpart
    · exact table.parts_lt i _ part hpart
    · rw [Array.size_push] at h
      exact Nat.lt_of_lt_of_le (parts part hpart) (by unfold size; omega)
  cached := by
    intro i h
    rw [Array.size_push] at h
    rw [List.lookup_cons]
    by_cases hlt : i < table.shapes.size
    · have hold := table.cached i hlt
      have hne : (table.shapes[i] == shape) = false := by
        rw [beq_eq_false_iff_ne]
        intro heq
        rw [heq] at hold
        cases new.symm.trans hold
      rw [Array.getElem_push_lt hlt, hne]
      exact hold
    · obtain rfl : i = table.shapes.size := by omega
      rw [Array.getElem_push_eq, beq_self_eq_true]
      rfl
  sound := by
    intro entry hentry
    rcases List.mem_cons.1 hentry with rfl | hentry
    · exact Array.getElem?_push_size
    · have hold := table.sound entry hentry
      have hlt := (Array.getElem?_eq_some_iff.1 hold).1
      rw [Array.getElem?_push_lt hlt, ← hold, Array.getElem?_eq_getElem hlt]

/-- The handle of a shape; a new one if the table does not hold it. A shape with a part that is
in no table has none. -/
def intern (shape : TypeShape) (table : TypeTable) : TypeId × TypeTable :=
  match h : table.find? shape with
  | some id => (id, table)
  | none =>
    if parts : ∀ part ∈ shape.parts, part.index < table.size then
      (⟨table.size⟩, table.push shape parts h)
    else (.error, table)

def shape (id : TypeId) : TypeShape := table.shapes.getD id.index .error

/-! ## Looking at a type -/

def int? (id : TypeId) : Option IntTy :=
  match table.shape id with
  | .int ty => some ty
  | _ => none

def float? (id : TypeId) : Option FloatTy :=
  match table.shape id with
  | .float ty => some ty
  | _ => none

def isInteger (id : TypeId) : Bool := (table.int? id).isSome

def isNumeric (id : TypeId) : Bool := (table.int? id).isSome || (table.float? id).isSome

def optionalInner? (id : TypeId) : Option TypeId :=
  match table.shape id with
  | .optional inner => some inner
  | _ => none

def stripViewsFrom (table : TypeTable) : Nat → TypeId → TypeId
  | 0, id => id
  | n + 1, id =>
    match table.shape id with
    | .view _ inner => table.stripViewsFrom n inner
    | _ => id

def stripViews (id : TypeId) : TypeId := table.stripViewsFrom (id.index + 1) id

def anyFrom (table : TypeTable) (p : TypeShape → Bool) : Nat → TypeId → Bool
  | 0, _ => false
  | n + 1, id =>
    let shape := table.shape id
    p shape || shape.parts.any (table.anyFrom p n)

def any (p : TypeShape → Bool) (id : TypeId) : Bool := table.anyFrom p (id.index + 1) id

def containsError (id : TypeId) : Bool := table.any (· == .error) id

def hasParams (id : TypeId) : Bool := table.any TypeShape.isParam id

def mentions (params : List ParamId) (id : TypeId) : Bool :=
  table.any (fun | .param p _ => params.contains p | _ => false) id

end TypeTable

/-! ## Making types -/

abbrev TypeM := StateM TypeTable

namespace TypeM

def intern (shape : TypeShape) : TypeM TypeId := modifyGet (TypeTable.intern shape)

def vector (element : TypeId) : TypeM TypeId := intern (.vector element)

def optional (inner : TypeId) : TypeM TypeId := intern (.optional inner)

/-- The empty tuple is `void`. -/
def tuple (items : List TypeId) : TypeM TypeId := if items.isEmpty then return .void else intern (.tuple items)

def const (value : Nat) : TypeM TypeId := intern (.const value)

def array (element : TypeId) (length : Nat) : TypeM TypeId := do
  let length ← const length
  intern (.array element length)

def view (isMut : Bool) (inner : TypeId) : TypeM TypeId := intern (.view isMut inner)

def raw (inner : TypeId) : TypeM TypeId := intern (.raw inner)

def function (params : List TypeId) (result : TypeId) : TypeM TypeId := intern (.function params result)

def named (decl : DefId) (name : String) (args : List TypeId) : TypeM TypeId := intern (.named decl name args)

def param (id : ParamId) (name : String) : TypeM TypeId := intern (.param id name)

end TypeM

end Kite

/-! ## Types as text -/

namespace Kite.TypeTable

/-- Shapes that need parentheses before a `?`. -/
def bindsLoosely : TypeShape → Bool
  | .function .. | .view .. => true
  | _ => false

/-- A type as text, given its parts as text. -/
def displayStep (table : TypeTable) (rec : TypeId → String) (id : TypeId) : String :=
  let commas (ids : List TypeId) : String := ", ".intercalate (ids.map rec)
  match table.shape id with
  | .error => "\x7berror\x7d"
  | .void => "void"
  | .never => "never"
  | .bool => "bool"
  | .char => "char"
  | .string => "String"
  | .int ty => ty.name
  | .float ty => ty.name
  | .named _ name args => if args.isEmpty then name else name ++ "<" ++ commas args ++ ">"
  | .param _ name => name
  | .const value => toString value
  | .vector element => "[" ++ rec element ++ "]"
  | .array element length => "[" ++ rec element ++ "; " ++ rec length ++ "]"
  | .optional inner => if bindsLoosely (table.shape inner) then "(" ++ rec inner ++ ")?" else rec inner ++ "?"
  | .tuple items => "(" ++ commas items ++ (if items.length == 1 then ",)" else ")")
  | .view isMut inner => (if isMut then "&mut " else "&") ++ rec inner
  | .raw inner => "raw " ++ rec inner
  | .function params result => "function(" ++ commas params ++ ") -> " ++ rec result

def displayFrom (table : TypeTable) : Nat → TypeId → String
  | 0, _ => ""
  | n + 1, id => table.displayStep (table.displayFrom n) id

def display (table : TypeTable) (id : TypeId) : String := table.displayFrom (id.index + 1) id

end Kite.TypeTable
