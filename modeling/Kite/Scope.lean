/-
Names in scope. A unit has one scope for its declarations and imports, which lives as long as the
program. The scopes of a function body form a stack: a block opens a frame and closes it again,
and a name is looked up from the innermost frame outwards.
-/
import Kite.Types.Basic

namespace Kite

structure UnitId where
  index : Nat
  deriving DecidableEq, Inhabited

structure LocalId where
  index : Nat
  deriving DecidableEq, Inhabited

/-! ## Scopes of units -/

structure ModuleScope where
  items : List (String × DefId) := []
  imports : List (String × UnitId) := []
  deriving Inhabited

variable (scope : ModuleScope)

namespace ModuleScope

def get? (name : String) : Option DefId := scope.items.lookup name

def define (name : String) (decl : DefId) : Except DefId ModuleScope :=
  match scope.get? name with
  | some earlier => .error earlier
  | none => .ok { scope with items := (name, decl) :: scope.items }

/-- Binds a name whether or not it is bound already; later declarations of a session shadow
earlier ones. -/
def rebind (name : String) (decl : DefId) : ModuleScope :=
  { scope with items := (name, decl) :: scope.items.filter (·.1 != name) }

def addImport (name : String) (unit : UnitId) : ModuleScope :=
  { scope with imports := scope.imports ++ [(name, unit)] }

def import? (name : String) : Option UnitId := scope.imports.lookup name

def names : List (String × DefId) := scope.items.mergeSort fun a b => a.1 ≤ b.1

end ModuleScope

inductive ModuleLookup where
  | found (decl : DefId)
  | notFound
  /-- Several imports declare the name and the unit itself does not. -/
  | ambiguous (units : List UnitId)

def importedAs (scopes : Array ModuleScope) (name : String) :
    List (String × UnitId) → List (UnitId × DefId) → List (UnitId × DefId)
  | [], found => found
  | (_, unit) :: rest, found =>
    match scopes[unit.index]?.bind (·.get? name) with
    | none => importedAs scopes name rest found
    | some decl =>
      importedAs scopes name rest
        (if found.any (·.2 == decl) then found else found ++ [(unit, decl)])

/-- The meaning of a name in a unit: its own declaration, else that of its imports. -/
def lookupModule (scopes : Array ModuleScope) (unit : UnitId) (name : String) : ModuleLookup :=
  match scopes[unit.index]? with
  | none => .notFound
  | some scope =>
    match scope.get? name with
    | some decl => .found decl
    | none =>
      match importedAs scopes name scope.imports [] with
      | [] => .notFound
      | [(_, decl)] => .found decl
      | several => .ambiguous (several.map (·.1))

/-! ## Scopes of blocks -/

abbrev Frame := List (String × LocalId)

/-- The frames of the blocks around a place; there is always one. -/
structure LocalScopes where
  innermost : Frame := []
  outer : List Frame := []
  deriving Inhabited

variable (scopes : LocalScopes)

namespace LocalScopes

def push : LocalScopes := { innermost := [], outer := scopes.innermost :: scopes.outer }

/-- Closes the innermost frame. The outermost one stays. -/
def pop : LocalScopes :=
  match scopes.outer with
  | [] => scopes
  | frame :: rest => { innermost := frame, outer := rest }

def frames : List Frame := scopes.innermost :: scopes.outer

def depth : Nat := scopes.frames.length

/-- Binds a name in the innermost frame, or gives the binding it already has there. -/
def define (name : String) (id : LocalId) : Except LocalId LocalScopes :=
  match scopes.innermost.lookup name with
  | some earlier => .error earlier
  | none => .ok { scopes with innermost := (name, id) :: scopes.innermost }

def lookup (scopes : LocalScopes) (name : String) : Option LocalId := scopes.frames.findSome? (·.lookup name)

def visible : List (String × LocalId) :=
  let add (seen : Frame) (entry : String × LocalId) : Frame :=
    if (seen.lookup entry.1).isSome then seen else entry :: seen
  let seen := scopes.frames.flatten.foldl add []
  seen.mergeSort fun a b => a.1 ≤ b.1

end LocalScopes

end Kite
