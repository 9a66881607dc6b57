/-
Which locals have been moved out of, and which values are copied when they are used. Numbers, views,
raw pointers, function values and the handles of classes are copied; aggregates are copied when all
their members are.
-/
import Kite.Program

/-! ## Moves -/

namespace Kite.Ownership

structure Moves where
  entries : List (LocalId × Span) := []
  deriving Inhabited

namespace Moves

def movedAt? (moves : Moves) (id : LocalId) : Option Span := moves.entries.lookup id

def mark (moves : Moves) (id : LocalId) (span : Span) : Moves :=
  { entries := (id, span) :: moves.entries.filter (·.1 != id) }

def restore (moves : Moves) (id : LocalId) : Moves := { entries := moves.entries.filter (·.1 != id) }

def union (a b : Moves) : Moves :=
  { entries := a.entries ++ b.entries.filter fun entry => (a.movedAt? entry.1).isNone }

/-- What was moved since `before`, in the order of the locals. -/
def since (moves before : Moves) : List (LocalId × Span) :=
  let fresh := moves.entries.filter fun entry => (before.movedAt? entry.1).isNone
  fresh.mergeSort fun a b => a.1.index ≤ b.1.index

end Moves

end Kite.Ownership

/-! ## Copies -/

namespace Kite

namespace Ownership

/-- The types table, which grows by the members of generic types, and the named types met. -/
structure CopySearch where
  types : TypeTable
  visited : List TypeId := []

def CopySearch.build (x : TypeM α) : StateM CopySearch α :=
  modifyGet fun s =>
    let (a, types) := x.run s.types
    (a, { s with types })

def CopySearch.visit (id : TypeId) : StateM CopySearch Bool :=
  modifyGet fun s =>
    if s.visited.contains id then (false, s) else (true, { s with visited := id :: s.visited })

end Ownership

namespace Program

open Ownership

/-- The generics and by-value members of a struct or an enum; none of a class, whose values are
handles. -/
def members? (p : Program) (decl : DefId) : Option (List Generic × List TypeId) :=
  match (p.getDef decl).kind with
  | .struct s => if s.isClass then none else some (s.generics, s.fields.map (·.type))
  | .enum e => some (e.generics, e.variants.flatMap (·.payload))
  | _ => none

/-- Whether values of a type are copied, found within a nesting of types of `n`. A type that
contains itself is decided by its other members. -/
def isCopyWithin (p : Program) : Nat → TypeId → StateM CopySearch Bool
  | 0, _ => return true
  | n + 1, id => do
    match (← get).types.shape id with
    | .string | .vector _ | .param .. => return false
    | .optional inner => isCopyWithin p n inner
    | .array element _ => isCopyWithin p n element
    | .tuple items => items.allM (isCopyWithin p n)
    | .named decl _ args =>
      if ← CopySearch.visit id then
        match p.members? decl with
        | none => return true
        | some (generics, members) =>
          members.allM fun member => do
            let member ← CopySearch.build (TypeM.subst (bindings generics args) member)
            isCopyWithin p n member
      else return true
    | _ => return true

/-- A nesting of types that no program reaches. -/
def typeNesting : Nat := pow2 32

def isCopy (p : Program) (id : TypeId) : TypeM Bool := fun types =>
  let (copied, search) := (p.isCopyWithin typeNesting id).run { types }
  (copied, search.types)

end Program

end Kite
