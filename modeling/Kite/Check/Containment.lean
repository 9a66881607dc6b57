/-
Which types hold which by value. A struct or enum that holds itself would have no finite size.
-/
import Kite.Check.State
import Kite.Ownership.Copy

namespace Kite

namespace Program

def heldFrom (p : Program) : Nat → TypeId → List DefId
  | 0, _ => []
  | n + 1, type =>
    match p.types.shape type with
    | .named decl _ _ => [decl]
    | .optional inner | .array inner _ => heldFrom p n inner
    | .tuple items => items.flatMap (heldFrom p n)
    | _ => []

def held (p : Program) (decl : DefId) : List DefId :=
  match p.members? decl with
  | some (_, members) => members.flatMap fun type => p.heldFrom (type.index + 1) type
  | none => []

/-- Whether `target` is met by going from a declaration to what its values hold, `n` times at
most. -/
def reachesWithin (p : Program) (target : DefId) : Nat → DefId → StateM (List DefId) Bool
  | 0, _ => return false
  | n + 1, decl => do
    if decl == target then return true
    if (← get).contains decl then return false
    modify (decl :: ·)
    (p.held decl).anyM (reachesWithin p target n)

def holdsItself (p : Program) (decl : DefId) : Bool :=
  ((p.held decl).anyM (p.reachesWithin decl (p.defs.size + 1)) |>.run [decl]).1

end Program

namespace Check

def checkFinite (decl : DefId) : CheckM Unit := do
  let p ← program
  if p.holdsItself decl then
    let d := p.getDef decl
    report d.span (.infiniteSize d.name (p.enum? decl).isSome)

def checkContainment (decls : List DefId) : CheckM Unit := decls.forM checkFinite

end Check

end Kite
