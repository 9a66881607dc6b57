/-
The implementation behind a method of a trait, once the type it is called on is known.
-/
import Kite.Program

namespace Kite.Program

/-- The bindings under which an implementation of a trait is for a type. One for an optional is
not for a value that only coerces into an optional. -/
def traitBindings? (p : Program) (traitDef : DefId) (type : TypeId) (impl : ImplDef) : Option Subst :=
  if impl.traitDef != some traitDef then none
  else if (p.types.optionalInner? impl.target).isSome && (p.types.optionalInner? type).isNone then
    none
  else p.types.match? impl.target type

/-- The method of the first implementation of a trait for a type, with the arguments for its
generics. A generic that the type does not bind stays as it is. -/
def traitMethod? (p : Program) (traitDef : DefId) (name : String) (type : TypeId) : Option (DefId × List TypeId) := do
  let type := p.types.stripViews type
  let candidate (impl : ImplDef) : Option (ImplDef × Subst) :=
    (p.traitBindings? traitDef type impl).map fun s => (impl, s)
  let (impl, s) ← p.impls.toList.findSome? candidate
  let method ← p.methodOf? impl name
  let f ← p.function? method
  return (method, f.generics.map fun g => (s.get? g.id).getD g.type)

end Kite.Program
