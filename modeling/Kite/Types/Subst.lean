/-
Bindings of generic parameters: putting types in their place, and finding the types that make a
pattern match.
-/
import Kite.Types.Basic

/-! ## Conversions -/

namespace Kite.TypeTable

/-- Whether a type coerces into another one, given which types coerce into the parts of that. -/
def coercesStep (table : TypeTable) (rec : TypeId → TypeId → Bool) (target source : TypeId) : Bool :=
  source == target || source.isAbsorbing || target == .error ||
    match table.shape source, table.shape target with
    | .int a, .int b => a.widensTo b
    | .float .f32, .float .f64 => true
    | .optional a, .optional b => rec b a
    | _, .optional inner => rec inner source
    | .view true a, .view false b => a == b
    | _, _ => false

def coercesFrom (table : TypeTable) : Nat → TypeId → TypeId → Bool
  | 0, _, _ => false
  | n + 1, source, target => table.coercesStep (fun target source => table.coercesFrom n source target) target source

/-- Whether a value of the one type can stand where the other is wanted: integers widen without
loss, `f32` widens to `f64`, a value becomes an optional, a mutable view becomes a plain one. -/
def coerces (table : TypeTable) (source target : TypeId) : Bool :=
  table.coercesFrom (target.index + 1) source target

/-- The type of two branches, if one of them coerces into the other. -/
def join (table : TypeTable) (a b : TypeId) : Option TypeId :=
  if a == .never then some b
  else if b == .never || a == b then some a
  else if a == .error || b == .error then some .error
  else if table.coerces a b then some b
  else if table.coerces b a then some a
  else none

end Kite.TypeTable

/-! ## Bindings -/

namespace Kite

abbrev Subst := List (ParamId × TypeId)

def Subst.get? (s : Subst) (param : ParamId) : Option TypeId := s.lookup param

namespace TypeM

/-- A type with generics bound, given its parts with them bound. -/
def bindStep (s : Subst) (rec : TypeId → TypeM TypeId) (id : TypeId) : TypeM TypeId := do
  match (← get).shape id with
  | .param p _ => return (s.get? p).getD id
  | .tuple items => do
    let items ← items.mapM rec
    tuple items
  | shape =>
    if shape.parts.isEmpty then return id
    let shape ← shape.mapParts rec
    intern shape

def substFrom (s : Subst) : Nat → TypeId → TypeM TypeId
  | 0, id => return id
  | n + 1, id => bindStep s (substFrom s n) id

/-- Puts the bound types in the place of their parameters; other parameters stay. -/
def subst (s : Subst) (id : TypeId) : TypeM TypeId :=
  if s.isEmpty then return id else substFrom s (id.index + 1) id

end TypeM

namespace TypeTable

/-- Whether all of the pairs match, one after the other and up to the first that does not. -/
def allM (f : TypeId → TypeId → StateM Subst Bool) : List TypeId → List TypeId → StateM Subst Bool
  | a :: as, b :: bs => do
    if ← f a b then allM f as bs else return false
  | _, _ => return true

/-- Whether a type matches a pattern, given what matches the parts of the pattern. -/
def matchStep (table : TypeTable) (rec : TypeId → TypeId → StateM Subst Bool) (pattern actual : TypeId) : StateM Subst Bool :=
  if pattern == actual || actual.isAbsorbing || pattern == .error then return true
  else
    match table.shape pattern, table.shape actual with
    | .param p _, _ => do
      match (← get).get? p with
      | some bound => return bound == actual || table.coerces actual bound
      | none =>
        modify ((p, actual) :: ·)
        return true
    | .named a _ as, .named b _ bs => if a == b && as.length == bs.length then allM rec as bs else return false
    | .vector p, .vector t => rec p t
    | .optional p, .optional t => rec p t
    | .optional p, _ => rec p actual
    | .raw p, .raw t => rec p t
    | .view pm p, .view tm t => if tm || !pm then rec p t else return false
    | .array pe pl, .array te tl => do
      if ← rec pe te then rec pl tl else return false
    | .tuple ps, .tuple ts => if ps.length == ts.length then allM rec ps ts else return false
    | .function ps pr, .function ts tr => do
      if ps.length == ts.length then
        if ← allM rec ps ts then rec pr tr else return false
      else return false
    | _, _ => return table.coerces actual pattern

def matchesFrom (table : TypeTable) : Nat → TypeId → TypeId → StateM Subst Bool
  | 0, _, _ => return false
  | n + 1, pattern, actual => table.matchStep (table.matchesFrom n) pattern actual

/-- Binds the parameters of `pattern` so that it accepts a value of type `actual`. What is bound
already has to agree up to coercion. The bindings made on the way stay when it fails. -/
def matchTypes (table : TypeTable) (pattern actual : TypeId) : StateM Subst Bool :=
  table.matchesFrom (pattern.index + 1) pattern actual

/-- The bindings under which `pattern` accepts `actual`, starting from none. -/
def match? (table : TypeTable) (pattern actual : TypeId) : Option Subst :=
  match (table.matchTypes pattern actual).run [] with
  | (true, s) => some s
  | (false, _) => none

end TypeTable

end Kite
