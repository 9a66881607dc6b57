/-
A checked program: the declarations of all units, the implementations, and the types they mention.
-/
import Kite.SymbolIndex
import Kite.Tree.Basic
import Kite.Typed.Basic
import Kite.Types.Subst
import Kite.Value

namespace Kite

structure Generic where
  id : ParamId
  name : String
  type : TypeId
  bounds : List DefId
  constType : Option TypeId
  span : Span
  deriving Inhabited

structure FunctionDef where
  /-- The generics of the type or implementation around it, and then its own. -/
  generics : List Generic
  receiver : Option Receiver
  selfType : Option TypeId
  paramNames : List String
  paramTypes : List TypeId
  result : TypeId
  body : Option Typed.Body
  isComptime : Bool
  isForeign : Bool
  owner : Option Nat
  deriving Inhabited

structure FieldDef where
  name : String
  type : TypeId
  span : Span
  deriving Inhabited

structure StructDef where
  generics : List Generic
  fields : List FieldDef
  isClass : Bool
  selfType : TypeId
  deriving Inhabited

def StructDef.fieldIndex? (s : StructDef) (name : String) : Option Nat := s.fields.findIdx? (·.name == name)

structure VariantDef where
  name : String
  payload : List TypeId
  discriminant : Option Int
  span : Span
  deriving Inhabited

structure EnumDef where
  generics : List Generic
  repr : Option IntTy
  variants : List VariantDef
  selfType : TypeId
  deriving Inhabited

namespace EnumDef

def variantIndex? (e : EnumDef) (name : String) : Option Nat := e.variants.findIdx? (·.name == name)

def isPlain (e : EnumDef) : Bool := e.generics.isEmpty && e.variants.all (·.payload.isEmpty)

/-- The type of the discriminants; `i32` unless declared. -/
def reprType (e : EnumDef) : IntTy := e.repr.getD .i32

end EnumDef

structure TraitMethod where
  name : String
  receiver : Option Receiver
  params : List TypeId
  result : TypeId
  span : Span
  deriving Inhabited

structure TraitDef where
  methods : List TraitMethod
  deriving Inhabited

structure GlobalDef where
  type : TypeId
  isMut : Bool
  init : Option Typed.Body
  value : Option Value
  deriving Inhabited

inductive DefKind where
  | function (f : FunctionDef)
  | struct (s : StructDef)
  | enum (e : EnumDef)
  | trait (t : TraitDef)
  | const (g : GlobalDef)
  | static (g : GlobalDef)
  deriving Inhabited

def DefKind.describe : DefKind → String
  | .function _ => "function"
  | .struct s => if s.isClass then "class" else "struct"
  | .enum _ => "enum"
  | .trait _ => "trait"
  | .const _ => "constant"
  | .static _ => "static"

structure Def where
  name : String
  unit : UnitId
  span : Span
  kind : DefKind
  deriving Inhabited

structure UnitInfo where
  name : String
  file : FileId
  defs : Array DefId
  isLibrary : Bool
  deriving Inhabited

/-- An implementation, or the methods written inside a struct or enum. -/
structure ImplDef where
  unit : UnitId
  generics : List Generic
  traitDef : Option DefId
  target : TypeId
  methods : List DefId
  span : Span
  deriving Inhabited

structure Program where
  types : TypeTable := .initial
  defs : Array Def := #[]
  units : Array UnitInfo := #[]
  impls : Array ImplDef := #[]
  symbols : SymbolIndex := {}
  nextParam : Nat := 0
  deriving Inhabited

variable (p : Program)

namespace Program

def getDef (id : DefId) : Def := p.defs.getD id.index default

def defName (id : DefId) : String := (p.getDef id).name

def addDef (d : Def) : DefId × Program :=
  let id : DefId := ⟨p.defs.size⟩
  (id, { p with
    defs := p.defs.push d
    units := p.units.modify d.unit.index fun unit => { unit with defs := unit.defs.push id } })

def modifyKind (id : DefId) (f : DefKind → DefKind) : Program :=
  { p with defs := p.defs.modify id.index fun d => { d with kind := f d.kind } }

def function? (id : DefId) : Option FunctionDef :=
  match (p.getDef id).kind with
  | .function f => some f
  | _ => none

def struct? (id : DefId) : Option StructDef :=
  match (p.getDef id).kind with
  | .struct s => some s
  | _ => none

def enum? (id : DefId) : Option EnumDef :=
  match (p.getDef id).kind with
  | .enum e => some e
  | _ => none

def trait? (id : DefId) : Option TraitDef :=
  match (p.getDef id).kind with
  | .trait t => some t
  | _ => none

def global? (id : DefId) : Option GlobalDef :=
  match (p.getDef id).kind with
  | .const g | .static g => some g
  | _ => none

def isClass (p : Program) (id : DefId) : Bool := (p.struct? id).any (·.isClass)

def isPlainEnum (id : DefId) : Bool := (p.enum? id).any (·.isPlain)

def discriminant? (id : DefId) (index : Nat) : Option Int := do
  let e ← p.enum? id
  let v ← e.variants[index]?
  v.discriminant

def unitName (unit : UnitId) : String :=
  (p.units[unit.index]?.map (·.name)).getD "<unknown>"

/-- The bindings of an implementation's generics for a value of type `type`, if its methods apply.
An implementation for an optional does not apply to a value that only coerces into one. -/
def implBindings? (type : TypeId) (impl : ImplDef) : Option Subst :=
  if impl.target == .error then none
  else if (p.types.optionalInner? impl.target).isSome && (p.types.optionalInner? type).isNone then
    none
  else p.types.match? impl.target type

def methodOf? (impl : ImplDef) (name : String) : Option DefId :=
  impl.methods.find? fun m => p.defName m == name

/-- A method for values of type `type`, with the bindings of its implementation's generics.
Methods of the type itself come before those of traits, and earlier ones before later ones. -/
def findMethod? (type : TypeId) (name : String) : Option (DefId × Subst) :=
  let candidate (impl : ImplDef) : Option (DefId × Subst) := do
    let s ← p.implBindings? type impl
    let m ← p.methodOf? impl name
    return (m, s)
  let own := p.impls.toList.filter (·.traitDef.isNone)
  let ofTraits := p.impls.toList.filter (·.traitDef.isSome)
  (own.findSome? candidate).or (ofTraits.findSome? candidate)

def implements (type : TypeId) (traitDef : DefId) : Bool :=
  p.impls.any fun impl => impl.traitDef == some traitDef && (p.types.match? impl.target type).isSome

def genericsOf (id : DefId) : List Generic :=
  match (p.getDef id).kind with
  | .struct s => s.generics
  | .enum e => e.generics
  | .function f => f.generics
  | _ => []

def ownerGenerics (f : FunctionDef) : Nat :=
  match f.owner.bind (p.impls[·]?) with
  | some impl => impl.generics.length
  | none => 0

def bindings (generics : List Generic) (args : List TypeId) : Subst :=
  (generics.zip args).map fun (g, arg) => (g.id, arg)

/-- The generics and the groups of members of a declaration: one group for a struct or class, and
one for each variant of an enum. -/
def memberGroups (decl : DefId) : List Generic × List (List TypeId) :=
  match (p.getDef decl).kind with
  | .struct s => (s.generics, [s.fields.map (·.type)])
  | .enum e => (e.generics, e.variants.map (·.payload))
  | _ => ([], [])

/-- The groups of members of a concrete type; none unless it is a struct, class or enum. -/
def concreteGroups (id : TypeId) : TypeM (List (List TypeId)) := do
  match (← get).shape id with
  | .named decl _ args =>
    let (generics, groups) := p.memberGroups decl
    groups.mapM fun group => group.mapM (TypeM.subst (bindings generics args))
  | _ => return []

end Program

end Kite
