/-
The instances of a program: every function and every type with the arguments at which it is used,
reached from the functions and globals of the given units. A generic body is visited once for each
list of arguments. Equal types have one handle, so two spellings of `Box<i32>` are one instance.

A program may need instances without end, each of them larger than the one before. Then the search
does not end, and there is no answer.
-/
import Kite.Instance.Dispatch
import Kite.Instance.Name
import Kite.Typed.Mentions

namespace Kite

structure Instance where
  decl : DefId
  args : List TypeId
  name : String
  deriving DecidableEq, Inhabited

def Instance.bindings (i : Instance) (p : Program) : Subst :=
  match p.function? i.decl with
  | some f => Program.bindings f.generics i.args
  | none => []

/-- Everything that is emitted, sorted by emitted name. -/
structure Instances where
  functions : List Instance
  types : List TypeId
  foreign : List DefId
  globals : List DefId
  deriving Inhabited

namespace Instance

structure Search where
  program : Program
  naming : Naming
  requested : List (DefId × List TypeId) := []
  /-- What has been requested and not been visited, the latest first. -/
  pending : List (DefId × List TypeId) := []
  functions : Array Instance := #[]
  types : List TypeId := []
  foreign : List DefId := []
  globals : List DefId := []
  /-- Whether the search was given up because of a bound. -/
  exhausted : Bool := false

abbrev SearchM := StateM Search

def build (x : TypeM α) : SearchM α :=
  modifyGet fun s =>
    let (a, types) := x.run s.program.types
    (a, { s with program := { s.program with types } })

def exhaust : SearchM Unit := modify fun s => { s with exhausted := true }

/-- Records a concrete type: whether it is new. A type with parameters is not concrete. -/
def recordType (id : TypeId) : SearchM Bool :=
  modifyGet fun s =>
    if s.program.types.hasParams id || s.types.contains id then (false, s)
    else (true, { s with types := id :: s.types })

/-- Records the named types in a type; the members of those that are new are handed on. -/
def noteParts (noteMember : TypeId → SearchM Unit) : Nat → TypeId → SearchM Unit
  | 0, _ => return
  | m + 1, id => do
    match (← get).program.types.shape id with
    | .named decl _ args =>
      args.forM (noteParts noteMember m)
      if ← recordType id then
        let (generics, groups) := (← get).program.memberGroups decl
        groups.flatten.forM fun member => do
          noteMember (← build (TypeM.subst (Program.bindings generics args) member))
    | .array element _ => noteParts noteMember m element
    | shape => shape.parts.forM (noteParts noteMember m)

/-- Records the named types in a type, and those in their members, in which members of members are
followed up to a bound. The parts of a type are handles before its own. -/
def noteType : Nat → TypeId → SearchM Unit
  | 0, _ => exhaust
  | bound + 1, id => noteParts (noteType bound) (id.index + 1) id

def request (decl : DefId) (args : List TypeId) : SearchM Unit :=
  modify fun s =>
    if (s.program.function? decl).any (·.isForeign) then
      if s.foreign.contains decl then s else { s with foreign := decl :: s.foreign }
    else if s.requested.contains (decl, args) then s
    else { s with
      requested := (decl, args) :: s.requested
      pending := (decl, args) :: s.pending }

def noteGlobal (bound : Nat) (decl : DefId) : SearchM Unit := do
  let s ← get
  if !s.globals.contains decl then
    set { s with globals := decl :: s.globals }
    match s.program.global? decl with
    | some g => noteType bound g.type
    | none => return

def follow (bound : Nat) (s : Subst) : Typed.Mention → SearchM Unit
  | .exprType id => do noteType bound (← build (TypeM.subst s id))
  | .global decl => noteGlobal bound decl
  | .function decl args => do request decl (← build (args.mapM (TypeM.subst s)))
  | .traitMethod traitDef method selfType => do
    let selfType ← build (TypeM.subst s selfType)
    match (← get).program.traitMethod? traitDef method selfType with
    | some (decl, args) => request decl args
    | none => return

def signatureTypes (f : FunctionDef) : List TypeId := f.paramTypes ++ [f.result] ++ f.selfType.toList

def visit (bound : Nat) (decl : DefId) (args : List TypeId) : SearchM Unit := do
  match (← get).program.function? decl with
  | none => return
  | some f =>
    let s := Program.bindings f.generics args
    (signatureTypes f).forM fun id => follow bound s (.exprType id)
    match f.body with
    | some body => body.mentions.forM (follow bound s)
    | none => pure ()
    modify fun c => { c with
      functions := c.functions.push { decl, args, name := c.naming.functionName c.program decl args } }

def visitPending (bound : Nat) : Nat → SearchM Unit
  | 0 => exhaust
  | n + 1 => do
    match (← get).pending with
    | [] => return
    | (decl, args) :: rest =>
      modify fun s => { s with pending := rest }
      visit bound decl args
      visitPending bound n

def isGiven (p : Program) (d : Def) : Bool := p.units[d.unit.index]?.any (!·.isLibrary)

/-- Starts the search with a declaration of a given unit: a function without generics or a global. -/
def addRoot (bound : Nat) (decl : DefId) : SearchM Unit := do
  let p := (← get).program
  let d := p.getDef decl
  if isGiven p d then
    match d.kind with
    | .function f => if f.generics.isEmpty && !f.isForeign then request decl []
    | .const _ | .static _ => noteGlobal bound decl
    | _ => return

def search (bound : Nat) : SearchM Unit := do
  let count := (← get).program.defs.size
  (List.range count).forM fun i => addRoot bound ⟨i⟩
  visitPending bound bound

/-- The state in which a search ends that is made again within more whenever it reaches its bound. -/
def Search.endFrom (start : Search) (bound : Nat) : Option Search :=
  let s := (search bound start).2
  if s.exhausted then start |>.endFrom (2 * bound + 1) else some s
partial_fixpoint

def sortByName (name : α → String) (index : α → Nat) (items : List α) : List α :=
  let precedes (a b : String × α) : Bool := if a.1 == b.1 then index a.2 ≤ index b.2 else a.1 < b.1
  ((items.map fun a => (name a, a)).mergeSort precedes).map (·.2)

/-- What has been found, in the order in which it is emitted. -/
def Search.instances (s : Search) : Instances where
  functions := s.functions.toList.mergeSort fun a b => !(b.name < a.name)
  types := sortByName (s.naming.typeName s.program) (·.index) s.types
  foreign := sortByName s.program.defName (·.index) s.foreign
  globals := sortByName (s.naming.base s.program) (·.index) s.globals

end Instance

open Instance in
/-- What is emitted for a program that starts in a unit, and the program with the types of the
instances; nothing if the instances do not end. The first bound is out of reach otherwise. -/
def collectInstances (p : Program) (entry : UnitId) : Option (Instances × Program) :=
  let start : Search := { program := p, naming := { entry } }
  let first := (search (pow2 32) start).2
  let ended := if first.exhausted then start.endFrom (pow2 33) else some first
  ended.map fun s => (s.instances, s.program)

end Kite
