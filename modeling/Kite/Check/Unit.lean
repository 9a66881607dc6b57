/-
Checking whole units. Every unit that a unit imports has been checked before it. Inside a unit the
names come first, then the signatures, and then the values and bodies.
-/
import Kite.Check.Containment
import Kite.Check.Declare

namespace Kite.Check

/-! ## Implementations of traits -/

def signatureText (table : TypeTable) (receiver : Option Receiver) (params : List TypeId) (result : TypeId) : String :=
  let parts := receiverText receiver ++ params.map table.display
  "function(" ++ ", ".intercalate parts ++ ") -> " ++ table.display result

def overlaps (table : TypeTable) (a b : TypeId) : Bool := (table.match? a b).isSome || (table.match? b a).isSome

def checkRequired (traitName : String) (required : TraitMethod) (method : DefId) : CheckM Unit := do
  let span := (← getDef method).span
  (← demand).signature method span
  let p ← program
  match p.function? method with
  | none => return
  | some f =>
    if p.types.containsError f.result || f.paramTypes.any p.types.containsError then return
    if f.receiver == required.receiver && f.paramTypes == required.params
        && f.result == required.result then return
    let expected := signatureText p.types required.receiver required.params required.result
    let found := signatureText p.types f.receiver f.paramTypes f.result
    report span (.signatureDiffers required.name traitName expected found required.span)

def checkRequiredAll (traitName : String) (impl : ImplDef) : List TraitMethod → CheckM (List String)
  | [] => return []
  | required :: rest => do
    match (← program).methodOf? impl required.name with
    | some method =>
      checkRequired traitName required method
      checkRequiredAll traitName impl rest
    | none => return required.name :: (← checkRequiredAll traitName impl rest)

def checkImpl (index : Nat) (impl : ImplDef) (traitDef : DefId) : CheckM Unit := do
  let p ← program
  let traitName := p.defName traitDef
  let target := p.types.display impl.target
  let conflict := (p.impls.toList.take index).find? fun other =>
    other.traitDef == some traitDef && overlaps p.types other.target impl.target
  match conflict with
  | some other => report impl.span (.conflictingImpls traitName target other.span)
  | none => pure ()
  match p.trait? traitDef with
  | none => return
  | some decl =>
    let missing ← checkRequiredAll traitName impl decl.methods
    if !missing.isEmpty then report impl.span (.missingMethods missing traitName target)
    for method in impl.methods do
      let m ← getDef method
      if !decl.methods.any (·.name == m.name) then
        report m.span (.notInTrait m.name traitName)

def checkConformance (first : Nat) : CheckM Unit := do
  for (impl, index) in (← program).impls.toList.zipIdx do
    if first ≤ index then
      match impl.traitDef with
      | some traitDef => checkImpl index impl traitDef
      | none => pure ()

/-! ## Units -/

variable (unit : UnitId)

abbrev DeclaredItem := Item × Option DefId

def typeSignature : DeclaredItem → CheckM Unit
  | (⟨_, .struct _ generics fields _ _, _⟩, some id) => structSignature unit id generics fields
  | (⟨_, .enum name generics repr variants _, _⟩, some id) => enumSignature unit id name generics repr variants
  | (⟨_, .trait _ methods, _⟩, some id) => traitSignature unit id methods
  | _ => return

def functionSignatures : DeclaredItem → CheckM Unit
  | (⟨_, .function decl, _⟩, some id) => functionSignature unit id decl none
  | (⟨_, .struct _ _ _ methods _, span⟩, some id) => inlineMethods unit id methods span
  | (⟨_, .enum _ _ _ _ methods, span⟩, some id) => inlineMethods unit id methods span
  | (⟨_, .impl generics traitRef target methods, span⟩, _) => implBlock unit generics traitRef target methods span
  | _ => return

def discriminantsOf : DeclaredItem → CheckM Unit
  | (⟨_, .enum _ _ _ variants _, _⟩, some id) => enumDiscriminants unit id variants
  | _ => return

def isGlobal (id : DefId) : CheckM Bool := do
  return ((← get).globals.lookup id).isSome

def checkAssertItem : Item → CheckM Unit
  | ⟨_, .assert condition message, _⟩ => do
    let env ← envIn unit
    let _ ← runBody none do
      checkAssertion env (exprCheck env condition) condition.span (optionalCheck env message)
      return .void condition.span
  | _ => return

def checkFunctions : CheckM Unit := do
  let info := (← program).units.getD unit.index default
  for id in info.defs do
    if ((← program).function? id).isSome then ensureFunction id

def checkSignatures (items : List DeclaredItem) (decls : List DefId) : CheckM Unit := do
  let firstImpl := (← program).impls.size
  deferBounds
  items.forM (typeSignature unit)
  items.forM (functionSignatures unit)
  for id in decls do
    if ← isGlobal id then
      let _ ← ensureGlobalType id
  items.forM (discriminantsOf unit)
  flushBounds
  checkConformance firstImpl

def checkBodies (items : List Item) (decls : List DefId) : CheckM Unit := do
  for id in decls do
    if ← isGlobal id then
      let _ ← ensureGlobal id
  items.forM (checkAssertItem unit)
  checkFunctions unit

/-- The names of all items come before their signatures. -/
def resolveItems (items : List Item) : CheckM (List DefId) := do
  let declared ← items.mapM (declareItem unit)
  let decls := declared.filterMap id
  checkSignatures unit (items.zip declared) decls
  return decls

def checkItems (items : List Item) : CheckM Unit := do
  let decls ← resolveItems unit items
  checkContainment decls
  checkBodies unit items decls

def checkUnit (name : String) (module : Module) (isLibrary : Bool) : CheckM UnitId := do
  let unit ← addUnit name module.file isLibrary
  resolveImports unit module.imports
  checkItems unit module.items
  return unit

end Kite.Check
