/-
The index of symbols for editors: every definition, and every use that was resolved to one.
-/
import Kite.Source.Span
import Kite.Types.Basic

namespace Kite

structure SymbolId where
  index : Nat
  deriving DecidableEq, Inhabited

inductive SymbolKind where
  | function | struct | class_ | enum | variant | trait | const | static | field | method | param
  | local_ | genericParam | unit
  deriving DecidableEq, Inhabited

structure SymbolDef where
  name : String
  kind : SymbolKind
  span : Span
  decl : Option DefId
  detail : String
  deriving Inhabited

structure SymbolRef where
  span : Span
  target : SymbolId

structure SymbolIndex where
  definitions : Array SymbolDef := #[]
  references : Array SymbolRef := #[]
  deriving Inhabited

variable (index : SymbolIndex)

namespace SymbolIndex

def define (symbol : SymbolDef) : SymbolId × SymbolIndex :=
  (⟨index.definitions.size⟩, { index with definitions := index.definitions.push symbol })

def get? (id : SymbolId) : Option SymbolDef := index.definitions[id.index]?

def symbolFor? (decl : DefId) : Option SymbolId :=
  (index.definitions.findIdx? (·.decl == some decl)).map SymbolId.mk

def addReference (span : Span) (target : SymbolId) : SymbolIndex :=
  { index with references := index.references.push { span, target } }

def addReferenceTo (span : Span) (decl : DefId) : SymbolIndex :=
  match index.symbolFor? decl with
  | some target => index.addReference span target
  | none => index

def setDetail (id : SymbolId) (detail : String) : SymbolIndex :=
  { index with definitions := index.definitions.modify id.index ({ · with detail }) }

/-- The definition that is named at an offset, by a use or by the definition itself. -/
def definitionAt? (file : FileId) (offset : Nat) : Option SymbolDef :=
  let hit (span : Span) : Bool := span.file == file && span.contains offset
  match index.references.find? (hit ·.span) with
  | some use => index.get? use.target
  | none => index.definitions.find? (hit ·.span)

def referencesTo (target : SymbolId) : List SymbolRef :=
  index.references.toList.filter (·.target == target)

end SymbolIndex

end Kite
