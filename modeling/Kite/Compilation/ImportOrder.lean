/-
The order in which units are checked: each after the units it imports. Imports that close a cycle
do not count for the order; each cycle is reported once.
-/
import Kite.Compilation.Load

namespace Kite

variable (units : List LoadedUnit)

namespace ImportOrder

/-- Imports between units that are there, by index, with the places where they are written. -/
abbrev Edges := List (List (Nat × Span))

inductive Mark where
  | new
  | active
  | done
  deriving DecidableEq, Inhabited

structure Walk where
  marks : Array Mark
  stack : List Nat := []
  order : List Nat := []
  cycles : List (List Nat) := []

def Walk.setMark (w : Walk) (node : Nat) (mark : Mark) : Walk :=
  { w with marks := w.marks.setIfInBounds node mark }

/-- Adds the cycle that an import of `target` closes, unless one of the same units is known. -/
def Walk.addCycle (w : Walk) (target : Nat) : Walk :=
  let cycle := w.stack.dropWhile (· != target)
  let key := cycle.mergeSort
  if w.cycles.any (·.mergeSort == key) then w else { w with cycles := w.cycles ++ [cycle] }

/-- Visits a unit and then, on the way back, puts it into the order. Each visit marks a new unit,
so `n` visits are never nested for fewer than `n` units. -/
def visit (edges : Edges) : Nat → Nat → Walk → Walk
  | 0, _, w => w
  | n + 1, node, w =>
    let w := { w.setMark node .active with stack := w.stack ++ [node] }
    let w := (edges.getD node []).foldl (fun w (target, _) =>
      match w.marks.getD target .done with
      | .new => visit edges n target w
      | .active => w.addCycle target
      | .done => w) w
    { w.setMark node .done with stack := w.stack.dropLast, order := w.order ++ [node] }

def visitAll (edges : Edges) (roots : List Nat) : Walk :=
  let start : Walk := { marks := .replicate edges.length .new }
  roots.foldl (fun w root =>
    if w.marks.getD root .done == .new then visit edges edges.length root w else w) start

/-! ## Names -/

def indexOf? (name : String) : Option Nat := units.findIdx? (·.name == name)

def edgesOf : Edges :=
  units.map fun unit =>
    unit.parsed.module.imports.filterMap fun decl =>
      (indexOf? units decl.unit.name).map (·, decl.unit.span)

def roots : List Nat :=
  (List.range units.length).filter fun index =>
    (units[index]?.bind fun unit => indexOf? units unit.name) == some index

/-! ## Reports -/

def duplicate (unit : LoadedUnit) : Diagnostic :=
  .error .driver "E0903" (.ofFile unit.parsed.file) s!"unit `{unit.name}` is provided more than once"

def cycleReport (edges : Edges) (cycle : List Nat) : Diagnostic :=
  let name (index : Nat) : String := (units[index]?.map (·.name)).getD ""
  let span (source target : Nat) : Span :=
    (((edges.getD source []).find? (·.1 == target)).map (·.2)).getD
      (((units[source]?).map fun unit => Span.ofFile unit.parsed.file).getD {})
  let first := cycle.headD 0
  let names := ", ".intercalate (cycle.map fun index => s!"`{name index}`")
  let chain := " -> ".intercalate ((cycle ++ cycle.take 1).map name)
  let report := Diagnostic.error .driver "E0901" (span (cycle.getLastD 0) first)
    s!"import cycle between units {names}"
  let report := (cycle.zip cycle.tail).foldl (fun report (source, target) =>
    report.withRelated (span source target) s!"`{name source}` imports `{name target}` here") report
  report.withNote s!"the cycle is {chain}"

end ImportOrder

open ImportOrder in
/-- The indices of the units in the order of checking, and what is wrong with the units as a
whole: names that are given twice, and import cycles. -/
def importOrder : List Nat × List Diagnostic :=
  let firsts := roots units
  let edges := edgesOf units
  let walk := visitAll edges firsts
  let duplicates := (units.zipIdx.filter fun (_, index) => !firsts.contains index).map
    fun (unit, _) => duplicate unit
  (walk.order, duplicates ++ walk.cycles.map (cycleReport units edges))

def Diagnostic.isImportCycle (d : Diagnostic) : Bool := d.code == some "E0901"

end Kite
