/-
The library units of a compilation. A round adds units that those before it import, so each of them
is reached from a given unit; there are no more rounds than units to add, and when nothing more is
wanted, all that is imported is there.
-/
import Mathlib.Data.List.Nodup
import Mathlib.Logic.Relation
import Kite.Compilation.Load

namespace Kite.Frontend

open List

variable {f : Frontend} {library loaded : List LibraryUnit} {maxDepth : Nat} {u : LibraryUnit}

def names (f : Frontend) : List String := f.units.map (·.name)

/-- A unit that is there imports a name. -/
def Imports (f : Frontend) (a b : String) : Prop :=
  ∃ unit ∈ f.units, unit.name = a ∧ b ∈ unit.parsed.module.imports.map (·.unit.name)

def addAll (maxDepth : Nat) (f : Frontend) (loaded : List LibraryUnit) : Frontend :=
  loaded.foldl (fun f unit => f.add unit.name unit.text maxDepth true) f

lemma units_foldl {name text : α → String} {isLibrary : Bool} : ∀ {l : List α} {f : Frontend},
    f.units ⊆ (l.foldl (fun f x => f.add (name x) (text x) maxDepth isLibrary) f).units ∧
      (l.foldl (fun f x => f.add (name x) (text x) maxDepth isLibrary) f).names = f.names ++ l.map name
  | [], f => ⟨List.Subset.refl _, (append_nil _).symm⟩
  | x :: l, f => by
    obtain ⟨hunits, hnames⟩ := @units_foldl α name text isLibrary l (f.add (name x) (text x) maxDepth isLibrary)
    refine ⟨List.Subset.trans (subset_append_left _ _) hunits, hnames.trans ?_⟩
    simp [names, add]

lemma Imports.mono {f' : Frontend} (hsub : f.units ⊆ f'.units) (h : f.Imports a b) : f'.Imports a b :=
  h.imp fun _ h => ⟨hsub h.1, h.2⟩

def isMissing (f : Frontend) (u : LibraryUnit) : Bool := (f.find? u.name).isNone

lemma isMissing_iff : f.isMissing u ↔ u.name ∉ f.names := by simp [isMissing, find?, names]

lemma mem_wanted : u ∈ f.wanted library ↔ u ∈ library ∧ u.name ∉ f.names ∧ ∃ a, f.Imports a u.name := by
  unfold wanted
  rw [mem_filter, Bool.and_eq_true, ← isMissing, isMissing_iff, contains_iff_mem, mem_flatMap]
  simp [Imports]

def round (library : List LibraryUnit) (maxDepth : Nat) (f : Frontend) : Frontend :=
  f.addAll maxDepth (f.wanted library)

lemma names_round : (f.round library maxDepth).names = f.names ++ (f.wanted library).map (·.name) := units_foldl.2

lemma missing_lt (maxDepth : Nat) (h : f.wanted library ≠ []) :
    (library.filter (f.round library maxDepth).isMissing).length < (library.filter f.isMissing).length := by
  obtain ⟨first, hfirst⟩ := exists_mem_of_ne_nil _ h
  obtain ⟨hmem, hnew, -⟩ := mem_wanted.1 hfirst
  have hfewer : library.filter (f.round library maxDepth).isMissing =
      (library.filter f.isMissing).filter (f.round library maxDepth).isMissing := by
    rw [filter_filter]
    refine filter_congr fun u _ => ?_
    rw [Bool.eq_iff_iff, Bool.and_eq_true, isMissing_iff, isMissing_iff, names_round, mem_append]
    tauto
  rw [hfewer, length_filter_lt_length_iff_exists]
  refine ⟨first, mem_filter.2 ⟨hmem, isMissing_iff.2 hnew⟩, fun hmissing => ?_⟩
  rw [isMissing_iff, names_round] at hmissing
  exact hmissing (mem_append_right _ (mem_map_of_mem hfirst))

/-- What is added to `f` to make `f'`: the units that are missing and can be reached, each once. -/
structure Loads (library : List LibraryUnit) (f f' : Frontend) (loaded : List LibraryUnit) : Prop where
  nodup : loaded.Nodup
  new : ∀ u ∈ loaded, u ∈ library ∧ u.name ∉ f.names
  reached : ∀ u ∈ loaded, ∃ a ∈ f.names, Relation.TransGen f'.Imports a u.name
  closed : f'.wanted library = []

lemma loads_nil (h : f.wanted library = []) : Loads library f f [] := ⟨.nil, forall_mem_nil _, forall_mem_nil _, h⟩

lemma Loads.after_round (hnodup : library.Nodup) (hunits : (f.round library maxDepth).units ⊆ f'.units)
    (h : Loads library (f.round library maxDepth) f' loaded) : Loads library f f' (f.wanted library ++ loaded) := by
  have hfirst : ∀ u ∈ f.wanted library, ∃ a ∈ f.names, f'.Imports a u.name := fun u hu => by
    obtain ⟨-, -, a, himports⟩ := mem_wanted.1 hu
    obtain ⟨unit, hunit, rfl, -⟩ := id himports
    exact ⟨_, mem_map_of_mem hunit, himports.mono (List.Subset.trans units_foldl.1 hunits)⟩
  have hnew : ∀ u ∈ loaded, u.name ∉ f.names ∧ u.name ∉ (f.wanted library).map (·.name) := fun u hu => by
    have := (h.new u hu).2
    rwa [names_round, mem_append, not_or] at this
  refine ⟨?_, fun u hu => ?_, fun u hu => ?_, h.closed⟩
  · refine nodup_append'.2 ⟨hnodup.filter _, h.nodup, fun u hu hu' => ?_⟩
    exact (hnew u hu').2 (mem_map_of_mem hu)
  · rcases mem_append.1 hu with hu | hu
    · obtain ⟨hmem, hmissing, -⟩ := mem_wanted.1 hu
      exact ⟨hmem, hmissing⟩
    · exact ⟨(h.new u hu).1, (hnew u hu).1⟩
  · rcases mem_append.1 hu with hu | hu
    · obtain ⟨a, ha, himports⟩ := hfirst u hu
      exact ⟨a, ha, .single himports⟩
    · obtain ⟨a, ha, hpath⟩ := h.reached u hu
      rw [names_round] at ha
      rcases mem_append.1 ha with ha | ha
      · exact ⟨a, ha, hpath⟩
      · obtain ⟨v, hv, rfl⟩ := mem_map.1 ha
        obtain ⟨a, ha, himports⟩ := hfirst v hv
        exact ⟨a, ha, .head himports hpath⟩

lemma loads_closeWithin (maxDepth : Nat) (hnodup : library.Nodup) : ∀ (n : Nat) (f : Frontend),
    (library.filter f.isMissing).length ≤ n → ∃ loaded, closeWithin library maxDepth n f = f.addAll maxDepth loaded ∧
      Loads library f (f.addAll maxDepth loaded) loaded
  | 0, f, hmissing => by
    refine ⟨[], rfl, loads_nil (eq_nil_iff_forall_not_mem.2 fun u hu => ?_)⟩
    obtain ⟨hmem, hnew, -⟩ := mem_wanted.1 hu
    have hnone := length_eq_zero_iff.1 (Nat.le_zero.1 hmissing)
    exact not_mem_nil (hnone ▸ mem_filter.2 ⟨hmem, isMissing_iff.2 hnew⟩)
  | n + 1, f, hmissing => by
    rw [closeWithin]
    split
    · exact ⟨[], rfl, loads_nil ‹_›⟩
    · rename_i hwanted
      have hlt := missing_lt maxDepth hwanted
      obtain ⟨loaded, hrun, hloads⟩ := loads_closeWithin maxDepth hnodup n (f.round library maxDepth) (by omega)
      have happend : f.addAll maxDepth (f.wanted library ++ loaded) = (f.round library maxDepth).addAll maxDepth loaded :=
        foldl_append
      exact ⟨_, hrun.trans happend.symm, happend ▸ hloads.after_round hnodup units_foldl.1⟩

/-- The given units, before any of the library. -/
def given (units : List SourceUnit) (maxDepth : Nat) : Frontend :=
  units.foldl (fun f unit => f.add unit.name unit.text maxDepth false) {}

lemma names_given (units : List SourceUnit) : (given units maxDepth).names = units.map (·.name) := units_foldl.2

/-- Of a library whose units have different names, each unit is loaded at most once, and exactly those are
that have no name of a given unit and are reached from these along imports. -/
theorem load_reachable (units : List SourceUnit) (maxDepth : Nat) (hnodup : (library.map (·.name)).Nodup) :
    ∃ loaded : List LibraryUnit,
      load units library maxDepth = (given units maxDepth).addAll maxDepth loaded ∧ loaded.Nodup ∧
      ∀ u, u ∈ loaded ↔ u ∈ library ∧ (∀ unit ∈ units, unit.name ≠ u.name) ∧
        ∃ unit ∈ units, Relation.TransGen (load units library maxDepth).Imports unit.name u.name := by
  obtain ⟨loaded, hrun, hloads⟩ := loads_closeWithin maxDepth hnodup.of_map library.length (given units maxDepth)
    (length_filter_le _ _)
  change load units library maxDepth = _ at hrun
  refine ⟨loaded, hrun, hloads.nodup, fun u => ⟨fun hu => ?_, ?_⟩⟩
  · obtain ⟨hmem, hnew⟩ := hloads.new u hu
    obtain ⟨a, ha, hpath⟩ := hloads.reached u hu
    rw [names_given] at ha hnew
    obtain ⟨unit, hunit, rfl⟩ := mem_map.1 ha
    exact ⟨hmem, fun unit hunit heq => hnew (heq ▸ mem_map_of_mem hunit), unit, hunit, hrun ▸ hpath⟩
  · -- It is imported at the end of the path, and nothing that is imported is missing.
    rintro ⟨hmem, hnew, unit, hunit, hpath⟩
    obtain ⟨a, -, himports⟩ := Relation.TransGen.tail'_iff.1 hpath
    have hthere : u.name ∈ (load units library maxDepth).names := by
      by_contra hmissing
      exact not_mem_nil (hloads.closed ▸ mem_wanted.2 ⟨hmem, hrun ▸ hmissing, a, hrun ▸ himports⟩)
    rw [hrun, addAll, units_foldl.2, names_given, mem_append] at hthere
    rcases hthere with hthere | hthere
    · obtain ⟨unit, hunit, heq⟩ := mem_map.1 hthere
      exact absurd heq (hnew unit hunit)
    · obtain ⟨v, hv, heq⟩ := mem_map.1 hthere
      rwa [← inj_on_of_nodup_map hnodup (hloads.new v hv).1 hmem heq]

def chain : List LibraryUnit := [⟨"list", "list.kite", "import text;"⟩, ⟨"text", "text.kite", ""⟩]

theorem load_reachable_chain : (load [⟨"main", "import list;"⟩] chain 8).names = ["main", "list", "text"] ∧
    ∃ loaded : List LibraryUnit, load [⟨"main", "import list;"⟩] chain 8 =
      (given [⟨"main", "import list;"⟩] 8).addAll 8 loaded ∧ loaded.Nodup :=
  ⟨by decide +kernel, (load_reachable _ 8 (by decide)).imp fun _ h => ⟨h.1, h.2.1⟩⟩

end Kite.Frontend
