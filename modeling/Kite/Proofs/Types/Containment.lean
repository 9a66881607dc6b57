/-
Types that hold each other by value. A declaration is compared with what its members hold as they are
declared; the values of an instance hold what the members hold once the arguments stand in their
places. If declarations do not hold themselves, and no way round leads through an argument whose
values are held, then no concrete type holds itself, however its arguments are nested.
-/
import Mathlib.Logic.Relation
import Mathlib.Order.WellFounded
import Kite.Check.Containment
import Kite.Proofs.Emission.Emittable

namespace Kite

open List

variable {member : TypeId}

/-! ## What stands in a value -/

/-- The second type stands in values of the first one, which may be itself: it is met through
optionals, tuples and the elements of arrays. Shared types are behind a handle. -/
inductive Ty.Holds (shared : DefId → Bool) : Ty → Ty → Prop where
  | named {args : List Ty} (h : shared decl = false) :
    Holds shared (.node (.named decl) args) (.node (.named decl) args)
  | optional {part : Ty} (hpart : part ∈ parts) (h : Holds shared part u) :
    Holds shared (.node .optional parts) u
  | tuple {part : Ty} (hpart : part ∈ parts) (h : Holds shared part u) :
    Holds shared (.node .tuple parts) u
  | element {part : Ty} (h : Holds shared part u) : Holds shared (.node .array (part :: parts)) u

variable {decl : DefId}

namespace Program

def Contains (p : Program) (t u : Ty) : Prop :=
  ∃ decl args, t = .node (.named decl) args ∧ ∃ member ∈ (p.memberGroups decl).2.flatten,
    Ty.Holds p.isClass ((p.types.tree member).subst (.bindOpen (p.memberGroups decl).1 args)) u

variable {p : Program}

lemma mem_heldFrom : ∀ n type,
    type.index < n → Ty.Holds (fun _ => false) (p.types.tree type) (.node (.named decl) args) → decl ∈ p.heldFrom n type
  | n + 1, type, hn, h => by
    have hpart : ∀ part ∈ (p.types.shape type).parts,
        Ty.Holds (fun _ => false) (p.types.tree part) (.node (.named decl) args) → decl ∈ p.heldFrom n part := by
      intro part hpart
      have hlt := p.types.parts_shape_lt hpart
      exact mem_heldFrom n part (by omega)
    rw [p.types.tree_eq] at h
    unfold heldFrom
    cases hshape : p.types.shape type with
    | named _ _ _ =>
      rw [hshape] at h
      cases h with
      | named _ => simp
    | optional inner =>
      rw [hshape] at h hpart
      cases h with
      | optional hmem h =>
        rw [mem_singleton.1 hmem] at h
        exact hpart inner (by simp) h
    | array inner _ =>
      rw [hshape] at h hpart
      cases h with
      | element h => exact hpart inner (by simp) h
    | tuple items =>
      rw [hshape] at h hpart
      cases items with
      | nil => cases h
      | cons first rest =>
        cases h with
        | tuple hmem h =>
          obtain ⟨item, hitem, rfl⟩ := mem_map.1 hmem
          exact mem_flatMap.2 ⟨item, hitem, hpart item hitem h⟩
    | _ =>
      rw [hshape] at h
      cases h

lemma members?_of_memberGroups (hclass : p.isClass decl = false)
    (hmember : member ∈ (p.memberGroups decl).2.flatten) :
    ∃ generics members, p.members? decl = some (generics, members) ∧ member ∈ members := by
  unfold isClass struct? at hclass
  unfold memberGroups at hmember
  unfold members?
  cases hkind : (p.getDef decl).kind with
  | struct s =>
    rw [hkind] at hclass hmember
    have hclass : s.isClass = false := hclass
    refine ⟨s.generics, s.fields.map (·.type), by simp [hclass], by simpa using hmember⟩
  | enum e =>
    rw [hkind] at hmember
    exact ⟨e.generics, _, rfl, by simpa [List.flatMap] using hmember⟩
  | _ =>
    rw [hkind] at hmember
    cases hmember

lemma mem_held (hclass : p.isClass decl = false) (hmember : member ∈ (p.memberGroups decl).2.flatten)
    (h : Ty.Holds (fun _ => false) (p.types.tree member) (.node (.named other) args)) : other ∈ p.held decl := by
  obtain ⟨generics, members, hmembers, hmem⟩ := members?_of_memberGroups hclass hmember
  unfold held
  rw [hmembers]
  exact mem_flatMap.2 ⟨member, hmem, mem_heldFrom _ member (Nat.lt_succ_self _) h⟩

end Program

/-! ## Sizes -/

/-- What bounds the size of values: a rank that never grows on the way from a declaration to what it
holds, and falls on the way into the arguments of what it holds; and the parameters of each
declaration whose values it holds. -/
structure Sizing where
  rank : DefId → Nat
  carries : DefId → ParamId → Bool

namespace Sizing

variable (z : Sizing) (p : Program) (decl : DefId)

mutual

/-- Whether a type may stand in a member of a declaration; `inner` inside of an argument. Arguments
count only where their values are held. -/
def admits (inner : Bool) : Ty → Bool
  | .param id => z.carries decl id
  | .node (.named held) args =>
    p.isClass held ||
      (if inner then z.rank held < z.rank decl else z.rank held ≤ z.rank decl) &&
        admitsArgs held (p.memberGroups held).1 args
  | .node .optional parts | .node .tuple parts => admitsAll inner parts
  | .node .array (element :: _) => admits inner element
  | _ => true

def admitsAll (inner : Bool) : List Ty → Bool
  | [] => true
  | t :: ts => admits inner t && admitsAll inner ts

def admitsArgs (held : DefId) : List Generic → List Ty → Bool
  | g :: generics, arg :: args => (!z.carries held g.id || admits true arg) && admitsArgs held generics args
  | _, _ => true

end

def fits (z : Sizing) (p : Program) : Bool :=
  (List.range p.defs.size).all fun i =>
    p.isClass ⟨i⟩ || (p.memberGroups ⟨i⟩).2.flatten.all fun member => z.admits p ⟨i⟩ false (p.types.tree member)

variable {z p decl}

lemma admits_of_fits (h : z.fits p) (hclass : p.isClass decl = false)
    (hmember : member ∈ (p.memberGroups decl).2.flatten) : z.admits p decl false (p.types.tree member) := by
  have hlt : decl.index < p.defs.size := by
    refine Decidable.byContradiction fun hge => ?_
    unfold Program.memberGroups at hmember
    rw [Program.getDef_eq_default (Nat.le_of_not_lt hge)] at hmember
    cases hmember
  have hdecl := all_eq_true.1 h decl.index (mem_range.2 hlt)
  rw [hclass, Bool.false_or] at hdecl
  exact all_eq_true.1 hdecl member hmember

end Sizing

/-! ## No type holds itself -/

section

variable {p : Program} {z : Sizing}

/-- All that stands in values of a type is finite. -/
def Ty.Sized (p : Program) (t : Ty) : Prop := ∀ u, t.Holds p.isClass u → Acc (fun u t => p.Contains t u) u

/-- The arguments of a declaration whose values it holds are finite. -/
def Program.SizedArgs (p : Program) (z : Sizing) (decl : DefId) (args : List Ty) : Prop :=
  ∀ g arg, (g, arg) ∈ (p.memberGroups decl).1.zip args → z.carries decl g.id → arg.Sized p

/-- A struct or enum makes finite types of finite arguments. -/
def Program.MakesSized (p : Program) (z : Sizing) (decl : DefId) : Prop :=
  p.isClass decl = false → ∀ args, p.SizedArgs z decl args → Acc (fun u t => p.Contains t u) (.node (.named decl) args)

lemma mem_zip_of_lookup {α : Type} {id : ParamId} {a : α} : ∀ {generics : List Generic} {args : List α},
    ((generics.map (·.id)).zip args).lookup id = some a → ∃ g, (g, a) ∈ generics.zip args ∧ g.id = id
  | g :: generics, arg :: args, h => by
    rw [map_cons, zip_cons_cons, lookup_cons] at h
    split at h
    · cases h
      exact ⟨g, .head _, (eq_of_beq ‹_›).symm⟩
    · obtain ⟨found, hmem, hid⟩ := mem_zip_of_lookup h
      exact ⟨found, mem_cons_of_mem _ hmem, hid⟩

variable {decl : DefId}

section

variable {s : ParamId → Ty}

/-- What is put into the members of a declaration, and what has a smaller rank, is finite. -/
structure Grounds (p : Program) (z : Sizing) (decl : DefId) (s : ParamId → Ty) : Prop where
  params : ∀ id, z.carries decl id → (s id).Sized p
  ranks : ∀ held, z.rank held < z.rank decl → p.MakesSized z held

mutual

/-- What stands in a member is finite once finite arguments stand in it. -/
theorem sized_subst (hg : Grounds p z decl s) : ∀ inner t, z.admits p decl inner t →
      (inner = false → ∀ held args, t.Holds (fun _ => false) (.node (.named held) args) →
        z.rank held ≤ z.rank decl → p.MakesSized z held) → (t.subst s).Sized p
  | _, .param id, hadmits, _ => hg.params id hadmits
  | inner, .node (.named held) args, hadmits, hdirect => by
    intro u hu
    rw [Ty.subst_node] at hu
    cases hu with
    | named hclass =>
      simp only [Sizing.admits, hclass, Bool.false_or, Bool.and_eq_true] at hadmits
      have hmakes : p.MakesSized z held := by
        cases inner with
        | true => exact hg.ranks held (by simpa using hadmits.1)
        | false => exact hdirect rfl held args (.named rfl) (by simpa using hadmits.1)
      exact hmakes hclass _ (sizedArgs_subst hg args _ hadmits.2)
  | inner, .node .optional parts, hadmits, hdirect => by
    intro u hu
    rw [Ty.subst_node] at hu
    cases hu with
    | optional hmem hu =>
      exact sized_parts hg inner parts hadmits
        (fun hinner part hpart held args h => hdirect hinner held args (.optional hpart h)) _ hmem u hu
  | inner, .node .tuple parts, hadmits, hdirect => by
    intro u hu
    rw [Ty.subst_node] at hu
    cases hu with
    | tuple hmem hu =>
      exact sized_parts hg inner parts hadmits
        (fun hinner part hpart held args h => hdirect hinner held args (.tuple hpart h)) _ hmem u hu
  | inner, .node .array (part :: parts), hadmits, hdirect => by
    intro u hu
    cases hu with
    | element hu =>
      exact sized_subst hg inner part hadmits
        (fun hinner held args h => hdirect hinner held args (.element h)) u hu
  | _, .node .array [], _, _ => by
    intro u hu
    cases hu
  | _, .node .error _, _, _ | _, .node .void _, _, _ | _, .node .never _, _, _ | _, .node .bool _, _, _
  | _, .node .char _, _, _ | _, .node .string _, _, _ | _, .node (.int _) _, _, _ | _, .node (.float _) _, _, _
  | _, .node (.const _) _, _, _ | _, .node .vector _, _, _ | _, .node (.view _) _, _, _
  | _, .node .raw _, _, _ | _, .node .function _, _, _ => by
    intro u hu
    cases hu

theorem sized_parts (hg : Grounds p z decl s) : ∀ inner ts, z.admitsAll p decl inner ts →
      (inner = false → ∀ t ∈ ts, ∀ held args, t.Holds (fun _ => false) (.node (.named held) args) →
        z.rank held ≤ z.rank decl → p.MakesSized z held) → ∀ t ∈ ts.map (Ty.subst s), t.Sized p
  | _, [], _, _ => by simp
  | inner, t :: ts, hadmits, hdirect => by
    rw [Sizing.admitsAll, Bool.and_eq_true] at hadmits
    rw [map_cons, forall_mem_cons]
    exact ⟨sized_subst hg inner t hadmits.1 fun hinner => hdirect hinner t (by simp),
      sized_parts hg inner ts hadmits.2 fun hinner t ht => hdirect hinner t (by simp [ht])⟩

theorem sizedArgs_subst (hg : Grounds p z decl s) {held : DefId} : ∀ args generics, z.admitsArgs p decl held generics args →
      ∀ g arg, (g, arg) ∈ generics.zip (args.map (Ty.subst s)) → z.carries held g.id → arg.Sized p
  | [], generics, _, g, arg, hmem, _ | first :: args, [], _, g, arg, hmem, _ => by simp at hmem
  | first :: args, h :: generics, hadmits, g, arg, hmem, hcarries => by
    rw [Sizing.admitsArgs, Bool.and_eq_true] at hadmits
    rw [map_cons, zip_cons_cons, mem_cons] at hmem
    rcases hmem with heq | hmem
    · cases heq
      exact sized_subst hg true first (by simpa [hcarries] using hadmits.1) nofun
    · exact sizedArgs_subst hg args generics hadmits.2 g arg hmem hcarries

end

end

/-- One step: what a declaration holds is finite if what has a smaller rank, or is held by it, makes
finite types. -/
lemma makesSized_step (hfits : z.fits p) (hranks : ∀ held, z.rank held < z.rank decl → p.MakesSized z held)
    (hheld : ∀ held ∈ p.held decl, z.rank held ≤ z.rank decl → p.MakesSized z held) : p.MakesSized z decl := by
  intro hclass args hargs
  refine ⟨_, fun u hu => ?_⟩
  obtain ⟨_, _, heq, member, hmember, hu⟩ := hu
  cases heq
  refine sized_subst ⟨fun id hcarries => ?_, hranks⟩ false _ (Sizing.admits_of_fits hfits hclass hmember)
    (fun _ held args h hle => hheld held (Program.mem_held hclass hmember h) hle) u hu
  unfold Ty.bindOpen
  cases hlookup : (((p.memberGroups decl).1.map (·.id)).zip args).lookup id with
  | none =>
    intro u hu
    cases hu
  | some arg =>
    obtain ⟨g, hmem, rfl⟩ := mem_zip_of_lookup hlookup
    exact hargs g arg hmem hcarries

-- By rank, and among equal ranks along what is held.
lemma makesSized (hfits : z.fits p) (hheld : WellFounded fun other decl => other ∈ p.held decl)
    (decl : DefId) : p.MakesSized z decl := by
  induction hrank : z.rank decl using Nat.strong_induction_on generalizing decl with
  | _ rank ihrank =>
    induction decl using hheld.induction with
    | _ decl ihheld =>
      refine makesSized_step hfits (fun held hlt => ihrank _ (hrank ▸ hlt) held rfl) fun held hmem hle => ?_
      rcases Nat.lt_or_eq_of_le hle with hlt | heq
      · exact ihrank _ (hrank ▸ hlt) held rfl
      · exact ihheld held hmem (heq.trans hrank)

mutual

theorem sized (hmakes : ∀ decl, p.MakesSized z decl) : ∀ t : Ty, t.Sized p
  | .param _ => fun _ hu => by cases hu
  | .node _ parts => by
    have hparts := sizedAll hmakes parts
    intro u hu
    cases hu with
    | named hclass => exact hmakes _ hclass parts fun g arg hmem _ => hparts arg (of_mem_zip hmem).2
    | optional hmem hu | tuple hmem hu => exact hparts _ hmem u hu
    | element hu => exact hparts _ (.head _) u hu

theorem sizedAll (hmakes : ∀ decl, p.MakesSized z decl) : ∀ ts : List Ty, ∀ t ∈ ts, t.Sized p
  | [] => by simp
  | t :: ts => forall_mem_cons.2 ⟨sized hmakes t, sizedAll hmakes ts⟩

end

lemma wellFounded_contains (hfits : z.fits p) (hheld : WellFounded fun other decl => other ∈ p.held decl) :
    WellFounded fun u t => p.Contains t u :=
  ⟨fun _ => ⟨_, fun u ⟨_, _, _, _, _, hu⟩ => sized (makesSized hfits hheld) _ u hu⟩⟩

end

end Kite
