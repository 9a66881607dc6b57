/-
What declaring a unit does to the contents of structs, classes and enums. The declarations of earlier
units keep theirs; those of the new ones are in the table of types; and after the signatures only
bodies and values change. What an evaluation can have met of a declaration is never changed either: a
function is not callable and an enum has no numbers until its own signature is set, and that happens
once.
-/
import Mathlib.Data.List.Pairwise
import Kite.Check.Unit
import Kite.Proofs.Check.Declarations

namespace Kite

open List Program TypeTable

variable {type : TypeId} {variants : List VariantDecl} {span : Span} {q : Program} {f : DefKind → DefKind}
  {c' : Checker} {n : Nat} {env : Env} {unit : UnitId}

/-- What settling keeps of a declaration that an evaluation can have met nothing of. -/
def DefKind.blank : Option (Option Receiver × List Generic) × (Nat → Option Int) × Bool × Bool :=
  (none, fun _ => none, false, false)

lemma DefKind.Later.of_blank {k : DefKind} (h : k.outline = DefKind.blank) (l : DefKind) : k.Later l := by
  simp only [outline, blank, Prod.mk.injEq] at h
  obtain ⟨hcomptime, hnumbers, -, hglobal⟩ := h
  have hglobal : k.global? = none := by simpa using hglobal
  refine ⟨fun s hs => ?_, fun s _ hs => ?_, fun v hv => ?_, fun index n hn => ?_⟩
  · rw [hcomptime] at hs
    cases hs
  · rw [hcomptime] at hs
    cases hs
  · simp [constant?, value?, hglobal] at hv
  · rw [hnumbers] at hn
    cases hn

/-! ## Declarations in a program -/

/-- What a struct, class or enum consists of: its generics and the types of all its members. -/
structure Contents where
  generics : List Generic
  members : List TypeId
  isClass : Bool

def DefKind.contents? : DefKind → Option Contents
  | .struct s => some ⟨s.generics, s.fields.map (·.type), s.isClass⟩
  | .enum e => some ⟨e.generics, e.variants.flatMap (·.payload), false⟩
  | _ => none

structure Contents.Held (k : Contents) (table : TypeTable) : Prop where
  generics : ∀ g ∈ k.generics, table.Holds g.type
  members : ∀ type ∈ k.members, table.Holds type

lemma Contents.Held.mono {k : Contents} {a b : TypeTable} (hab : a ≤ b) (h : k.Held a) : k.Held b :=
  ⟨fun g hg => (h.generics g hg).mono hab, fun type htype => (h.members type htype).mono hab⟩

namespace Program

def contents? (p : Program) (decl : DefId) : Option Contents := (p.getDef decl).kind.contents?

variable {p : Program} {id decl : DefId} {k : Contents}

lemma kind_congr (h : q.defs = p.defs) (decl : DefId) : q.kind decl = p.kind decl := by
  unfold kind getDef
  rw [h]

lemma kind_addDef_of_ne (h : decl.index ≠ p.defs.size) : (p.addDef d).2.kind decl = p.kind decl := by
  unfold kind getDef addDef
  rw [Array.getD_eq_getD_getElem?, Array.getElem?_push, if_neg h, Array.getD_eq_getD_getElem?]

lemma kind_addDef_self : (p.addDef d).2.kind ⟨p.defs.size⟩ = d.kind := by
  unfold kind getDef addDef
  rw [Array.getD_eq_getD_getElem?, Array.getElem?_push, if_pos rfl]
  rfl

lemma kind_of_size_le (h : p.defs.size ≤ decl.index) : p.kind decl = .function default :=
  congrArg Def.kind (getDef_eq_default h)

lemma kind_modifyKind_of_lt (h : decl.index < p.defs.size) : (p.modifyKind decl f).kind decl = f (p.kind decl) := by
  unfold kind getDef modifyKind
  rw [Array.getD_eq_getD_getElem?, Array.getElem?_modify, if_pos rfl, Array.getD_eq_getD_getElem?,
    Array.getElem?_eq_getElem h]
  rfl

lemma members?_eq : p.members? decl =
    (p.contents? decl).bind fun k => if k.isClass then none else some (k.generics, k.members) := by
  unfold members? contents?
  cases (p.getDef decl).kind <;> rfl

lemma genericsOf_of_contents? (h : p.contents? decl = some k) : p.genericsOf decl = k.generics := by
  unfold contents? at h
  unfold genericsOf
  cases hkind : (p.getDef decl).kind with
  | struct | «enum» =>
    rw [hkind] at h
    cases h
    rfl
  | _ =>
    rw [hkind] at h
    cases h

lemma lt_of_contents? (h : p.contents? decl = some k) : decl.index < p.defs.size := by
  refine Decidable.byContradiction fun hge => ?_
  have hkind := kind_of_size_le (Nat.le_of_not_lt hge)
  rw [show p.contents? decl = (p.kind decl).contents? from rfl, hkind] at h
  cases h

lemma defName_modifyKind (f : DefKind → DefKind) :
    (p.modifyKind id f).defName decl = p.defName decl := by
  unfold defName getDef modifyKind
  rw [Array.getD_eq_getD_getElem?, Array.getElem?_modify, Array.getD_eq_getD_getElem?]
  split
  · cases p.defs[decl.index]? <;> rfl
  · rfl

lemma size_modifyKind : (p.modifyKind id f).defs.size = p.defs.size := Array.size_modify ..

lemma contents?_addDef : (p.addDef d).2.contents? decl =
    if decl.index = p.defs.size then d.kind.contents? else p.contents? decl := by
  split
  · rename_i heq
    rw [show decl = ⟨p.defs.size⟩ by rw [← heq]]
    exact congrArg DefKind.contents? kind_addDef_self
  · rename_i hne
    exact congrArg DefKind.contents? (kind_addDef_of_ne hne)

def ContentsHeld (p : Program) : Prop := ∀ decl k, p.contents? decl = some k → k.Held p.types

/-! ## What is held later -/

lemma heldFrom_eq_of_le (hle : p.types ≤ q.types) : ∀ n type,
    p.types.Holds type → q.heldFrom n type = p.heldFrom n type
  | 0, _, _ => rfl
  | n + 1, type, h => by
    have hpart := fun part hpart => heldFrom_eq_of_le hle n part (h.part hpart)
    rw [heldFrom, heldFrom, shape_eq_of_le hle h]
    cases hshape : p.types.shape type with
    | optional inner | array inner _ => exact hpart inner (by simp [hshape])
    | tuple items =>
      exact congrArg List.flatten (map_congr_left fun item hitem => hpart item (by simpa [hshape]))
    | _ => rfl

lemma held_eq_of_le (hle : p.types ≤ q.types) (hheld : p.ContentsHeld)
    (hsame : q.contents? decl = p.contents? decl) : q.held decl = p.held decl := by
  unfold held
  rw [members?_eq, members?_eq, hsame]
  cases hfound : p.contents? decl with
  | none => rfl
  | some k =>
    cases hclass : k.isClass with
    | true => simp [hclass]
    | false =>
      simp only [Option.bind_some, hclass, Bool.false_eq_true, if_false]
      exact congrArg List.flatten (map_congr_left fun type htype =>
        heldFrom_eq_of_le hle _ type ((hheld decl k hfound).members type htype))

end Program

namespace Check

/-! ## Contents stay -/

/-- From one state to another with the same declarations and contents. -/
structure Stays (c c' : Checker) : Prop where
  types : c.program.types ≤ c'.program.types
  reports : c.diagnostics.toList <+: c'.diagnostics.toList
  size : c'.program.defs.size = c.program.defs.size
  contents : ∀ decl, c'.program.contents? decl = c.program.contents? decl
  names : ∀ decl, c'.program.defName decl = c.program.defName decl

namespace Stays

variable {c c'' : Checker}

lemma of_eq (htypes : c'.program.types = c.program.types) (hdefs : c'.program.defs = c.program.defs)
    (hreports : c'.diagnostics = c.diagnostics) : Stays c c' where
  types := htypes ▸ le_rfl
  reports := hreports ▸ prefix_refl _
  size := by rw [hdefs]
  contents _ := by
    unfold Program.contents? Program.getDef
    rw [hdefs]
  names _ := by
    unfold Program.defName Program.getDef
    rw [hdefs]

lemma refl (c : Checker) : Stays c c := of_eq rfl rfl rfl

lemma trans (h : Stays c c') (h' : Stays c' c'') : Stays c c'' :=
  ⟨h.types.trans h'.types, h.reports.trans h'.reports, h'.size.trans h.size,
    fun decl => (h'.contents decl).trans (h.contents decl), fun decl => (h'.names decl).trans (h.names decl)⟩

lemma modifyKind (c : Checker) (id : DefId)
    (h : ∀ kind, (f kind).contents? = kind.contents?) : Stays c (modifyProgram (·.modifyKind id f) c).2 :=
  ⟨le_rfl, prefix_refl _, size_modifyKind, view_modifyKind DefKind.contents? (h _), fun _ => defName_modifyKind f⟩

lemma modifyFunction (c : Checker) (id : DefId) (f : FunctionDef → FunctionDef) : Stays c (modifyFunction id f c).2 :=
  modifyKind c id fun kind => by cases kind <;> rfl

lemma modifyGlobal (c : Checker) (id : DefId) (f : GlobalDef → GlobalDef) : Stays c (modifyGlobal id f c).2 :=
  modifyKind c id fun kind => by cases kind <;> rfl

lemma contentsHeld (h : Stays c c') (hheld : c.program.ContentsHeld) : c'.program.ContentsHeld :=
  fun decl k hk => (hheld decl k ((h.contents decl).symm.trans hk)).mono h.types

end Stays

variable {c : Checker}

lemma Settles.stays (h : Settles c c') : Stays c c' := by
  induction h with
  | refl c => exact .refl c
  | trans _ _ h h' => exact h.trans h'
  | emit d c => exact ⟨le_rfl, by simp, rfl, fun _ => rfl, fun _ => rfl⟩
  | types h => exact ⟨h, prefix_refl _, rfl, fun _ => rfl, fun _ => rfl⟩
  | symbols _ c | bound _ _ | typed _ _ => exact .of_eq rfl rfl rfl
  | @globalType id pending c c' _ _ _ _ ih =>
    have htyping : Stays c (c.typing id pending) := .of_eq rfl rfl rfl
    exact htyping.trans (ih.trans (.modifyGlobal c' id _))
  | @function id c c' _ _ _ _ _ ih =>
    have henter : Stays c (c.entering id) := .of_eq rfl rfl rfl
    exact henter.trans (ih.trans ((Stays.modifyFunction c' id _).trans (.of_eq rfl rfl rfl)))
  | @global id c c' _ _ _ _ _ _ ih =>
    have henter : Stays c (c.entering id) := .of_eq rfl rfl rfl
    exact henter.trans (ih.trans ((Stays.modifyGlobal c' id _).trans (.of_eq rfl rfl rfl)))

/-! ## States that advance -/

/-- A declaration that an evaluation can have met nothing of. -/
structure Checker.Blank (c : Checker) (id : DefId) : Prop where
  lt : id.index < c.program.defs.size
  outline : (c.program.kind id).outline = DefKind.blank

/-- From one state to a later one while names and signatures are found. Of the declarations there were,
only those in `changes` may have got something an evaluation can meet, bodies and values apart. -/
structure Advances (changes : List DefId) (c c' : Checker) : Prop where
  size : c.program.defs.size ≤ c'.program.defs.size
  limits : c'.limits = c.limits
  ordered : c.Ordered → c'.Ordered
  others : ∀ decl : DefId, decl.index < c.program.defs.size → decl ∉ changes →
    (c'.program.kind decl).outline = (c.program.kind decl).outline

lemma Checker.Ordered.of_kinds (hc : c.Ordered) (hlimits : c'.limits = c.limits) (hlater : c.program.Later c'.program)
    (hpending : ∀ id, c'.stages.lookup id = some .pending → (c'.program.kind id).settled = (none, none, none))
    (hglobal : ∀ id, (c'.globals.lookup id).isSome → (c'.program.kind id).global?.isSome)
    (hvalue : ∀ id, (c'.program.kind id).value? = none ∨ c'.program.kind id = c.program.kind id) : c'.Ordered where
  pending := hpending
  isGlobal := hglobal
  value id init v hinit hv := by
    rcases hvalue id with hnone | hsame
    · rw [hnone] at hv
      cases hv
    · rw [hsame] at hinit hv
      rw [hlimits]
      exact (hc.value id init v hinit hv).mono hlater

variable {id : DefId}

namespace Advances

variable {changes : List DefId} {c c'' : Checker}

lemma trans (h : Advances changes c c') (h' : Advances changes c' c'') : Advances changes c c'' where
  size := Nat.le_trans h.size h'.size
  limits := h'.limits.trans h.limits
  ordered := h'.ordered ∘ h.ordered
  others decl hlt hdecl := (h'.others decl (Nat.lt_of_lt_of_le hlt h.size) hdecl).trans (h.others decl hlt hdecl)

lemma mono (h : Advances changes c c') (hsub : changes ⊆ changes') : Advances changes' c c' :=
  ⟨h.size, h.limits, h.ordered, fun decl hlt hdecl => h.others decl hlt fun hmem => hdecl (hsub hmem)⟩

lemma blank (h : Advances changes c c') (hid : c.Blank id) (hnot : id ∉ changes) : c'.Blank id :=
  ⟨Nat.lt_of_lt_of_le hid.lt h.size, (h.others id hid.lt hnot).trans hid.outline⟩

lemma of_settles (h : Settles c c') : Advances changes c c' :=
  ⟨Nat.le_of_eq h.stays.size.symm, h.progress.limits, h.ordered, fun decl _ _ => h.progress.outline decl⟩

lemma refl (c : Checker) : Advances changes c c := of_settles (.refl c)

section

variable (hlimits : c'.limits = c.limits) (htypes : c'.program.types = c.program.types)
  (hglobals : c'.globals = c.globals) (hstages : c'.stages = c.stages)

include hlimits htypes hglobals hstages

lemma of_same (hsize : c'.program.defs.size = c.program.defs.size)
    (houtline : ∀ id, (c'.program.kind id).outline = (c.program.kind id).outline)
    (hsettled : ∀ id, (c'.program.kind id).settled = (c.program.kind id).settled) : Advances changes c c' where
  size := Nat.le_of_eq hsize.symm
  limits := hlimits
  ordered hc := hc.next (.of_same hlimits (htypes ▸ le_rfl) (fun _ => by rw [hglobals]) hstages houtline
    hsettled) fun id => .inl (hsettled id)
  others decl _ _ := houtline decl

lemma of_eq (hdefs : c'.program.defs = c.program.defs) : Advances changes c c' :=
  of_same hlimits htypes hglobals hstages (by rw [hdefs]) (fun id => by rw [kind_congr hdefs])
    fun id => by rw [kind_congr hdefs]

lemma of_blank (hsize : c.program.defs.size ≤ c'.program.defs.size)
    (hother : ∀ decl, decl ≠ id → c'.program.kind decl = c.program.kind decl)
    (hblank : (c.program.kind id).outline = DefKind.blank)
    (hsettled : (c'.program.kind id).settled = (none, none, none)) : Advances [id] c c' := by
  have hlater : c.program.Later c'.program := by
    refine ⟨htypes ▸ le_rfl, fun decl => ?_⟩
    by_cases heq : decl = id
    · exact .of_blank (heq ▸ hblank) _
    · exact hother decl heq ▸ .refl _
  refine ⟨hsize, hlimits, fun hc => hc.of_kinds hlimits hlater (fun decl hdecl => ?_) (fun decl hdecl => ?_)
    fun decl => ?_, fun decl _ hdecl => by rw [hother decl (by simpa using hdecl)]⟩
  · by_cases heq : decl = id
    · rw [heq, hsettled]
    · rw [hother decl heq]
      exact hc.pending decl (hstages ▸ hdecl)
  · have hglobal := hc.isGlobal decl (hglobals ▸ hdecl)
    by_cases heq : decl = id
    · have hnone : (c.program.kind id).global?.isSome = false := congrArg (·.2.2.2) hblank
      rw [heq, hnone] at hglobal
      cases hglobal
    · rw [hother decl heq]
      exact hglobal
  · by_cases heq : decl = id
    · exact .inl (congrArg (·.2.2) (heq ▸ hsettled))
    · exact .inr (hother decl heq)

end

lemma addDef (hd : d.kind.settled = (none, none, none)) : Advances [⟨c.program.defs.size⟩] c (addDef d c).2 := by
  refine of_blank rfl rfl rfl rfl ?_ (fun decl hne => kind_addDef_of_ne fun heq => hne (by rw [← heq])) ?_ ?_
  · show _ ≤ (c.program.defs.push d).size
    simp
  · exact (congrArg DefKind.outline (kind_of_size_le (Nat.le_refl c.program.defs.size))).trans rfl
  · exact (congrArg DefKind.settled kind_addDef_self).trans hd

lemma setKind (hid : c.Blank id) (hf : (f (c.program.kind id)).settled = (none, none, none)) :
    Advances [id] c (modifyProgram (·.modifyKind id f) c).2 :=
  of_blank rfl rfl rfl rfl (Nat.le_of_eq size_modifyKind.symm)
    (fun _ => kind_modifyKind_of_ne) hid.outline
    ((congrArg DefKind.settled (kind_modifyKind_of_lt hid.lt)).trans hf)

lemma setPending (hid : (c.program.kind id).settled = (none, none, none)) :
    Advances changes c (setStage id .pending c).2 := by
  refine ⟨Nat.le_refl _, rfl, fun hc => hc.of_kinds rfl (.refl _) (fun decl hdecl => ?_) hc.isGlobal fun _ => .inr rfl,
    fun _ _ _ => rfl⟩
  have hdecl : List.lookup decl ((id, Stage.pending) :: c.stages) = some .pending := hdecl
  rw [lookup_cons] at hdecl
  split at hdecl
  · rename_i heq
    rw [eq_of_beq heq]
    exact hid
  · exact hc.pending decl hdecl

lemma addGlobal (pending : PendingGlobal) (hid : (c.program.kind id).global?.isSome) :
    Advances changes c { c with globals := (id, pending) :: c.globals } := by
  refine ⟨Nat.le_refl _, rfl, fun hc => hc.of_kinds rfl (.refl _) hc.pending (fun decl hdecl => ?_) fun _ => .inr rfl,
    fun _ _ _ => rfl⟩
  rw [lookup_cons] at hdecl
  split at hdecl
  · rename_i heq
    rw [eq_of_beq heq]
    exact hid
  · exact hc.isGlobal decl hdecl

lemma keepKind (houtline : (f (c.program.kind id)).outline = (c.program.kind id).outline)
    (hsettled : (f (c.program.kind id)).settled = (c.program.kind id).settled) :
    Advances changes c (modifyProgram (·.modifyKind id f) c).2 :=
  of_same rfl rfl rfl rfl size_modifyKind (view_modifyKind DefKind.outline houtline)
    (view_modifyKind DefKind.settled hsettled)

lemma of_new (h : Advances changes c c') (hnew : ∀ id ∈ changes, c.program.defs.size ≤ id.index) : Advances [] c c' :=
  ⟨h.size, h.limits, h.ordered, fun decl hlt _ => h.others decl hlt fun hmem => Nat.not_le_of_lt hlt (hnew decl hmem)⟩

end Advances

/-! ## Checks that leave declarations alone -/

/-- From one state to another with the same contents and nothing new to be met. -/
structure Still (c c' : Checker) : Prop where
  stays : Stays c c'
  advances : ∀ changes, Advances changes c c'

namespace Still

variable {c c'' : Checker}

lemma of_eq (htypes : c'.program.types = c.program.types) (hdefs : c'.program.defs = c.program.defs)
    (hreports : c'.diagnostics = c.diagnostics) (hlimits : c'.limits = c.limits) (hglobals : c'.globals = c.globals)
    (hstages : c'.stages = c.stages) : Still c c' :=
  ⟨.of_eq htypes hdefs hreports, fun _ => .of_eq hlimits htypes hglobals hstages hdefs⟩

lemma refl (c : Checker) : Still c c := of_eq rfl rfl rfl rfl rfl rfl

lemma trans (h : Still c c') (h' : Still c' c'') : Still c c'' :=
  ⟨h.stays.trans h'.stays, fun changes => (h.advances changes).trans (h'.advances changes)⟩

lemma keepKind (c : Checker) (id : DefId)
    (hcontents : ∀ kind, (f kind).contents? = kind.contents?) (houtline : ∀ kind, (f kind).outline = kind.outline)
    (hsettled : ∀ kind, (f kind).settled = kind.settled) : Still c (modifyProgram (·.modifyKind id f) c).2 :=
  ⟨.modifyKind c id hcontents, fun _ => .keepKind (houtline _) (hsettled _)⟩

end Still

lemma Settles.still (h : Settles c c') : Still c c' := ⟨h.stays, fun _ => .of_settles h⟩

def Staying (x : CheckM α) : Prop := ∀ c, Still c (x c).2

variable {x : CheckM α}

lemma Settling.staying (h : Settling x) : Staying x := fun c => (h c).still

namespace Staying

variable {x : CheckM α} {f : α → CheckM β}

lemma pure {a : α} : Staying (pure a) := fun c => .refl c

lemma bind (hx : Staying x) (hf : ∀ {a}, Staying (f a)) : Staying (x >>= f) := fun c => (hx c).trans (hf (x c).2)

end Staying

/-! ## Types that are made -/

/-- A check that keeps all contents and after which some types are in the table, if the types of `known`
were there before. -/
structure Yields (known : List TypeId) (x : CheckM α) (types : α → List TypeId) : Prop where
  stays : Staying x
  holds : ∀ c, (∀ t ∈ known, c.program.types.Holds t) → ∀ t ∈ types (x c).1, (x c).2.program.types.Holds t

namespace Yields

variable {known known' : List TypeId} {x : CheckM α} {f : α → CheckM β} {types : α → List TypeId}
  {types' : β → List TypeId}

lemma pure (h : ∀ t ∈ types a, t ∈ known) : Yields known (pure a) types :=
  ⟨.pure, fun _ hknown t ht => hknown t (h t ht)⟩

lemma fixed (h : ∀ table : TypeTable, table.Holds type) : Yields known (Pure.pure type) fun t => [t] :=
  ⟨.pure, fun _ _ _ ht => mem_singleton.1 ht ▸ h _⟩

lemma error : Yields known (Pure.pure .error) fun t => [t] := .fixed fun _ => holds_error

lemma mono (h : Yields known x types) (hsub : known ⊆ known') : Yields known' x types :=
  ⟨h.stays, fun c hknown => h.holds c fun t ht => hknown t (hsub ht)⟩

lemma bind (hx : Yields known x types) (hf : ∀ a, Yields (types a ++ known) (f a) types') :
    Yields known (x >>= f) types' where
  stays := .bind hx.stays fun {a} => (hf a).stays
  holds c hknown := by
    refine (hf (x c).1).holds (x c).2 fun t ht => ?_
    rcases mem_append.1 ht with ht | ht
    · exact hx.holds c hknown t ht
    · exact (hknown t ht).mono (hx.stays c).stays.types

lemma next (hx : Staying x) (hf : ∀ a, Yields known (f a) types') : Yields known (x >>= f) types' :=
  have hx : Yields known x fun _ => [] := ⟨hx, by simp⟩
  .bind hx hf

lemma ite {p : Prop} [Decidable p] (hx : Yields known x types) (hy : Yields known y types) :
    Yields known (if p then x else y) types := by
  split
  · exact hx
  · exact hy

lemma mapM {xs : List α} (h : ∀ x ∈ xs, Yields known (f x) fun b => [t b]) : Yields known (xs.mapM f) (·.map t) := by
  induction xs generalizing known with
  | nil => exact .pure (by simp)
  | cons x xs ih =>
    rw [mapM_cons]
    refine .bind (h x (by simp)) fun b => ?_
    exact .bind (ih fun y hy => (h y (by simp [hy])).mono (by simp)) fun bs => .pure (by grind)

lemma intern (shape : TypeShape) : Yields known (build (TypeM.intern shape)) fun t => [t] where
  stays := Settling.buildIntern.staying
  holds c _ t ht := by
    rw [mem_singleton.1 ht]
    exact (intern_spec shape c.program.types).2.1

lemma reported : Yields known (do report span problem; return .error) fun t => [t] :=
  .next Settling.report.staying fun _ => .error

end Yields

lemma holds_of_ofName? {table : TypeTable} {name : String} (h : TypeId.ofName? name = some type) :
    table.Holds type := by
  have hlt : type.index < TypeShape.fixed.length := by
    unfold TypeId.ofName? at h
    split at h
    case h_6 =>
      rw [Option.or_eq_some_iff, Option.map_eq_some_iff, Option.map_eq_some_iff] at h
      rcases h with ⟨ty, -, rfl⟩ | ⟨-, ty, -, rfl⟩
      · cases ty <;> decide
      · cases ty <;> decide
    all_goals
      cases h
      decide
  exact Nat.lt_of_lt_of_le hlt table.fixed_first.length_le

section

variable (hd : env.demand.Settling)

lemma yields_paramType (hgeneric : generic ∈ env.generics) :
    Yields (env.generics.map (·.type)) (paramType generic name args span) fun t => [t] := by
  have hknown : ∀ t ∈ [generic.type], t ∈ env.generics.map (·.type) := by simpa using ⟨generic, hgeneric, rfl⟩
  refine .ite .reported (.ite ?_ (.pure hknown))
  exact .next Settling.report.staying fun _ => .pure hknown

include hd

lemma yields_declaredType (path : List Ident) (hargs : ∀ arg ∈ args, arg.Settling)
    (span : Span) : Yields known (declaredType env path args span) fun t => [t] := by
  refine .next (Settling.lookupItem _).staying fun found => ?_
  split
  · exact .error
  · exact .reported
  · refine .ite (.next (Settling.getDef _).staying fun d => ?_) .reported
    split
    case h_3 => exact .reported
    all_goals exact .ite .reported (.next (Settling.boundedArgs hd _ _ _ hargs).staying fun _ => .intern _)

lemma yields_resolveType : ∀ type : TypeExpr, Yields (env.generics.map (·.type)) (resolveType env type) fun t => [t]
  | ⟨_, .path ⟨path, args, _⟩, span⟩ => by
    have hargs := settling_typeReadings hd args
    have hdeclared : ∀ span, Yields (env.generics.map (·.type))
        (declaredType env path (typeReadings env args) span) fun t => [t] := yields_declaredType hd path hargs
    show Yields _ (pathType env path (typeReadings env args) _) _
    unfold pathType
    split
    · split
      · rename_i type hname
        have hfixed : Yields (env.generics.map (·.type)) (pure type) fun t => [t] :=
          .fixed fun _ => holds_of_ofName? hname
        exact .ite (.next Settling.report.staying fun _ => hfixed) hfixed
      · rename_i generic _ hgeneric
        exact yields_paramType (mem_of_find?_eq_some hgeneric)
      · exact hdeclared _
    · exact hdeclared _
  | ⟨_, .vector element, _⟩ => .next (settling_typeReading hd element).resolve.staying fun _ => .intern _
  | ⟨_, .array element length, _⟩ =>
    .next (settling_typeReading hd element).resolve.staying fun _ =>
      .next (Settling.arrayLength hd (settling_exprCheck hd length)).staying fun _ => .ite .error (.intern _)
  | ⟨_, .optional inner, _⟩ => .next (settling_typeReading hd inner).resolve.staying fun _ => .intern _
  | ⟨_, .tuple items, _⟩ => .next (settling_typesOf hd items).staying fun items => by
    show Yields _ (build (if items.isEmpty then pure .void else TypeM.intern (.tuple items))) _
    split
    · exact .fixed fun _ => holds_void
    · exact .intern _
  | ⟨_, .view _ inner, _⟩ | ⟨_, .raw inner, _⟩ =>
    .next (settling_typeReading hd inner).resolve.staying fun _ => .intern _
  | ⟨_, .function params result, _⟩ =>
    .next (settling_typesOf hd params).staying fun _ =>
      .next (settling_typeReading hd result).resolve.staying fun _ => .intern _
  | ⟨_, .const _, _⟩ => .reported

end

/-! ## Generics -/

lemma settling_constParamType {type : TypeExpr} : Settling (constParamType unit name type) :=
  .envIn _ _ fun _ hd => .bind (.resolveType hd type) <| .bind .types <| .ite (.map .report) .pure

lemma yields_declareGeneric : Yields [] (declareGeneric unit param) fun g => [g.type] := by
  refine .next Settling.program.staying fun _ => .next (fun _ => .of_eq rfl rfl rfl rfl rfl rfl) fun _ =>
    .bind (.intern _) fun {type} => ?_
  cases param.kind
  case' type => refine .next .pure fun constType => ?_
  case' const => refine .next settling_constParamType.staying fun _ => .next .pure fun constType => ?_
  all_goals
    cases constType
    case' none => refine .next .pure fun _ => ?_
    case' some => refine .next (Settling.display _).staying fun _ => .next .pure fun _ => ?_
    all_goals exact .next Settling.defineSymbol.staying fun _ => .pure (by simp)

lemma yields_declareGenerics (unit : UnitId) (params : List GenericParam) :
    Yields [] (declareGenerics unit params) (·.map (·.type)) :=
  .mapM fun _ _ => yields_declareGeneric

/-! ## Bounds -/

lemma settling_resolveTrait : Settling (resolveTrait unit path) := by
  refine .bind (.lookupItem _) fun {found} => ?_
  split
  · exact .pure
  · exact .map .report
  · refine .ite (.map .report) (.bind (.getDef _) fun {d} => ?_)
    split
    · exact .ite (.map .report) .pure
    · exact .map .report

lemma settling_resolveBound : Settling (resolveBound unit generic param) := by
  unfold resolveBound
  split
  · exact .pure
  · exact .map (.mapM fun path _ => settling_resolveTrait)

lemma settling_resolveBounds : ∀ generics params, Settling (resolveBounds unit generics params)
  | [], _ | _ :: _, [] => .pure
  | _ :: generics, _ :: params => .bind settling_resolveBound <| .map (settling_resolveBounds generics params)

lemma types_resolveBounds : ∀ generics params c,
    (resolveBounds unit generics params c).1.map (·.type) = generics.map (·.type)
  | [], _, _ => rfl
  | _ :: _, [], _ => rfl
  | generic :: generics, param :: params, c => by
    have hfirst : ∀ c, (resolveBound unit generic param c).1.type = generic.type := by
      intro c
      unfold resolveBound
      cases param.kind <;> rfl
    have hrest := types_resolveBounds generics params (resolveBound unit generic param c).2
    rw [map_cons, ← hrest, ← hfirst c]
    rfl

/-! ## Declarations are added -/

/-- From one state to a later one of the same unit. The first `n` declarations keep their contents, and
of the others only those of `decls` may have got some. -/
structure Extends (n : Nat) (decls : List DefId) (c c' : Checker) : Prop where
  types : c.program.types ≤ c'.program.types
  reports : c.diagnostics.toList <+: c'.diagnostics.toList
  size : c.program.defs.size ≤ c'.program.defs.size
  old : ∀ decl : DefId, decl.index < n → c'.program.contents? decl = c.program.contents? decl
  new : ∀ decl, (c'.program.contents? decl).isSome → (c.program.contents? decl).isSome ∨ decl ∈ decls
  held : c.program.ContentsHeld → c'.program.ContentsHeld

lemma Stays.extends (h : Stays c c') : Extends n decls c c' where
  types := h.types
  reports := h.reports
  size := Nat.le_of_eq h.size.symm
  old decl _ := h.contents decl
  new decl hdecl := .inl (h.contents decl ▸ hdecl)
  held := h.contentsHeld

namespace Extends

variable {decls : List DefId} {c c'' : Checker}

lemma mono (h : Extends n decls c c') (hsub : decls ⊆ decls') : Extends n decls' c c' where
  types := h.types
  reports := h.reports
  size := h.size
  old := h.old
  new decl hdecl := (h.new decl hdecl).imp_right (hsub ·)
  held := h.held

lemma trans (h : Extends n decls c c') (h' : Extends n decls c' c'') : Extends n decls c c'' where
  types := h.types.trans h'.types
  reports := h.reports.trans h'.reports
  size := Nat.le_trans h.size h'.size
  old decl hdecl := (h'.old decl hdecl).trans (h.old decl hdecl)
  new decl hdecl := (h'.new decl hdecl).elim (h.new decl) .inr
  held := h'.held ∘ h.held

/-- A change of one of the later declarations. Where it has contents then, it had some before, and they
are in the table if those before were. -/
lemma modifyKind (h : Stays c c') (hid : n ≤ id.index) (hf : ∀ k, (f (c'.program.getDef id).kind).contents? = some k →
    (c.program.contents? id).isSome ∧ (c.program.ContentsHeld → k.Held c'.program.types)) :
    Extends n decls c (modifyProgram (·.modifyKind id f) c').2 := by
  have hcases : ∀ decl, (c'.program.modifyKind id f).contents? decl = c.program.contents? decl ∨
      decl = id ∧ (c'.program.modifyKind id f).contents? decl = (f (c'.program.getDef id).kind).contents? := by
    intro decl
    by_cases heq : decl = id
    · subst heq
      exact kind_modifyKind_self.symm.imp
        (fun hself => (congrArg DefKind.contents? hself.2).trans (h.contents decl))
        fun hself => ⟨rfl, congrArg DefKind.contents? hself⟩
    · exact .inl ((congrArg DefKind.contents? (kind_modifyKind_of_ne heq)).trans (h.contents decl))
  refine ⟨h.types, h.reports, Nat.le_of_eq (h.size.symm.trans size_modifyKind.symm),
    fun decl hdecl => ?_, fun decl hdecl => .inl ?_, fun hheld decl k hk => ?_⟩
  · refine (hcases decl).resolve_right fun hself => ?_
    rw [hself.1] at hdecl
    omega
  · rcases hcases decl with hsame | ⟨rfl, hself⟩
    · exact hsame ▸ hdecl
    · obtain ⟨k, hk⟩ := Option.isSome_iff_exists.1 hdecl
      exact (hf k (hself.symm.trans hk)).1
  · rcases hcases decl with hsame | ⟨rfl, hself⟩
    · exact (hheld decl k (hsame.symm.trans hk)).mono h.types
    · exact (hf k (hself.symm.trans hk)).2 hheld

lemma addDef (hn : n ≤ c.program.defs.size) (hd : ∀ k, d.kind.contents? = some k → (⟨c.program.defs.size⟩ :
    DefId) ∈ decls ∧ k.Held c.program.types) : Extends n decls c (addDef d c).2 where
  types := le_rfl
  reports := prefix_refl _
  size := by
    show _ ≤ (c.program.defs.push d).size
    simp
  old decl hdecl := by
    refine contents?_addDef.trans (if_neg ?_)
    omega
  new decl hdecl := by
    have hcontents : (Check.addDef d c).2.program.contents? decl = _ := contents?_addDef
    rw [hcontents] at hdecl
    split at hdecl
    · rename_i heq
      obtain ⟨k, hk⟩ := Option.isSome_iff_exists.1 hdecl
      obtain rfl : decl = ⟨c.program.defs.size⟩ := by rw [← heq]
      exact .inr (hd k hk).1
    · exact .inl hdecl
  held hheld := by
    intro decl k hk
    have hcontents : (Check.addDef d c).2.program.contents? decl = _ := contents?_addDef
    rw [hcontents] at hk
    split at hk
    · exact (hd k hk).2
    · exact hheld decl k hk

end Extends

/-- A check that advances and keeps the contents of the first `n` declarations, if those in `needs` are
blank. -/
def Advancing (n : Nat) (needs changes : List DefId) (x : CheckM α) : Prop :=
  ∀ c, n ≤ c.program.defs.size → (∀ id ∈ needs, c.Blank id) → Extends n [] c (x c).2 ∧ Advances changes c (x c).2

variable {needs changes : List DefId}

lemma Staying.advancing (h : Staying x) : Advancing n needs changes x :=
  fun c _ _ => ⟨(h c).stays.extends, (h c).advances changes⟩

lemma Settling.advancing (h : Settling x) : Advancing n needs changes x := h.staying.advancing

lemma blank_addDef (hd : d.kind.outline = DefKind.blank) : (addDef d c).2.Blank ⟨c.program.defs.size⟩ where
  lt := by
    show _ < (c.program.defs.push d).size
    simp
  outline := (congrArg DefKind.outline kind_addDef_self).trans hd

namespace Advancing

variable {needs changes : List DefId} {x : CheckM α} {f : α → CheckM β}

lemma pure : Advancing n needs changes (Pure.pure a) := Staying.pure.advancing

lemma mono (h : Advancing n needs changes x) (hneeds : needs ⊆ needs') (hchanges : changes ⊆ changes') :
    Advancing n needs' changes' x :=
  fun c hn hblank => (h c hn fun id hid => hblank id (hneeds hid)).imp_right (·.mono hchanges)

lemma weaken (h : Advancing n [] [] x) : Advancing n needs changes x := h.mono (by simp) (by simp)

lemma both (hx : Advancing n needs changes x) (hf : ∀ a, Advancing n needs' changes' (f a))
    (hdisjoint : ∀ id ∈ needs', id ∉ changes) : Advancing n (needs ++ needs') (changes ++ changes') (x >>= f) := by
  intro c hn hblank
  obtain ⟨hextends, hfirst⟩ := hx c hn fun id hid => hblank id (by simp [hid])
  obtain ⟨hextends', hrest⟩ := hf (x c).1 (x c).2 (Nat.le_trans hn hextends.size) fun id hid =>
    hfirst.blank (hblank id (by simp [hid])) (hdisjoint id hid)
  exact ⟨hextends.trans hextends', (hfirst.mono (by simp)).trans (hrest.mono (by simp))⟩

lemma first (hx : Advancing n [] [] x) (hf : ∀ a, Advancing n needs changes (f a)) :
    Advancing n needs changes (x >>= f) := by
  simpa using both hx hf (by simp)

lemma last (hx : Advancing n needs changes x) (hf : ∀ a, Advancing n [] [] (f a)) :
    Advancing n needs changes (x >>= f) := by
  simpa using both hx hf (by simp)

lemma ite [Decidable p] (hx : Advancing n needs changes x)
    (hy : Advancing n needs changes y) : Advancing n needs changes (if p then x else y) := by
  split
  · exact hx
  · exact hy

lemma envIn (unit : UnitId) (generics : List Generic) {f : Env → CheckM α}
    (h : ∀ env : Env, env.demand.Settling → Advancing n needs changes (f env)) :
    Advancing n needs changes (envIn unit generics >>= f) :=
  fun c hn hblank => h _ (settling_demandWithin (2 * c.program.defs.size + 1)) c hn hblank

lemma addDef (hcontents : d.kind.contents? = none) (hsettled : d.kind.settled = (none, none, none))
    (hblank : d.kind.outline = DefKind.blank) {f : DefId → CheckM α}
    (hf : ∀ id : DefId, n ≤ id.index → Advancing n [id] [id] (f id)) : Advancing n [] [] (addDef d >>= f) := by
  intro c hn _
  have hadd : Extends n [] c (Check.addDef d c).2 := .addDef hn fun _ h => by rw [hcontents] at h; cases h
  obtain ⟨hextends, hadvances⟩ := hf ⟨c.program.defs.size⟩ hn (Check.addDef d c).2 (Nat.le_trans hn hadd.size)
    fun id hid => mem_singleton.1 hid ▸ blank_addDef hblank
  exact ⟨hadd.trans hextends, ((Advances.addDef hsettled).trans hadvances).of_new (by simp)⟩

lemma forM {f : α → CheckM PUnit} {needs changes : α → List DefId} : ∀ {xs : List α},
    (∀ x ∈ xs, Advancing n (needs x) (changes x) (f x)) →
    xs.Pairwise (fun a b => ∀ id ∈ needs b, id ∉ changes a) →
      Advancing n (xs.flatMap needs) (xs.flatMap changes) (xs.forM f)
  | [], _, _ => .pure
  | x :: xs, h, hpairwise => by
    obtain ⟨hfirst, hrest⟩ := pairwise_cons.1 hpairwise
    refine .both (h x (by simp)) (fun _ => forM (fun y hy => h y (by simp [hy])) hrest) fun id hid => ?_
    obtain ⟨y, hy, hid⟩ := mem_flatMap.1 hid
    exact hfirst y hy id hid

end Advancing

/-! ## Signatures -/

-- The conditions come one after the other, and each only reports.
variable {decl : FunctionDecl}

lemma settling_checkFunctionShape : Settling (checkFunctionShape decl isMethod) := by
  unfold checkFunctionShape
  cases decl.receiver
  all_goals repeat' first
    | exact .report
    | exact .pure
    | refine .ite ?_ ?_
    | refine .bind .report ?_

lemma settling_resolveTypes (hd : env.demand.Settling) {params : List Param} :
    Settling (params.mapM fun param => resolveType env param.type) :=
  .mapM fun param _ => .resolveType hd param.type

lemma advancing_setFunction (unit : UnitId) (hid : n ≤ id.index) (decl : FunctionDecl)
    {f : FunctionDef} (hf : f.body = none) (infersResult : Bool) : Advancing n [id] [id] (do
      modifyProgram (·.modifyKind id fun _ => .function f)
      awaitBody unit id decl infersResult) := by
  intro c _ hblank
  have hblank : c.Blank id := hblank id (by simp)
  have hsettled : (DefKind.function f).settled = (none, none, none) := by
    simp [DefKind.settled, DefKind.body?, hf, DefKind.init?, DefKind.value?, DefKind.global?]
  let set := modifyProgram (·.modifyKind id fun _ => .function f) c
  have hextends : Extends n [] c set.2 := .modifyKind (.refl c) hid fun _ h => by cases h
  have hset : Advances [id] c set.2 := .setKind hblank hsettled
  have hkind : set.2.program.kind id = .function f := kind_modifyKind_of_lt hblank.lt
  have hrest : ∀ c : Checker, c.program.kind id = .function f → Still c (awaitBody unit id decl infersResult c).2 := by
    intro c hkind
    unfold awaitBody
    have hdetail : Staying (do setDetail id (functionDetail (← program) id)) :=
      (Settling.bind .program <| .setDetail _ _).staying
    split
    · let noted : Checker := { c with functions := (id, { unit, decl, infersResult }) :: c.functions }
      have hnoted : Still c noted := .of_eq rfl rfl rfl rfl rfl rfl
      have hpending : ∀ c : Checker, c.program.kind id = .function f → Still c (setStage id .pending c).2 :=
        fun c hkind => ⟨.of_eq rfl rfl rfl, fun _ => .setPending (hkind ▸ hsettled)⟩
      exact hnoted.trans ((hpending noted hkind).trans (hdetail _))
    · exact hdetail c
  have hstill := hrest _ hkind
  exact ⟨hextends.trans hstill.stays.extends, hset.trans (hstill.advances _)⟩

lemma advancing_functionSignature (hid : n ≤ id.index)
    {owner : Option MethodOwner} : Advancing n [id] [id] (functionSignature unit id decl owner) := by
  refine .first (yields_declareGenerics _ _).stays.advancing fun own =>
    .first (settling_resolveBounds _ _).advancing fun own => .envIn _ _ fun env hd =>
      .first (settling_resolveTypes hd).advancing fun _ => ?_
  cases decl.result
  case' none => refine .first .pure fun _ => ?_
  case' some type => refine .first (Settling.resolveType hd type).advancing fun _ => ?_
  all_goals exact .first settling_checkFunctionShape.advancing fun _ => advancing_setFunction unit hid decl rfl _

/-! ## Implementations -/

lemma advancing_addMethods :
    ∀ methods seen, Advancing n [] [] (addMethods unit owner methods seen)
  | [], _ => .pure
  | method :: rest, seen => by
    have hadd : Advancing n [] [] (do
        let id ← addDef { name := method.name.name, unit, span := method.name.span,
                          kind := .function placeholderFunction }
        let _ ← defineSymbol (some id) method.name .method ""
        functionSignature unit id method (some owner)
        return id :: (← addMethods unit owner rest ((method.name.name, method.name.span) :: seen))) :=
      .addDef rfl rfl rfl fun id hid => .first Settling.defineSymbol.advancing fun _ =>
        .last (advancing_functionSignature hid) fun _ => .first (advancing_addMethods rest _) fun _ => .pure
    rw [addMethods]
    cases seen.lookup method.name.name with
    | none => exact hadd
    | some previous => exact .first Settling.report.advancing fun _ => hadd

variable {generics : List Generic}

lemma advancing_addImpl {target : TypeId} : Advancing n [] [] (addImpl unit generics traitDef target methods span) :=
  .first Settling.program.advancing fun _ => .first (Staying.advancing fun _ => .of_eq rfl rfl rfl rfl rfl rfl) fun _ =>
    .first (advancing_addMethods _ _) fun _ => Staying.advancing fun _ => .of_eq rfl rfl rfl rfl rfl rfl

lemma advancing_implBlock {generics : List GenericParam} {target : TypeExpr} :
    Advancing n [] [] (implBlock unit generics traitRef target methods span) := by
  refine .first (yields_declareGenerics _ _).stays.advancing fun _ =>
    .first (settling_resolveBounds _ _).advancing fun _ => .envIn _ _ fun env hd =>
      .first (Settling.resolveType hd _).advancing fun _ => ?_
  cases traitRef
  case' none => refine .first .pure fun _ => ?_
  case' some path => refine .first settling_resolveTrait.advancing fun _ => ?_
  all_goals
    exact .first Settling.types.advancing fun _ => .ite Settling.report.advancing advancing_addImpl

lemma advancing_inlineMethods (unit : UnitId) (id : DefId) (methods : List FunctionDecl) (span : Span) :
    Advancing n [] [] (inlineMethods unit id methods span) := by
  refine .ite .pure (.first (Settling.getDef _).advancing fun d => ?_)
  split
  · exact advancing_addImpl
  · exact advancing_addImpl
  · exact .pure

/-! ## Structs and enums -/

section

variable (hd : env.demand.Settling)

include hd

lemma yields_structFields (id : DefId) : ∀ fields before,
    Yields (before.map (·.type) ++ env.generics.map (·.type)) (structFields env id fields before) (·.map (·.type))
  | [], _ => .pure (by grind)
  | field :: rest, before => by
    refine .bind ((yields_resolveType hd _).mono (by simp)) fun _ => ?_
    split
    case' h_1 => refine .next Settling.report.staying fun _ => ?_
    all_goals
      exact .next (Settling.display _).staying fun _ => .next Settling.defineSymbol.staying fun _ =>
        .next (fun _ => .of_eq rfl rfl rfl rfl rfl rfl) fun _ => (yields_structFields id rest _).mono (by grind)

end

lemma advances_setContents (hid : n ≤ id.index) (h : Still c c') (h' : Still c' c'')
    (hgenerics : generics.map (·.type) = (c.program.genericsOf id).map (·.type)) (hmembers : (∀ g ∈ generics,
    c'.program.types.Holds g.type) → ∀ t ∈ members, c''.program.types.Holds t) (hf : ∀ kind : DefKind,
    (f kind).contents? = kind.contents? ∨ ∃ k, kind.contents? = some k ∧ (f kind).contents? = some ⟨generics, members,
    k.isClass⟩) (houtline : (f (c''.program.kind id)).outline = (c''.program.kind id).outline)
    (hsettled : (f (c''.program.kind id)).settled = (c''.program.kind id).settled) :
    Extends n [] c (modifyProgram (·.modifyKind id f) c'').2 ∧
    Advances changes c (modifyProgram (·.modifyKind id f) c'').2 := by
  refine ⟨?_, ((h.trans h').advances changes).trans (.keepKind houtline hsettled)⟩
  have hstays := h.stays.trans h'.stays
  refine .modifyKind hstays hid fun k hk => ?_
  have hbefore : (c''.program.getDef id).kind.contents? = c.program.contents? id := hstays.contents id
  rcases hf (c''.program.getDef id).kind with hkeeps | ⟨old, hold, hset⟩
  · rw [hkeeps, hbefore] at hk
    exact ⟨by rw [hk]; rfl, fun hheld => (hheld id k hk).mono hstays.types⟩
  · rw [hbefore] at hold
    refine ⟨by rw [hold]; rfl, fun hheld => ?_⟩
    have htypes : ∀ g ∈ generics, c.program.types.Holds g.type := by
      intro g hg
      have hmem : g.type ∈ old.generics.map (·.type) := by
        rw [← genericsOf_of_contents? hold, ← hgenerics]
        exact mem_map_of_mem hg
      obtain ⟨g', hg', heq⟩ := mem_map.1 hmem
      exact heq ▸ (hheld id old hold).generics g' hg'
    obtain rfl : ⟨generics, members, old.isClass⟩ = k := Option.some.inj (hset.symm.trans hk)
    exact ⟨fun g hg => (htypes g hg).mono hstays.types, hmembers fun g hg => (htypes g hg).mono h.stays.types⟩

lemma advancing_structSignature (hid : n ≤ id.index) : Advancing n [] [] (structSignature unit id params fields) := by
  intro c _ _
  let bounded := resolveBounds unit (c.program.genericsOf id) params c
  let env : Env := { demand := demandWithin (2 * bounded.2.program.defs.size + 1), unit, generics := bounded.1 }
  have hd : env.demand.Settling := settling_demandWithin _
  have hyields := yields_structFields hd id fields []
  let made := structFields env id fields [] bounded.2
  have hmembers := fun hgenerics => hyields.holds bounded.2 (by simpa using hgenerics)
  refine advances_setContents hid (settling_resolveBounds _ params c).still (hyields.stays bounded.2)
    (types_resolveBounds _ params c) hmembers (fun kind => ?_) ?_ ?_
  · cases kind with
    | struct s => exact .inr ⟨_, rfl, rfl⟩
    | _ => exact .inl rfl
  · cases made.2.program.kind id <;> rfl
  · cases made.2.program.kind id <;> rfl

lemma settling_enumRepr {repr : TypeExpr} : Settling (enumRepr unit repr) :=
  .envIn _ _ fun _ hd => .bind (.resolveType hd repr) <| .bind .types <| .ite (.map .report) .pure

lemma yields_enumVariants (hd : env.demand.Settling) (id : DefId) (enum : String) (hasRepr : Bool) :
    ∀ variants before,
      Yields (before.flatMap (·.payload) ++ env.generics.map (·.type))
        (enumVariants env id enum hasRepr variants before) (·.flatMap (·.payload))
  | [], _ => .pure (by grind)
  | variant :: rest, before => by
    have hpayload : Yields (env.generics.map (·.type)) (variant.payload.mapM (resolveType env))
        fun payload => payload := by
      simpa using Yields.mapM fun type (_ : type ∈ variant.payload) => yields_resolveType hd type
    refine .bind (hpayload.mono (by simp)) fun payload => ?_
    cases before.find? (·.name == variant.name.name)
    case' some => refine .next Settling.report.staying fun _ => ?_
    all_goals refine .ite (.next Settling.report.staying fun _ => ?_) ?_
    all_goals
      exact .next Settling.defineSymbol.staying fun _ => .next (fun _ => .of_eq rfl rfl rfl rfl rfl rfl)
        fun _ => (yields_enumVariants hd id enum hasRepr rest _).mono (by grind)

lemma discriminant_enumVariants (id : DefId) (enum : String) (hasRepr : Bool) :
    ∀ variants before, (∀ v ∈ before, v.discriminant = none) → ∀ c,
      ∀ v ∈ (enumVariants env id enum hasRepr variants before c).1, v.discriminant = none
  | [], _, hbefore, _ => hbefore
  | variant :: rest, before, hbefore, c => by
    have hrest : ∀ payload c, ∀ v ∈ ((do
        let symbol ← defineSymbol none variant.name .variant s!"{enum}::{variant.name.name}"
        modify fun c => { c with variantSymbols := ((id, before.length), symbol) :: c.variantSymbols }
        enumVariants env id enum hasRepr rest (before ++
          [{ name := variant.name.name, payload, discriminant := none, span := variant.name.span }]) :
        CheckM (List VariantDef)) c).1, v.discriminant = none := fun payload c =>
      discriminant_enumVariants id enum hasRepr rest _ (by simpa [or_imp, forall_and] using hbefore) _
    rw [enumVariants, run_bind]
    cases before.find? (·.name == variant.name.name)
    all_goals
      split
      · exact hrest _ _
      · exact hrest _ _

lemma outline_enum (h : ∀ v ∈ e.variants, v.discriminant = none) : (DefKind.enum e).outline = DefKind.blank := by
  have hnumbers : (DefKind.enum e).discriminant? = fun _ => none := by
    funext index
    show e.variants[index]?.bind (·.discriminant) = none
    cases hv : e.variants[index]? with
    | none => rfl
    | some v => exact h v (mem_of_getElem? hv)
  simp [DefKind.outline, DefKind.blank, hnumbers, DefKind.comptime?, Eval.isMutableStatic, DefKind.global?]

lemma advancing_enumSignature (hid : n ≤ id.index) {repr : Option TypeExpr} :
    Advancing n [id] [] (enumSignature unit id name params repr variants) := by
  intro c _ hblank
  let bounded := resolveBounds unit (c.program.genericsOf id) params c
  have hbounded : Still c bounded.2 := (settling_resolveBounds _ params c).still
  have hset (typed : Option IntTy × Checker) (htyped : Still bounded.2 typed.2) (f : DefKind → DefKind) :
      let env : Env := { demand := demandWithin (2 * typed.2.program.defs.size + 1), unit, generics := bounded.1 }
      let made := enumVariants env id name.name typed.1.isSome variants [] typed.2
      (∀ e, f (.enum e) = .enum { e with generics := bounded.1, repr := typed.1, variants := made.1 }) →
      (∀ kind, (∀ e, kind ≠ .enum e) → f kind = kind) →
      Extends n [] c (modifyProgram (·.modifyKind id f) made.2).2 ∧
        Advances [] c (modifyProgram (·.modifyKind id f) made.2).2 := by
    intro env made henum hother
    have hd : env.demand.Settling := settling_demandWithin _
    have hyields := yields_enumVariants hd id name.name typed.1.isSome variants []
    have hmembers : (∀ g ∈ bounded.1, bounded.2.program.types.Holds g.type) →
        ∀ t ∈ made.1.flatMap (·.payload), made.2.program.types.Holds t := fun hgenerics =>
      hyields.holds typed.2 (by simpa using fun g hg => (hgenerics g hg).mono htyped.stays.types)
    have hmade : Still bounded.2 made.2 := htyped.trans (hyields.stays typed.2)
    have hnone : ∀ v ∈ made.1, v.discriminant = none :=
      discriminant_enumVariants id name.name typed.1.isSome variants [] (by simp) typed.2
    have hid' := (((hbounded.trans hmade).advances []).blank (hblank id (by simp)) (by simp)).outline
    refine advances_setContents hid hbounded hmade (types_resolveBounds _ params c) hmembers (fun kind => ?_) ?_ ?_
    · cases kind with
      | enum e => exact henum e ▸ .inr ⟨_, rfl, rfl⟩
      | _ => exact .inl (congrArg DefKind.contents? (hother _ (by simp)))
    · cases hkind : made.2.program.kind id with
      | enum e => exact henum e ▸ (outline_enum hnone).trans (hkind ▸ hid').symm
      | _ => rw [hother _ (by simp)]
    · cases made.2.program.kind id with
      | enum e => exact (congrArg DefKind.settled (henum e)).trans rfl
      | _ => rw [hother _ (by simp)]
  cases repr
  case' none => refine hset (none, bounded.2) (.refl _) _ (fun _ => ?_) fun kind hkind => ?_
  case' some repr => refine hset _ (settling_enumRepr.staying _) _ (fun _ => ?_) fun kind hkind => ?_
  all_goals first
    | rfl
    | cases kind with
      | enum e => exact absurd rfl (hkind e)
      | _ => rfl

/-! ## Discriminants -/

lemma settling_discriminants {repr : IntTy} :
    ∀ variants next used, Settling (discriminants unit repr variants next used)
  | [], _, _ => .pure
  | variant :: rest, next, used => by
    rw [discriminants]
    cases variant.discriminant
    case' none => refine .bind .pure fun {value} => ?_
    case' some expr => refine .envIn _ _ fun env hd => .bind (.constInt hd (settling_exprCheck hd expr)) fun {value} => ?_
    all_goals
      cases value with
      | none => exact .map (settling_discriminants rest _ _)
      | some value =>
        have hused {used : List UsedDiscriminant} : Settling (do
            return some value :: (← discriminants unit repr rest (value + 1) used)) :=
          .map (settling_discriminants rest _ used)
        refine .ite (.bind .report ?_) ?_
        all_goals
          cases used.find? (·.value == value) with
          | none => exact .bind .pure hused
          | some earlier => exact .bind .report <| .bind .pure hused

lemma mem_payload_of_zip {variants : List VariantDef}
    (h : type ∈ ((variants.zip values).map fun (v, discriminant) => { v with discriminant }).flatMap VariantDef.payload) :
    type ∈ variants.flatMap VariantDef.payload := by
  obtain ⟨_, hvariant, htype⟩ := mem_flatMap.1 h
  obtain ⟨⟨v, _⟩, hzip, rfl⟩ := mem_map.1 hvariant
  exact mem_flatMap.2 ⟨v, (of_mem_zip hzip).1, htype⟩

lemma advancing_enumDiscriminants (hid : n ≤ id.index) :
    Advancing n [id] [id] (enumDiscriminants unit id variants) := by
  refine .first Settling.program.advancing fun p => ?_
  cases p.enum? id with
  | none => exact .pure
  | some e =>
    refine .ite (Settling.advancing ?_) ?_
    · refine .map (.forIn fun variant _ => ?_)
      split
      · exact .map .report
      · exact .bind .pure .pure
    · refine .first (settling_discriminants _ _ _).advancing fun values c _ hblank => ?_
      have hold : c.program.contents? id = (c.program.kind id).contents? := rfl
      cases hkind : c.program.kind id with
      | enum e =>
        rw [hkind] at hold
        refine ⟨.modifyKind (.refl c) hid fun k hk => ?_, .setKind (hblank id (by simp)) (hkind ▸ rfl)⟩
        rw [show (c.program.getDef id).kind = .enum e from hkind] at hk
        cases hk
        refine ⟨by rw [hold]; rfl, fun hheld => ?_⟩
        exact ⟨(hheld id _ hold).generics, fun type htype => (hheld id _ hold).members type (mem_payload_of_zip htype)⟩
      | _ =>
        refine ⟨.modifyKind (.refl c) hid fun k hk => ?_, .keepKind (by rw [hkind]) (by rw [hkind])⟩
        rw [show (c.program.getDef id).kind = _ from hkind] at hk
        rw [hkind] at hold
        exact ⟨by rw [hold, hk]; rfl, fun hheld => hheld id k (hold.trans hk)⟩

/-! ## Traits -/

lemma settling_checkTraitMethod : Settling (checkTraitMethod method before) := by
  refine .ite (.bind .report ?_) ?_
  all_goals refine .ite (.bind .report ?_) ?_
  all_goals
    split
    · exact .report
    · exact .pure

section

variable (hd : env.demand.Settling)

include hd

lemma settling_traitMethod : Settling (traitMethod env method before) := by
  refine .bind settling_checkTraitMethod <| .bind (settling_resolveTypes hd) ?_
  cases method.result
  case' none => refine .bind .pure ?_
  case' some type => refine .bind (.resolveType hd type) ?_
  all_goals exact .bind .types <| .map .defineSymbol

lemma settling_traitMethods : ∀ methods before, Settling (traitMethods env methods before)
  | [], _ => .pure
  | _ :: rest, _ => .bind (settling_traitMethod hd) <| settling_traitMethods rest _

end

lemma advancing_traitSignature (unit : UnitId) (id : DefId) (methods : List FunctionDecl) :
    Advancing n [] [] (traitSignature unit id methods) := by
  refine .envIn _ _ fun _ hd => .first (settling_traitMethods hd _ _).advancing fun _ => Staying.advancing fun c => ?_
  refine .keepKind c id ?_ ?_ ?_
  all_goals exact fun kind => by cases kind <;> rfl

end Check

end Kite
