/-
Settling makes programs later ones. A declaration is changed only while it is pending, and what it has
when it is left stays; so an evaluation meets later what it met before. Hence the demands of the
checker are a host that only gets ahead, and each value that is found with them can be worked out
again over the program alone.
-/
import Kite.Proofs.Check.Settling
import Kite.Proofs.Eval.Mirror

namespace Kite

open List Program Array DefKind

variable {body : Typed.Body} {v : Value} {c c' : Checker}

/-! ## Declarations -/

/-- What settling never changes of a declaration. -/
def DefKind.outline (kind : DefKind) : Option (Option Receiver × List Generic) × (Nat → Option Int) × Bool × Bool :=
  (kind.comptime?, kind.discriminant?, Eval.isMutableStatic kind, kind.global?.isSome)

lemma DefKind.Later.of_outline {k l : DefKind} (h : l.outline = k.outline)
    (hsettled : k.settled = (none, none, none) ∨ l.settled = k.settled) : k.Later l := by
  simp only [outline, Prod.mk.injEq] at h
  simp only [settled, Prod.mk.injEq] at hsettled
  obtain ⟨hcomptime, hnumbers, hmut, -⟩ := h
  have hkeeps : ∀ {α : Type} {a b : Option α} {x : α}, a = none ∨ b = a → a = some x → b = some x := by
    rintro α a b x (rfl | rfl) hx
    · cases hx
    · exact hx
  have hbody := hsettled.imp (·.1) (·.1)
  have hvalue := hsettled.imp (·.2.2) (·.2.2)
  refine ⟨fun _ hs => hcomptime.trans hs, fun _ _ _ => hkeeps hbody, fun v hv => ?_, fun index n hn => ?_⟩
  · unfold constant? at hv ⊢
    rw [hmut]
    split at hv
    · cases hv
    · rename_i hconst
      rw [if_neg hconst]
      exact hkeeps hvalue hv
  · rw [hnumbers]
    exact hn

namespace Program

variable {p : Program} {id decl : DefId} {f : DefKind → DefKind}

lemma kind_modifyKind_of_ne (h : decl ≠ id) : (p.modifyKind id f).kind decl = p.kind decl := by
  have hindex : id.index ≠ decl.index := fun heq => h (by cases id; cases decl; cases heq; rfl)
  unfold kind getDef modifyKind
  rw [getD_eq_getD_getElem?, Array.getElem?_modify, if_neg hindex, getD_eq_getD_getElem?]

lemma kind_modifyKind_self : (p.modifyKind id f).kind id = f (p.kind id) ∨
    p.kind id = .function default ∧ (p.modifyKind id f).kind id = p.kind id := by
  unfold kind getDef modifyKind
  rw [getD_eq_getD_getElem?, Array.getElem?_modify, if_pos rfl, getD_eq_getD_getElem?]
  cases p.defs[id.index]? with
  | none => exact .inr ⟨rfl, rfl⟩
  | some d => exact .inl rfl

lemma view_modifyKind {α : Type} (view : DefKind → α) (h : view (f (p.kind id)) = view (p.kind id)) (decl : DefId) :
    view ((p.modifyKind id f).kind decl) = view (p.kind decl) := by
  by_cases heq : decl = id
  · subst heq
    rcases kind_modifyKind_self with hself | ⟨-, hself⟩
    · rw [hself, h]
    · rw [hself]
  · rw [kind_modifyKind_of_ne heq]

end Program

namespace Check

section

variable {α : Type} (view : DefKind → α) (c : Checker) (id decl : DefId)

lemma view_modifyFunction {f : FunctionDef → FunctionDef} (h : ∀ g, view (.function (f g)) = view (.function g)) :
    view ((modifyFunction id f c).2.program.kind decl) = view (c.program.kind decl) :=
  view_modifyKind view (by cases c.program.kind id <;> first | exact h _ | rfl) decl

lemma view_modifyGlobal {f : GlobalDef → GlobalDef} (hconst : ∀ g, view (.const (f g)) = view (.const g))
    (hstatic : ∀ g, view (.static (f g)) = view (.static g)) :
    view ((modifyGlobal id f c).2.program.kind decl) = view (c.program.kind decl) :=
  view_modifyKind view (by cases c.program.kind id <;> first | exact hconst _ | exact hstatic _ | rfl) decl

lemma kind_modifyFunction_of_ne (f : FunctionDef → FunctionDef) (h : decl ≠ id) :
    (modifyFunction id f c).2.program.kind decl = c.program.kind decl :=
  kind_modifyKind_of_ne h

lemma global?_modifyGlobal (f : GlobalDef → GlobalDef) :
    ((modifyGlobal id f c).2.program.kind id).global? = (c.program.kind id).global?.map f := by
  have hkind : (modifyGlobal id f c).2.program.kind id = _ ∨ _ := kind_modifyKind_self
  rcases hkind with hkind | ⟨hfunction, hkind⟩
  · rw [hkind]
    cases c.program.kind id <;> rfl
  · have hkind : (modifyGlobal id f c).2.program.kind id = c.program.kind id := hkind
    rw [hkind, hfunction]
    rfl

end

lemma settled_setType (id : DefId) (type : TypeId) (c : Checker) (decl : DefId) :
    ((modifyGlobal id (fun g => { g with type }) c).2.program.kind decl).settled = (c.program.kind decl).settled :=
  view_modifyGlobal settled c id decl (fun _ => rfl) fun _ => rfl

lemma Reproducible.mono (h : Reproducible limits body v p) (hlater : p.Later q) : Reproducible limits body v q :=
  fun r hr => h r (hlater.trans hr)

/-! ## Progress -/

/-- From one state to another in which only pending declarations were changed, and have been left. -/
structure Progress (c c' : Checker) : Prop where
  limits : c'.limits = c.limits
  types : c.program.types ≤ c'.program.types
  globals : ∀ id, (c'.globals.lookup id).isSome = (c.globals.lookup id).isSome
  outline : ∀ id, (c'.program.kind id).outline = (c.program.kind id).outline
  left : ∀ id, c.stages.lookup id ≠ some .pending → c'.stages.lookup id = c.stages.lookup id ∧
    (c'.program.kind id).settled = (c.program.kind id).settled
  waiting : ∀ id, c'.stages.lookup id = some .pending → c.stages.lookup id = some .pending ∧
    (c'.program.kind id).settled = (c.program.kind id).settled

namespace Progress

variable {c'' : Checker} {id : DefId}

lemma of_same (hlimits : c'.limits = c.limits) (htypes : c.program.types ≤ c'.program.types)
    (hglobals : ∀ id, (c'.globals.lookup id).isSome = (c.globals.lookup id).isSome)
    (hstages : c'.stages = c.stages) (houtline : ∀ id, (c'.program.kind id).outline = (c.program.kind id).outline)
    (hsettled : ∀ id, (c'.program.kind id).settled = (c.program.kind id).settled) : Progress c c' where
  limits := hlimits
  types := htypes
  globals := hglobals
  outline := houtline
  left id _ := ⟨by rw [hstages], hsettled id⟩
  waiting id h := ⟨hstages ▸ h, hsettled id⟩

lemma refl (c : Checker) : Progress c c := of_same rfl le_rfl (fun _ => rfl) rfl (fun _ => rfl) fun _ => rfl

lemma trans (h : Progress c c') (h' : Progress c' c'') : Progress c c'' where
  limits := h'.limits.trans h.limits
  types := h.types.trans h'.types
  globals id := (h'.globals id).trans (h.globals id)
  outline id := (h'.outline id).trans (h.outline id)
  left id hid := by
    obtain ⟨hstage, hsettled⟩ := h.left id hid
    obtain ⟨hstage', hsettled'⟩ := h'.left id (hstage ▸ hid)
    exact ⟨hstage'.trans hstage, hsettled'.trans hsettled⟩
  waiting id hid := by
    obtain ⟨hpending, hsettled'⟩ := h'.waiting id hid
    obtain ⟨hpending, hsettled⟩ := h.waiting id hpending
    exact ⟨hpending, hsettled'.trans hsettled⟩

lemma setType {type : TypeId} : Progress c (modifyGlobal id (fun g => { g with type }) c).2 :=
  of_same rfl le_rfl (fun _ => rfl) rfl
    (fun decl => view_modifyGlobal DefKind.outline c id decl (fun _ => rfl) fun _ => rfl) (settled_setType id type c)

lemma leaving (h : Progress (c.entering id) c') (hpending : c.stages.lookup id = some .pending)
    (hstage : stage ≠ .pending) (hlimits : c''.limits = c'.limits) (hglobals : c''.globals = c'.globals)
    (htypes : c''.program.types = c'.program.types) (hstages : c''.stages = (id, stage) :: c'.stages)
    (houtline : ∀ decl, (c''.program.kind decl).outline = (c'.program.kind decl).outline)
    (hkinds : ∀ decl, decl ≠ id → c''.program.kind decl = c'.program.kind decl) : Progress c c'' := by
  have hentered : ∀ decl, decl ≠ id → (c.entering id).stages.lookup decl = c.stages.lookup decl := by
    intro decl hne
    show List.lookup decl ((id, _) :: c.stages) = _
    rw [lookup_cons, beq_false_of_ne hne]
  have hother : ∀ decl, decl ≠ id → c''.stages.lookup decl = c'.stages.lookup decl ∧
      c''.program.kind decl = c'.program.kind decl := by
    intro decl hne
    refine ⟨?_, hkinds decl hne⟩
    rw [hstages, lookup_cons, beq_false_of_ne hne]
  refine ⟨hlimits.trans h.limits, htypes ▸ h.types, fun decl => hglobals ▸ h.globals decl,
    fun decl => (houtline decl).trans (h.outline decl), fun decl hdecl => ?_, fun decl hdecl => ?_⟩
  · have hne : decl ≠ id := by
      rintro rfl
      exact hdecl hpending
    obtain ⟨hsame, hkind⟩ := hother decl hne
    obtain ⟨hstage', hsettled⟩ := h.left decl (hentered decl hne ▸ hdecl)
    exact ⟨hsame.trans (hstage'.trans (hentered decl hne)), hkind ▸ hsettled⟩
  · have hne : decl ≠ id := by
      rintro rfl
      rw [hstages, lookup_cons, beq_self_eq_true] at hdecl
      exact hstage (Option.some.inj hdecl)
    obtain ⟨hsame, hkind⟩ := hother decl hne
    obtain ⟨hwait, hsettled⟩ := h.waiting decl (hsame ▸ hdecl)
    exact ⟨hentered decl hne ▸ hwait, hkind ▸ hsettled⟩

end Progress

variable {id : DefId}

lemma isSome_lookup_typing (h : c.globals.lookup id = some pending) (decl : DefId) :
    ((c.typing id pending).globals.lookup decl).isSome = (c.globals.lookup decl).isSome := by
  show (List.lookup decl ((id, _) :: c.globals)).isSome = _
  rw [lookup_cons]
  split
  · rename_i heq
    rw [eq_of_beq heq, h]
    rfl
  · rfl

lemma Settles.progress (h : Settles c c') : Progress c c' := by
  induction h with
  | refl c => exact .refl c
  | trans _ _ h h' => exact h.trans h'
  | emit d c => exact .of_same rfl le_rfl (fun _ => rfl) rfl (fun _ => rfl) fun _ => rfl
  | types h => exact .of_same rfl h (fun _ => rfl) rfl (fun _ => rfl) fun _ => rfl
  | symbols _ c | bound _ _ => exact .of_same rfl le_rfl (fun _ => rfl) rfl (fun _ => rfl) fun _ => rfl
  | typed hpending _ => exact .of_same rfl le_rfl (isSome_lookup_typing hpending) rfl (fun _ => rfl) fun _ => rfl
  | @globalType id pending c c' type hpending _ _ ih =>
    have htyping : Progress c (c.typing id pending) :=
      .of_same rfl le_rfl (isSome_lookup_typing hpending) rfl (fun _ => rfl) fun _ => rfl
    exact htyping.trans (ih.trans .setType)
  | @function id c c' _ _ _ hpending _ ih =>
    have hdone : Stage.done ≠ .pending := nofun
    exact ih.leaving hpending hdone rfl rfl rfl rfl
      (fun decl => view_modifyFunction outline c' id decl fun _ => rfl)
      fun decl hne => kind_modifyFunction_of_ne c' id decl _ hne
  | @global id c c' _ _ value hpending _ _ ih =>
    have hleft : (if value.isSome then Stage.done else .failed) ≠ .pending := by split <;> nofun
    exact ih.leaving hpending hleft rfl rfl rfl rfl
      (fun decl => view_modifyGlobal outline c' id decl (fun _ => rfl) fun _ => rfl)
      fun _ hne => kind_modifyKind_of_ne hne

/-! ## Order -/

namespace Checker.Ordered

lemma later (hc : c.Ordered) (h : Progress c c') : c.program.Later c'.program where
  types := h.types
  kind id := by
    by_cases hpending : c.stages.lookup id = some .pending
    · exact .of_outline (h.outline id) (.inl (hc.pending id hpending))
    · exact .of_outline (h.outline id) (.inr (h.left id hpending).2)

lemma next (hc : c.Ordered) (h : Progress c c') (hvalue : ∀ id,
    (c'.program.kind id).settled = (c.program.kind id).settled ∨ ∀ init v, (c'.program.kind id).init? = some init →
    (c'.program.kind id).value? = some v → Reproducible c'.limits init v c'.program) : c'.Ordered where
  pending id hid := by
    obtain ⟨hpending, hsettled⟩ := h.waiting id hid
    exact hsettled.trans (hc.pending id hpending)
  isGlobal id hid := by
    have houtline := congrArg (·.2.2.2) (h.outline id)
    exact houtline.trans (hc.isGlobal id (h.globals id ▸ hid))
  value id init v hinit hv := by
    rcases hvalue id with hsame | hnew
    · have hsame := (Prod.mk.inj (Prod.mk.inj hsame).2)
      rw [h.limits]
      exact (hc.value id init v (hsame.1 ▸ hinit) (hsame.2 ▸ hv)).mono (hc.later h)
    · exact hnew init v hinit hv

lemma entering (hc : c.Ordered) (id : DefId) : (c.entering id).Ordered where
  pending decl hdecl := by
    have hdecl : List.lookup decl ((id, Stage.inProgress) :: c.stages) = some .pending := hdecl
    rw [lookup_cons] at hdecl
    split at hdecl
    · cases hdecl
    · exact hc.pending decl hdecl
  isGlobal := hc.isGlobal
  value := hc.value

lemma settled_of_entering (hc : c.Ordered) (hpending : c.stages.lookup id = some .pending)
    (h : Progress (c.entering id) c') : (c'.program.kind id).settled = (none, none, none) := by
  have hstage : (c.entering id).stages.lookup id = some .inProgress := lookup_cons_self
  rw [(h.left id (by rw [hstage]; nofun)).2]
  exact hc.pending id hpending

lemma later_of_leaving {p q : Program} (hid : (p.kind id).settled = (none, none, none))
    (htypes : q.types = p.types) (houtline : ∀ decl, (q.kind decl).outline = (p.kind decl).outline)
    (hkinds : ∀ decl, decl ≠ id → q.kind decl = p.kind decl) : p.Later q where
  types := htypes ▸ le_rfl
  kind decl := by
    by_cases heq : decl = id
    · exact .of_outline (houtline decl) (.inl (heq ▸ hid))
    · exact hkinds decl heq ▸ .refl _

end Checker.Ordered

lemma stored_withValue {init : Typed.Body}
    (hinit : ((c.withValue id infersType init value).program.kind id).init? = some body)
    (hvalue : ((c.withValue id infersType init value).program.kind id).value? = some v) :
    body = init ∧ value = some v := by
  have hglobal : ((c.withValue id infersType init value).program.kind id).global? =
      (c.program.kind id).global?.map _ := global?_modifyGlobal c id _
  unfold init? at hinit
  unfold value? at hvalue
  rw [hglobal] at hinit hvalue
  cases hbefore : (c.program.kind id).global? with
  | none =>
    rw [hbefore] at hinit
    cases hinit
  | some g =>
    rw [hbefore] at hinit hvalue
    exact ⟨(Option.some.inj hinit).symm, hvalue⟩

lemma Settles.ordered (h : Settles c c') (hc : c.Ordered) : c'.Ordered := by
  have hsame {c c' : Checker} (hc : c.Ordered) (h : Settles c c')
      (hsettled : ∀ id, (c'.program.kind id).settled = (c.program.kind id).settled) : c'.Ordered :=
    hc.next h.progress fun id => .inl (hsettled id)
  induction h with
  | refl c => exact hc
  | trans _ _ ih ih' => exact ih' (ih hc)
  | emit d c => exact hsame hc (.emit d c) fun _ => rfl
  | types h => exact hsame hc (.types h) fun _ => rfl
  | symbols s c => exact hsame hc (.symbols s c) fun _ => rfl
  | bound b h => exact hsame hc (.bound b h) fun _ => rfl
  | typed hpending huntyped => exact hsame hc (.typed hpending huntyped) fun _ => rfl
  | @globalType id pending c c' type hpending huntyped _ ih =>
    have hc' := ih (hsame hc (.typed hpending huntyped) fun _ => rfl)
    exact hc'.next .setType fun decl => .inl (settled_setType id type c' decl)
  | @function id c c' infersResult body symbols hpending h ih =>
    have hc' := ih (hc.entering id)
    have hid := hc.settled_of_entering hpending h.progress
    have hlater : c'.program.Later (c'.withBody id infersResult body symbols).program :=
      Checker.Ordered.later_of_leaving hid rfl
        (fun decl => view_modifyFunction outline c' id decl fun _ => rfl)
        fun decl hne => kind_modifyFunction_of_ne c' id decl _ hne
    refine hc.next (Settles.function infersResult body symbols hpending h).progress fun decl => .inr ?_
    have hsame : ((c'.withBody id infersResult body symbols).program.kind decl).global? =
        (c'.program.kind decl).global? := view_modifyFunction global? c' id decl fun _ => rfl
    unfold init? value?
    rw [hsame]
    exact fun init v hinit hv => (hc'.value decl init v hinit hv).mono hlater
  | @global id c c' infersType init value hpending h hvalue ih =>
    have hc' := ih (hc.entering id)
    have hid := hc.settled_of_entering hpending h.progress
    have hkinds : ∀ decl, decl ≠ id → (c'.withValue id infersType init value).program.kind decl =
        c'.program.kind decl := fun decl hne => kind_modifyKind_of_ne hne
    have hlater : c'.program.Later (c'.withValue id infersType init value).program :=
      Checker.Ordered.later_of_leaving hid rfl
        (fun decl => view_modifyGlobal outline c' id decl (fun _ => rfl) fun _ => rfl) hkinds
    refine hc.next (Settles.global infersType init value hpending h hvalue).progress fun decl => .inr ?_
    intro body v hinit hv
    by_cases heq : decl = id
    · subst heq
      obtain ⟨rfl, hstored⟩ := stored_withValue hinit hv
      exact (hvalue hc v hstored).mono hlater
    · rw [hkinds decl heq] at hinit hv
      exact (hc'.value decl body v hinit hv).mono hlater

/-! ## Demands -/

lemma Demand.Settling.lawful {d : Demand} (hd : d.Settling) : d.host.Lawful Checker.Ordered where
  functionBody id c hc := ⟨(hd.function id c).ordered hc, hc.later (hd.function id c).progress⟩
  globalValue id c hc := ⟨(hd.global id c).ordered hc, hc.later (hd.global id c).progress⟩
  body id c body _ hbody := (body?_eq _ id).symm.trans hbody
  constant id c v hc hmut hv := by
    have houtline : Eval.isMutableStatic ((d.global id c).2.program.kind id) =
        Eval.isMutableStatic (c.program.kind id) := congrArg (·.2.2.1) ((hd.global id c).progress.outline id)
    have hmut : Eval.isMutableStatic (c.program.kind id) = false := hmut
    show constant? ((d.global id c).2.program.kind id) = some v
    unfold constant?
    rw [houtline, hmut]
    exact hd.answers id c v hc hv

lemma Demand.Settling.reproducible {d : Demand} (hd : d.Settling) (hc : c.Ordered)
    (h : d.tryEvaluate body.expr body.locals.size c = (.ok v, c')) : Reproducible c'.limits body v c'.program := by
  intro q hlater hcalls hexpr
  have hsettles : Settles c c' := by
    have hrun := Settling.tryEvaluate hd body.expr body.locals.size c
    rwa [h] at hrun
  rw [hsettles.progress.limits]
  exact Eval.evaluate_stored hd.lawful hc h hlater hcalls hexpr

end Check

end Kite
