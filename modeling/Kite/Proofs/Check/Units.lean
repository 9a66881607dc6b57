/-
Checking whole units keeps structs and enums finite: if nothing is reported, no declaration holds
itself by value, in the unit that was checked last or in those before it.
-/
import Kite.Compilation.Analysis
import Kite.Proofs.Check.Containment
import Kite.Proofs.Check.Declaring

namespace Kite.Check

open List Program Settling

variable {decls : List DefId} {units : List LoadedUnit} {c : Checker}

/-! ## Names -/

lemma staying_enterName {id : DefId} : Staying (enterName unit name id) := by
  refine .bind get.staying fun {c} => ?_
  split
  · exact fun _ => .of_eq rfl rfl rfl rfl rfl rfl
  · exact (bind (.getDef _) .report).staying

lemma defs_enterName {id : DefId} : (enterName unit name id c).2.program.defs = c.program.defs := by
  unfold enterName
  rw [get_bind]
  cases (c.scope unit).define name.name id <;> rfl

lemma defs_declare {kind : DefKind} :
    (declare unit name kind c).2.program.defs =
      c.program.defs.push { name := name.name, unit, span := name.span, kind } :=
  defs_enterName

lemma kind_declare {kind : DefKind} : (declare unit name kind c).2.program.kind ⟨c.program.defs.size⟩ = kind := by
  let d : Def := { name := name.name, unit, span := name.span, kind }
  have hdefs : (declare unit name kind c).2.program.defs = (c.program.addDef d).2.defs := defs_declare
  rw [kind_congr hdefs, kind_addDef_self]

lemma staying_setSelfType {id : DefId} : Staying (setSelfType id) := by
  refine .bind (Settling.getDef _).staying fun {d} => .bind Settling.program.staying <|
    .bind Settling.buildIntern.staying fun {type} => .bind (fun c => ?_) <| (Settling.setDetail _ _).staying
  refine .keepKind c id ?_ ?_ ?_
  all_goals exact fun kind => by cases kind <;> rfl

/-- Items whose declarations are blank until their signatures are set. -/
def isBlankItem (item : Item) : Bool :=
  match item.kind with
  | .function _ | .enum .. => true
  | _ => false

/-- What declaring an item does: the declaration is a new one, and the first `n` keep their contents. -/
structure Declares (n : Nat) (isBlank : Bool) (c : Checker) (decl : Option DefId) (c' : Checker) : Prop where
  contents : Extends n decl.toList c c'
  advances : Advances [] c c'
  new : ∀ id ∈ decl, c.program.defs.size ≤ id.index ∧ id.index < c'.program.defs.size
  blank : isBlank → ∀ id ∈ decl, c'.Blank id

namespace Declares

variable {n : Nat} {kind : DefKind} {c' c'' : Checker} {isBlank : Bool} {decl : Option DefId}

lemma refl (c : Checker) : Declares n isBlank c none c := ⟨(Stays.refl c).extends, .refl c, nofun, nofun⟩

lemma after (h : Still c c') (h' : Declares n isBlank c' decl c'') : Declares n isBlank c decl c'' where
  contents := h.stays.extends.trans h'.contents
  advances := (h.advances []).trans h'.advances
  new id hid := h.stays.size ▸ h'.new id hid
  blank := h'.blank

lemma next (h : Declares n isBlank c decl c') (h' : Still c' c'') : Declares n isBlank c decl c'' where
  contents := h.contents.trans h'.stays.extends
  advances := h.advances.trans (h'.advances [])
  new id hid := h'.stays.size.symm ▸ h.new id hid
  blank hblank id hid := (h'.advances []).blank (h.blank hblank id hid) (by simp)

lemma declare (hn : n ≤ c.program.defs.size) (hheld : ∀ k, kind.contents? = some k → k.Held c.program.types)
    (hkind : kind.settled = (none, none, none)) (hblank : isBlank → kind.outline = DefKind.blank) :
    Declares n isBlank c (some ⟨c.program.defs.size⟩) (declare unit name kind c).2 := by
  let d : Def := { name := name.name, unit, span := name.span, kind }
  have hadd : Declares n isBlank c (some ⟨c.program.defs.size⟩) (addDef d c).2 := by
    have hlt : c.program.defs.size < (addDef d c).2.program.defs.size := by
      show _ < (c.program.defs.push d).size
      simp
    refine ⟨.addDef hn fun k hk => ⟨by simp, hheld k hk⟩, (Advances.addDef hkind).of_new (by simp), ?_, fun h => ?_⟩
    · rintro _ ⟨⟩
      exact ⟨Nat.le_refl _, hlt⟩
    · rintro _ ⟨⟩
      exact blank_addDef (hblank h)
  exact hadd.next (Staying.bind staying_enterName (.bind Settling.defineSymbol.staying .pure) _)

lemma declareGlobal (hn : n ≤ c.program.defs.size) (hcontents : kind.contents? = none)
    (hkind : kind.settled = (none, none, none)) (hglobal : kind.global?.isSome) {type : TypeExpr} :
    Declares n false c (some ⟨c.program.defs.size⟩) (declareGlobal unit name kind type value c).2 := by
  let pending : PendingGlobal := { unit, type := some type, value, typed := false, atRunTime := false }
  have hregister : ∀ c' : Checker, c'.program.kind ⟨c.program.defs.size⟩ = kind →
      Still c' (registerGlobal ⟨c.program.defs.size⟩ pending c').2 := fun c' hsame =>
    ⟨.of_eq rfl rfl rfl, fun _ => (Advances.addGlobal pending (hsame ▸ hglobal)).trans (.setPending (hsame ▸ hkind))⟩
  have hdeclare : Declares n false c (some ⟨c.program.defs.size⟩) (Check.declare unit name kind c).2 :=
    declare hn (by simp [hcontents]) hkind nofun
  exact hdeclare.next (hregister _ kind_declare)

lemma declareType {kind : List Generic → DefKind} (hn : n ≤ c.program.defs.size) (params : List GenericParam)
    (hcontents : ∀ generics k, (kind generics).contents? = some k → k.generics = generics ∧ k.members = [])
    (hkind : ∀ generics, (kind generics).settled = (none, none, none))
    (hblank : ∀ generics, (kind generics).outline = DefKind.blank) :
    let declared := (do
      let generics ← declareGenerics unit params
      let id ← Check.declare unit name (kind generics)
      setSelfType id
      return some id : CheckM (Option DefId)) c
    Declares n isBlank c declared.1 declared.2 := by
  intro declared
  have hyields := yields_declareGenerics unit params
  let generic := declareGenerics unit params c
  have hgeneric : Still c generic.2 := hyields.stays c
  have hheld : ∀ k, (kind generic.1).contents? = some k → k.Held generic.2.program.types := by
    intro k hk
    obtain ⟨hgenerics, hmembers⟩ := hcontents _ k hk
    refine ⟨fun g hg => hyields.holds c (by simp) g.type (mem_map_of_mem (hgenerics ▸ hg)), ?_⟩
    simp [hmembers]
  have hdeclare : Declares n isBlank generic.2 (some ⟨generic.2.program.defs.size⟩)
      (Check.declare unit name (kind generic.1) generic.2).2 :=
    declare (hgeneric.stays.size ▸ hn) hheld (hkind _) fun _ => hblank _
  exact .after hgeneric (hdeclare.next (staying_setSelfType _))

end Declares

lemma declares_declareItem (unit : UnitId) (item : Item) (hn : n ≤ c.program.defs.size) :
    Declares n (isBlankItem item) c (declareItem unit item c).1 (declareItem unit item c).2 := by
  unfold declareItem isBlankItem
  cases item.kind with
  | function decl => exact .declare hn nofun rfl fun _ => rfl
  | trait name methods => exact .declare hn nofun rfl nofun
  | struct name generics fields methods isClass =>
    refine Declares.declareType hn generics (fun generics k hk => ?_) (fun _ => rfl) fun _ => rfl
    cases hk
    exact ⟨rfl, rfl⟩
  | «enum» name generics repr variants methods =>
    refine Declares.declareType hn generics (fun generics k hk => ?_) (fun _ => rfl) fun _ => outline_enum (by simp)
    cases hk
    exact ⟨rfl, rfl⟩
  | const name type value | static name isMut type value => exact .declareGlobal hn rfl rfl rfl
  | importUnit _ | impl _ _ _ _ | assert _ _ => exact .refl c

lemma mapM_cons_run (f : α → CheckM β) :
    (x :: xs).mapM f c = ((f x c).1 :: (xs.mapM f (f x c).2).1, (xs.mapM f (f x c).2).2) := by
  rw [mapM_cons]
  rfl

/-- What declaring items does: their declarations are different new ones. -/
structure DeclaresAll (n : Nat) (items : List DeclaredItem) (decls : List DefId) (c c' : Checker) : Prop where
  contents : Extends n decls c c'
  advances : Advances [] c c'
  new : ∀ item ∈ items, ∀ id ∈ item.2, c.program.defs.size ≤ id.index
  blank : ∀ item ∈ items, isBlankItem item.1 → ∀ id ∈ item.2, c'.Blank id
  distinct : items.Pairwise fun a b => ∀ id ∈ a.2, id ∉ b.2

lemma declaresAll_declareItems (unit : UnitId) : ∀ (items : List Item) (c : Checker),
    n ≤ c.program.defs.size →
      let declared := items.mapM (declareItem unit) c
      DeclaresAll n (items.zip declared.1) (declared.1.filterMap id) c declared.2
  | [], c, _ => ⟨(Stays.refl c).extends, .refl c, nofun, nofun, .nil⟩
  | item :: items, c, hn => by
    intro declared
    have hfirst := declares_declareItem unit item hn
    have hrest := declaresAll_declareItems unit items (declareItem unit item c).2 (Nat.le_trans hn hfirst.contents.size)
    have hdecls : ∀ (first : Option DefId) (rest : List (Option DefId)),
        (first :: rest).filterMap id = first.toList ++ rest.filterMap id := fun first rest => by
      cases first <;> rfl
    simp only [declared, mapM_cons_run, hdecls, zip_cons_cons]
    refine ⟨(hfirst.contents.mono (subset_append_left _ _)).trans
      (hrest.contents.mono (subset_append_right _ _)), hfirst.advances.trans hrest.advances, ?_, ?_, ?_⟩
    · refine forall_mem_cons.2 ⟨fun id hid => (hfirst.new id hid).1, fun pair hpair id hid => ?_⟩
      exact Nat.le_trans hfirst.advances.size (hrest.new pair hpair id hid)
    · refine forall_mem_cons.2 ⟨fun hblank id hid => ?_, hrest.blank⟩
      exact hrest.advances.blank (hfirst.blank hblank id hid) (by simp)
    · refine pairwise_cons.2 ⟨fun pair hpair id hid hmem => ?_, hrest.distinct⟩
      exact Nat.not_le_of_lt (hfirst.new id hid).2 (hrest.new pair hpair id hmem)

/-! ## Passes -/

def functionId : DeclaredItem → List DefId
  | (⟨_, .function _, _⟩, decl) => decl.toList
  | _ => []

def enumId : DeclaredItem → List DefId
  | (⟨_, .enum .., _⟩, decl) => decl.toList
  | _ => []

variable {item : DeclaredItem}

lemma mem_of_mem_functionId {id : DefId} (h : id ∈ functionId item) :
    id ∈ item.2 ∧ isBlankItem item.1 ∧ enumId item = [] := by
  obtain ⟨⟨_, kind, _⟩, decl⟩ := item
  cases kind with
  | function => exact ⟨Option.mem_toList.1 h, rfl, rfl⟩
  | _ => cases h

lemma mem_of_mem_enumId {id : DefId} (h : id ∈ enumId item) : id ∈ item.2 ∧ isBlankItem item.1 := by
  obtain ⟨⟨_, kind, _⟩, decl⟩ := item
  cases kind with
  | «enum» => exact ⟨Option.mem_toList.1 h, rfl⟩
  | _ => cases h

/-- Functions and enums are declared blank, and settled later. -/
lemma exists_blankItem {items : List DeclaredItem} {id : DefId}
    (h : id ∈ items.flatMap functionId ++ items.flatMap enumId) : ∃ item ∈ items, id ∈ item.2 ∧ isBlankItem item.1 := by
  rcases mem_append.1 h with h | h
  · obtain ⟨item, hitem, hid⟩ := mem_flatMap.1 h
    obtain ⟨hmem, hblank, -⟩ := mem_of_mem_functionId hid
    exact ⟨item, hitem, hmem, hblank⟩
  · obtain ⟨item, hitem, hid⟩ := mem_flatMap.1 h
    exact ⟨item, hitem, mem_of_mem_enumId hid⟩

section

variable {n : Nat} (unit : UnitId) {item : DeclaredItem} (hitem : ∀ id ∈ item.2, n ≤ id.index)

include hitem

lemma advancing_typeSignature : Advancing n (enumId item) [] (typeSignature unit item) := by
  obtain ⟨⟨_, kind, _⟩, decl⟩ := item
  cases decl with
  | none => cases kind <;> exact .pure
  | some decl =>
    have hdecl := hitem decl rfl
    cases kind with
    | struct => exact (advancing_structSignature hdecl).weaken
    | «enum» => exact advancing_enumSignature hdecl
    | trait => exact (advancing_traitSignature unit decl _).weaken
    | _ => exact .pure

lemma advancing_functionSignatures :
    Advancing n (functionId item) (functionId item) (functionSignatures unit item) := by
  obtain ⟨⟨_, kind, _⟩, decl⟩ := item
  cases decl with
  | none =>
    cases kind with
    | impl => exact advancing_implBlock.weaken
    | _ => exact .pure
  | some decl =>
    cases kind with
    | function => exact advancing_functionSignature (hitem decl rfl)
    | struct | «enum» => exact (advancing_inlineMethods unit decl _ _).weaken
    | impl => exact advancing_implBlock.weaken
    | _ => exact .pure

lemma advancing_discriminantsOf : Advancing n (enumId item) (enumId item) (discriminantsOf unit item) := by
  obtain ⟨⟨_, kind, _⟩, decl⟩ := item
  cases decl with
  | none => cases kind <;> exact .pure
  | some decl =>
    cases kind with
    | «enum» => exact advancing_enumDiscriminants (hitem decl rfl)
    | _ => exact .pure

end

lemma settling_isGlobal {id : DefId} : Settling (isGlobal id) := .map .get

lemma staying_flushBounds : Staying flushBounds := by
  refine .bind get.staying fun {c} => .bind (fun _ => .of_eq rfl rfl rfl rfl rfl rfl) ?_
  rw [← Array.forIn_toList]
  exact staying (.map (.forIn fun bound _ => .map .checkBound))

/-! ## Conformance -/

lemma settling_checkRequired : Settling (checkRequired traitName required method) := by
  refine .bind (.getDef _) fun {d} => .demand fun _ hd => .bind (.signature hd _ _) <| .bind .program fun {p} => ?_
  split
  · exact .pure
  · exact .ite .pure (.ite .pure .report)

lemma settling_checkRequiredAll : ∀ required : List TraitMethod, Settling (checkRequiredAll traitName impl required)
  | [] => .pure
  | required :: rest => by
    refine .bind .program fun {p} => ?_
    split
    · exact .bind settling_checkRequired <| settling_checkRequiredAll rest
    · exact .map (settling_checkRequiredAll rest)

lemma settling_checkImpl : Settling (checkImpl index impl traitDef) := by
  refine .bind .program fun {p} => ?_
  have hmethods : ∀ decl : TraitDef, Settling (do
      for method in impl.methods do
        let m ← getDef method
        if !decl.methods.any (·.name == m.name) then report m.span (.notInTrait m.name (p.defName traitDef))) := by
    refine fun decl => .map (.forIn fun _ _ => .bind (.getDef _) ?_)
    exact .ite (.map .report) .pure
  cases (p.impls.toList.take index).find? fun other =>
    other.traitDef == some traitDef && overlaps p.types other.target impl.target
  case' none => dsimp only
  case' some other => refine .bind .report ?_
  all_goals
    split
    · exact .pure
    · refine .bind (settling_checkRequiredAll _) ?_
      exact .ite (.bind .report <| hmethods _) (hmethods _)

lemma settling_checkConformance : Settling (checkConformance first) := by
  refine .bind .program fun {p} => .map (.forIn fun _ _ => .ite ?_ .pure)
  split
  · exact .map settling_checkImpl
  · exact .bind .pure .pure

/-! ## Values and bodies -/

lemma settling_checkAssertItem {item : Item} : Settling (checkAssertItem unit item) := by
  obtain ⟨_, kind, _⟩ := item
  cases kind with
  | assert condition message =>
    refine .envIn _ _ fun env hd => .map (.runBody (.map ?_))
    exact .checkAssertion hd (settling_exprCheck hd _) (settling_optionalCheck hd _)
  | _ => exact .pure

lemma settling_checkFunctions : Settling (checkFunctions unit) := by
  refine .bind .program fun {p} => ?_
  dsimp only
  rw [← Array.forIn_toList]
  refine .map (.forIn fun decl _ => .bind .program ?_)
  exact .ite (.map .ensureFunction) .pure

section

variable {n : Nat} {items : List DeclaredItem} (hdistinct : items.Pairwise fun a b => ∀ id ∈ a.2, id ∉ b.2)

include hdistinct

lemma not_mem_functionId {id : DefId} (h : id ∈ items.flatMap enumId) : id ∉ items.flatMap functionId := by
  intro h'
  obtain ⟨a, ha, hid⟩ := mem_flatMap.1 h
  obtain ⟨b, hb, hid'⟩ := mem_flatMap.1 h'
  obtain ⟨hmem, -⟩ := mem_of_mem_enumId hid
  obtain ⟨hmem', -, hnil⟩ := mem_of_mem_functionId hid'
  have hne : a ≠ b := by
    rintro rfl
    rw [hnil] at hid
    cases hid
  have : Std.Symm fun a b : DeclaredItem => ∀ id ∈ a.2, id ∉ b.2 := ⟨fun a b hab id hb ha => hab id ha hb⟩
  exact hdistinct.forall ha hb hne id hmem hmem'

lemma advancing_checkSignatures (hitems : ∀ item ∈ items, ∀ id ∈ item.2, n ≤ id.index) :
    Advancing n (items.flatMap functionId ++ items.flatMap enumId) (items.flatMap functionId ++ items.flatMap enumId)
      (checkSignatures unit items decls) := by
  have htypes : Advancing n (items.flatMap enumId) [] (items.forM (typeSignature unit)) := by
    have hpass := Advancing.forM (fun item hitem => advancing_typeSignature unit (hitems item hitem))
      (hdistinct.imp fun _ _ _ => not_mem_nil)
    refine hpass.mono (List.Subset.refl _) fun id hid => ?_
    obtain ⟨_, _, hid⟩ := mem_flatMap.1 hid
    exact hid
  have hfunctions : Advancing n (items.flatMap functionId) (items.flatMap functionId)
      (items.forM (functionSignatures unit)) :=
    .forM (fun item hitem => advancing_functionSignatures unit (hitems item hitem)) (hdistinct.imp fun hab id hb ha =>
      hab id (mem_of_mem_functionId ha).1 (mem_of_mem_functionId hb).1)
  have hnumbers : Advancing n (items.flatMap enumId) (items.flatMap enumId) (items.forM (discriminantsOf unit)) :=
    .forM (fun item hitem => advancing_discriminantsOf unit (hitems item hitem)) (hdistinct.imp fun hab id hb ha =>
      hab id (mem_of_mem_enumId ha).1 (mem_of_mem_enumId hb).1)
  have hglobals : Settling (forIn decls PUnit.unit fun decl _ => do
      if ← isGlobal decl then
        let _ ← ensureGlobalType decl
        return .yield PUnit.unit
      else return .yield PUnit.unit) :=
    .forIn fun decl _ => .bind settling_isGlobal <| .ite (.map .ensureGlobalType) .pure
  refine .first Settling.program.advancing fun _ => .first (Staying.advancing fun _ => .of_eq rfl rfl rfl rfl rfl rfl) fun _ => ?_
  refine (Advancing.both htypes (fun _ => .both hfunctions (fun _ => .first hglobals.advancing fun _ =>
    .last hnumbers fun _ => .first staying_flushBounds.advancing fun _ => settling_checkConformance.advancing) ?_)
    ?_).mono ?_ ?_
  · exact fun id hid => not_mem_functionId hdistinct hid
  · simp
  · grind
  · simp

end

lemma Settling.forM : ∀ {xs : List α}, (∀ x ∈ xs, Settling (f x)) → Settling (xs.forM f)
  | [], _ => .pure
  | x :: xs, h => .bind (h x (by simp)) <| forM fun y hy => h y (by simp [hy])

lemma settling_checkBodies (unit : UnitId) (items : List Item) (decls : List DefId) :
    Settling (checkBodies unit items decls) := by
  refine .bind (.forIn fun decl _ => ?_) <| .bind (.forM fun item _ => settling_checkAssertItem) settling_checkFunctions
  refine .bind settling_isGlobal <| .ite ?_ .pure
  exact .map .ensureGlobal

/-! ## Containment -/

lemma isError_infiniteSize {span : Span} {name : String} :
    ((Problem.infiniteSize name isEnum).toDiagnostic span).isError := by
  cases isEnum <;> rfl

lemma hasErrors_of_earlier (h : ds <+: ds') (hclean : hasErrors ds' = false) : hasErrors ds = false := by
  obtain ⟨more, rfl⟩ := h
  unfold hasErrors at hclean ⊢
  rw [any_append, Bool.or_eq_false_iff] at hclean
  exact hclean.1

lemma settling_checkContainment : Settling (checkContainment decls) :=
  .forM fun _ _ => .bind .program <| .ite .report .pure

lemma checkFinite_run :
    (c.program.holdsItself decl = false ∧ (checkFinite decl c).2 = c) ∨
      hasErrors (checkFinite decl c).2.diagnostics.toList := by
  unfold checkFinite
  rw [run_bind, run_program]
  split
  · refine .inr ?_
    show (c.diagnostics.push _).toList.any _
    rw [Array.toList_push, any_append, Bool.or_eq_true]
    exact .inr (by simpa using isError_infiniteSize)
  · rename_i hholds
    exact .inl ⟨by simpa using hholds, rfl⟩

lemma checkContainment_clean : ∀ decls c,
    hasErrors (checkContainment decls c).2.diagnostics.toList = false →
      ∀ decl ∈ decls, c.program.holdsItself decl = false
  | [], _, _ => nofun
  | decl :: decls, c, hclean => by
    have hclean : hasErrors (checkContainment decls (checkFinite decl c).2).2.diagnostics.toList = false := hclean
    rcases checkFinite_run with ⟨hholds, hsame⟩ | herror
    · rw [hsame] at hclean
      exact forall_mem_cons.2 ⟨hholds, checkContainment_clean decls c hclean⟩
    · have hfirst := hasErrors_of_earlier (settling_checkContainment _).stays.reports hclean
      rw [herror] at hfirst
      cases hfirst

/-! ## Units -/

namespace Stays

variable {c' : Checker}

lemma finite (h : Stays c c') (hheld : c.program.ContentsHeld) (hfinite : c.program.Finite) : c'.program.Finite := by
  have heq : ∀ decl, c'.program.held decl = c.program.held decl := fun decl =>
    held_eq_of_le h.types hheld (h.contents decl)
  intro decl
  simp only [heq]
  exact hfinite decl

end Stays

lemma Extends.finite (h : Extends c.program.defs.size decls c c')
    (hheld : c.program.ContentsHeld) (hfinite : c.program.Finite)
    (hdecls : ∀ decl ∈ decls, c'.program.holdsItself decl = false) : c'.program.Finite := by
  let holds (p : Program) (decl other : DefId) : Prop := other ∈ p.held decl
  -- What holds itself is an earlier declaration, since the check found no other one.
  have hold : ∀ decl, Relation.TransGen (holds c'.program) decl decl → decl.index < c.program.defs.size := by
    intro decl hcycle
    obtain ⟨other, hother, -⟩ := Relation.TransGen.head'_iff.1 hcycle
    have hcontents : (c'.program.contents? decl).isSome := by
      cases hnone : c'.program.contents? decl with
      | some _ => rfl
      | none =>
        have hnil : c'.program.held decl = [] := by
          unfold Program.held
          rw [members?_eq, hnone]
          rfl
        exact absurd (show other ∈ c'.program.held decl from hother) (by simp [hnil])
    rcases h.new decl hcontents with hbefore | hnew
    · obtain ⟨k, hk⟩ := Option.isSome_iff_exists.1 hbefore
      exact lt_of_contents? hk
    · exact absurd hcycle (not_held_of_holdsItself (hdecls decl hnew))
  -- So a way round goes only through earlier ones, and was there before.
  have hback : ∀ decl other, Relation.TransGen (holds c'.program) decl other →
      Relation.TransGen (holds c'.program) other decl → Relation.TransGen (holds c.program) decl other := by
    intro decl other hway
    have hstep : ∀ a b, holds c'.program a b → Relation.TransGen (holds c'.program) a a → holds c.program a b := by
      intro a b hab hcycle
      have heq := held_eq_of_le h.types hheld (h.old a (hold a hcycle))
      show b ∈ c.program.held a
      rw [← heq]
      exact hab
    induction hway with
    | single hab => exact fun hreturn => .single (hstep _ _ hab (.head hab hreturn))
    | tail hway hab ih =>
      intro hreturn
      exact .tail (ih (.head hab hreturn)) (hstep _ _ hab (.head hab (hreturn.trans hway)))
  exact fun decl hcycle => hfinite decl (hback decl decl hcycle hcycle)

lemma staying_resolveImports (unit : UnitId) : ∀ imports : List ImportDecl, Staying (resolveImports unit imports)
  | [] => .pure
  | decl :: rest => by
    have hrest := staying_resolveImports unit rest
    refine .bind get.staying fun {c} => ?_
    split
    · split
      · exact .bind Settling.report.staying hrest
      · exact .bind (fun _ => .of_eq rfl rfl rfl rfl rfl rfl) <| .bind Settling.defineSymbol.staying hrest
    · exact .bind Settling.report.staying hrest

lemma advances_resolveItems (unit : UnitId) (items : List Item) (c : Checker) :
    let resolved := resolveItems unit items c
    Extends c.program.defs.size resolved.1 c resolved.2 ∧ Advances [] c resolved.2 := by
  have hnames := declaresAll_declareItems unit items c (Nat.le_refl _)
  obtain ⟨hextends, hadvances⟩ := advancing_checkSignatures hnames.distinct hnames.new (items.mapM (declareItem unit) c).2
    hnames.contents.size fun id hid => by
      obtain ⟨item, hitem, hmem, hblank⟩ := exists_blankItem hid
      exact hnames.blank item hitem hblank id hmem
  refine ⟨hnames.contents.trans (hextends.mono (nil_subset _)), ((hnames.advances.mono (by simp)).trans hadvances).of_new ?_⟩
  intro id hid
  obtain ⟨item, hitem, hmem, -⟩ := exists_blankItem hid
  exact hnames.new item hitem id hmem

/-- From one state to another in which reports stay and, as long as none of them is an error, no
declaration comes to hold itself. -/
structure KeepsFinite (c c' : Checker) : Prop where
  reports : c.diagnostics.toList <+: c'.diagnostics.toList
  finite : hasErrors c'.diagnostics.toList = false → c.program.ContentsHeld ∧ c.program.Finite →
    c'.program.ContentsHeld ∧ c'.program.Finite

lemma KeepsFinite.trans (h : KeepsFinite a b) (h' : KeepsFinite b c) : KeepsFinite a c :=
  ⟨h.reports.trans h'.reports, fun hclean ha => h'.finite hclean (h.finite (hasErrors_of_earlier h'.reports hclean) ha)⟩

lemma Stays.keepsFinite (h : Stays c c') : KeepsFinite c c' :=
  ⟨h.reports, fun _ hc => ⟨h.contentsHeld hc.1, h.finite hc.1 hc.2⟩⟩

lemma keepsFinite_checkItems (unit : UnitId) (items : List Item) (c : Checker) :
    KeepsFinite c (checkItems unit items c).2 := by
  let resolved := resolveItems unit items c
  let contained := checkContainment resolved.1 resolved.2
  have hresolved := (advances_resolveItems unit items c).1
  have hcontained : Stays resolved.2 contained.2 := (settling_checkContainment _).stays
  have hbodies : Stays contained.2 (checkItems unit items c).2 := (settling_checkBodies unit items resolved.1 _).stays
  refine KeepsFinite.trans ⟨hresolved.reports.trans hcontained.reports, fun hclean hc => ?_⟩ hbodies.keepsFinite
  have hheld := hresolved.held hc.1
  have hfinite := hresolved.finite hc.1 hc.2 (checkContainment_clean resolved.1 resolved.2 hclean)
  exact ⟨hcontained.contentsHeld hheld, hcontained.finite hheld hfinite⟩

/-- Checking units one after the other, from what checking their items does. -/
lemma foldl_checkNext {R : Checker → Checker → Prop} (htrans : ∀ {a b c}, R a b → R b c → R a c)
    (hstill : ∀ {c c'}, Still c c' → R c c') (hitems : ∀ unit items c, R c (checkItems unit items c).2) :
    ∀ (order : List Nat) (c : Checker), R c (order.foldl (checkNext units) c)
  | [], c => hstill (.refl c)
  | index :: order, c => by
    refine htrans ?_ (foldl_checkNext (R := R) htrans hstill hitems order (checkNext units c index))
    unfold checkNext
    split
    · rename_i unit _
      let added := addUnit unit.name unit.parsed.module.file unit.isLibrary c
      have hadded : Still c added.2 := .of_eq rfl rfl rfl rfl rfl rfl
      exact htrans (hstill (hadded.trans (staying_resolveImports added.1 _ _))) (hitems added.1 _ _)
    · exact hstill (.refl c)

/-- In a program that was checked without an error no declaration holds itself by value. -/
lemma finite_checkInOrder
    (hclean : hasErrors (checkInOrder units order limits).diagnostics.toList = false) :
    (checkInOrder units order limits).program.ContentsHeld ∧ (checkInOrder units order limits).program.Finite := by
  refine (foldl_checkNext .trans (·.stays.keepsFinite) keepsFinite_checkItems order { limits }).finite hclean
    ⟨nofun, fun decl hcycle => ?_⟩
  obtain ⟨other, hother, -⟩ := Relation.TransGen.head'_iff.1 hcycle
  cases hother

end Kite.Check

namespace Kite

def unitsOf (source : String) : List LoadedUnit :=
  match loadUnits [⟨"main", source⟩] { library := .none } with
  | .ok frontend => frontend.units
  | .error _ => []

/-- What checking makes of a source on its own, without the library. -/
def checkedAlone (source : String) : Check.Checker := checkInOrder (unitsOf source) [0] {}

end Kite
