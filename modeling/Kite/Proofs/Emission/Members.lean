/-
The emission of bodies that pass their check does not fail. The members of concrete types are
concrete, so values and definitions of types can be written down as well.
-/
import Kite.Proofs.Emission.Order
import Kite.Proofs.Emission.Total
import Kite.Proofs.Emission.Trees

namespace Kite.Emission

open List TypeM Bool Emits

variable {p : Program} {cx : Context} {table : TypeTable} {scope : Typed.Emittable.Scope}

lemma Emits.mapM {Q : β → Prop} : ∀ {l : List α},
    (∀ a ∈ l, Emits p cx table (f a) fun _ b => Q b) → Emits p cx table (l.mapM f) fun _ bs => ∀ b ∈ bs, Q b
  | [], _ => pure fun _ _ => by simp
  | a :: l, h => by
    rw [mapM_cons]
    refine .bind (h a (by simp)) fun now b hle hb => ?_
    have hrest : ∀ c ∈ l, Emits p cx table (f c) fun _ b => Q b := fun c hc => h c (by simp [hc])
    refine bind ((mapM hrest).mono hle) fun later bs _ hbs => ?_
    exact .pure fun _ _ => forall_mem_cons.2 ⟨hb, hbs⟩

/-! ## Patterns -/

lemma concreteGroups_le (q : Program) (id : TypeId) (now : TypeTable) : now ≤ (q.concreteGroups id now).2 := by
  unfold Program.concreteGroups
  rw [get_bind]
  cases now.shape id with
  | named decl _ args => exact mapM_le (mapM_le (subst_le _)) _ now
  | _ => exact le_rfl

lemma total_memberTypes {id : TypeId} : Total p cx table (memberTypes id group) :=
  total_program.bind <| .bind (emits_build (concreteGroups_le _ _)).total <| .pure _

lemma total_variantTest {id : TypeId} : Total p cx table (variantTest subject id decl index) := by
  refine (closed_typeName total_closed).bind <| total_program.bind fun {_} => ?_
  split
  · exact .pure _
  · split
    · exact .pure _
    · exact total_memberTypes.bind <| .pure _

def Declares (p : Program) (scope : Typed.Emittable.Scope) (t : PatternTest) : Prop :=
  ∀ b ∈ t.bindings, Typed.Emittable.declares p scope b.1

lemma Declares.and (ha : Declares p scope a) (hb : Declares p scope b) : Declares p scope (a.and b) :=
  forall_mem_append.2 ⟨ha, hb⟩

lemma declares_of : Declares p scope (.of condition) := by
  intro b hb
  cases hb

mutual

theorem emits_patternTest : ∀ {q} subject type,
    Typed.Emittable.pattern p scope q → Emits p cx table (patternTest q subject type) fun _ t => Declares p scope t
  | .wildcard, _, _, _ => .pure fun _ _ => nofun
  | .binding id, subject, _, h => by
    rw [Typed.Emittable.pattern] at h
    exact .pure fun _ _ => by simpa [Declares] using h
  | .int value, _, _, _ => by exact .bind total_types fun _ _ _ _ => .pure fun _ _ => declares_of
  | .bool _, _, _, _ | .char _, _, _, _ | .str _, _, _, _ | .none, _, _, _ => by exact .pure fun _ _ => declares_of
  | .some inner, subject, type, h => by
    rw [Typed.Emittable.pattern] at h
    refine .bind total_types fun _ _ hle _ => ?_
    refine .bind ((emits_patternTest _ _ h).mono hle) fun _ t _ ht => ?_
    exact .pure fun _ _ => declares_of.and ht
  | .variant decl index fields, subject, type, h => by
    refine .bind total_variantTest fun _ test hle _ => ?_
    cases test with
    | unknown => exact .pure fun _ _ => nofun
    | number condition => exact .pure fun _ _ => declares_of
    | payload members =>
      refine .bind ((emits_patternTests _ _ _ h).mono hle) fun _ t _ ht => ?_
      exact .pure fun _ _ => declares_of.and ht

theorem emits_patternTests : ∀ {qs} members access position, Typed.Emittable.patterns p scope qs →
      Emits p cx table (patternTests qs members access position) fun _ t => Declares p scope t
  | [], _, _, _, _ | _ :: _, [], _, _, _ => by
    rw [patternTests]
    · exact .pure fun _ _ => nofun
    · nofun
  | q :: qs, member :: members, access, position, h => by
    rw [Typed.Emittable.patterns, and_eq_true] at h
    refine .bind (emits_patternTest _ _ h.1) fun _ first hle hfirst => ?_
    refine .bind ((emits_patternTests _ _ _ h.2).mono hle) fun _ rest _ hrest => ?_
    exact .pure fun _ _ => hfirst.and hrest

end

/-! ## Arms -/

lemma patterns_forall : ∀ {qs}, Typed.Emittable.patterns p scope qs → ∀ q ∈ qs, Typed.Emittable.pattern p scope q
  | [], _ => nofun
  | q :: qs, h => by
    rw [Typed.Emittable.patterns, and_eq_true] at h
    exact forall_mem_cons.2 ⟨h.1, patterns_forall h.2⟩

lemma total_armLines (hin : Inside p table scope cx) {type : TypeId} : ∀ {arms : List LoweredArm} (isFirst : Bool),
    (∀ arm ∈ arms, (True → Typed.Emittable.patterns p scope arm.patterns) ∧ Judged (emitted p cx) True table arm.body) →
      Total p cx table (armLines subject type dest arms isFirst)
  | [], true, _ => total_line
  | [], false, _ => (total_nextBranch _).bind <| total_line.bind <| total_write _
  | arm :: arms, isFirst, h => by
    obtain ⟨hpatterns, hbody⟩ := h arm (by simp)
    refine bind (mapM fun q hq => emits_patternTest subject type
      (patterns_forall (hpatterns trivial) q hq)) fun now tests hle htests => ?_
    have hline : Total p cx now (armLine (anyTest tests) isFirst) := holds_armLine (j := emitted p cx) (d := 0)
    refine hline.bind <| .bind (.forM fun b hb => ?_) ?_
    · obtain ⟨t, ht, hb⟩ := mem_flatMap.1 hb
      exact level_bindLocal ((hin.mono hle).spelled_local (htests t ht b hb)) 0
    · refine .bind ((hbody.branch dest).mono hle 0) ?_
      split
      · exact total_write _
      · exact (total_armLines hin false fun a ha => h a (by simp [ha])).mono hle

/-- Inside a body that has passed its check, what may fail does not. -/
lemma Inside.leaves (hin : Inside p table scope cx) (htargets : p.TargetsHeld) :
    Leaves (emitted p cx) True p scope table where
  spelled h := hin.spelled (h trivial)
  spelledLocal h := hin.spelled_local (h trivial)
  constParam h _ := total_constParamText hin (h trivial)
  fill h ha hb _ := total_fillText hin (h trivial) (ha 0) (hb 0)
  traitMethod h hargs _ := total_callTraitMethod hin htargets (h trivial) fun a ha => hargs a ha 0
  arms _ h _ := total_armLines hin true h
  fails h := absurd trivial h

end Kite.Emission

namespace Kite

open List TypeTable Bool

variable {group : Nat}

/-! ## Groups of members -/

namespace TypeM

variable {table : TypeTable}

lemma mapM_makesAll :
    ∀ {groups : List (List TypeId)}, (∀ group ∈ groups, MakesAll table (f group) (ts group)) →
      ∀ now, table ≤ now → now ≤ (groups.mapM f now).2 ∧
        (∀ group ∈ (groups.mapM f now).1, ∀ id ∈ group, (groups.mapM f now).2.Holds id) ∧
        (groups.mapM f now).1.map (·.map (groups.mapM f now).2.tree) = groups.map ts
  | [], _, now, _ => ⟨le_rfl, forall_mem_nil _, rfl⟩
  | group :: groups, h, now, hnow => by
    obtain ⟨hle, hholds, htrees⟩ := h group (by simp) now hnow
    have hrest : ∀ group ∈ groups, MakesAll table (f group) (ts group) := fun g hg => h g (by simp [hg])
    obtain ⟨hle', hholds', htrees'⟩ := mapM_makesAll hrest (f group now).2 (hnow.trans hle)
    have hsame : (f group now).1.map (groups.mapM f (f group now).2).2.tree = ts group := by
      rw [← htrees]
      exact map_congr_left fun id hid => tree_eq_of_le hle' id (hholds id hid)
    rw [mapM_cons]
    refine ⟨hle.trans hle', ?_, ?_⟩
    · exact forall_mem_cons.2 ⟨fun id hid => (hholds id hid).mono hle', hholds'⟩
    · rw [map_cons, ← htrees', ← hsame]
      rfl

end TypeM

section Groups

variable {p : Program} {table : TypeTable} {id : TypeId} {decl : DefId} {name : String} {args : List TypeId}

lemma memberTys_eq {args : List Ty} :
    p.memberTys decl group args = (((p.memberGroups decl).2[group]?).getD []).map fun member =>
      (p.types.tree member).subst (.bindOpen (p.memberGroups decl).1 args) := rfl

lemma concreteGroups_makes (hle : p.types ≤ table) (hshape : table.shape id = .named decl name args)
    (hheld : ∀ member ∈ (p.memberGroups decl).2.flatten, p.types.Holds member)
    {q : Program} (hq : q.memberGroups decl = p.memberGroups decl) {now : TypeTable} (hnow : table ≤ now) :
    (q.concreteGroups id now).1.map (·.map (q.concreteGroups id now).2.tree) =
      (p.memberGroups decl).2.map (·.map fun member =>
        (p.types.tree member).subst (.bindOpen (p.memberGroups decl).1 (args.map table.tree))) := by
  have hid : table.Holds id := holds_of_shape (by rw [hshape]; nofun)
  have hargs : (Program.bindings (p.memberGroups decl).1 args).Held table := by
    intro param arg hget
    obtain ⟨g, hmem⟩ := mem_zip_of_get?_bindings hget
    exact hid.part (by rw [hshape]; exact (of_mem_zip hmem).2)
  have hrun : q.concreteGroups id now = ((p.memberGroups decl).2.mapM fun group : List TypeId =>
      group.mapM (TypeM.subst (Program.bindings (p.memberGroups decl).1 args))) now := by
    unfold Program.concreteGroups
    rw [get_bind, shape_eq_of_le hnow hid, hshape]
    dsimp only
    rw [hq]
  rw [hrun]
  refine (TypeM.mapM_makesAll (fun group hgroup => TypeM.mapM_makes fun member hmember => ?_) now hnow).2.2
  have hmember := hheld member (mem_flatten.2 ⟨group, hgroup, hmember⟩)
  rw [← tree_eq_of_le hle member hmember, ← trees_bindings]
  exact TypeM.subst_makes hargs (hmember.mono hle)

lemma concreteGroups_run (hle : p.types ≤ table) (hid : Concrete p table id)
    (hshape : table.shape id = .named decl name args) (hmembers : p.emittableMembers decl)
    {q : Program} (hq : q.memberGroups decl = p.memberGroups decl) {now : TypeTable}
    (hnow : table ≤ now) : (∀ member ∈ ((q.concreteGroups id now).1[group]?).getD [],
      Concrete p (q.concreteGroups id now).2 member) ∧
    (((q.concreteGroups id now).1[group]?).getD []).map (q.concreteGroups id now).2.tree =
      p.memberTys decl group (args.map table.tree) := by
  have hargs : ∀ g arg, (g, arg) ∈ (p.memberGroups decl).1.zip args → Concrete p table arg :=
    fun g arg hmem => hid.part (by rw [hshape]; exact (of_mem_zip hmem).2)
  have hlen := Instance.length_of_concrete hid hshape
  have hproper {member : TypeId} (h : member ∈ (p.memberGroups decl).2.flatten) :
      p.isProper (p.memberGroups decl).1 member := Instance.isProper_of_emittableMembers hmembers h
  have htrees := concreteGroups_makes hle hshape (fun member hmember => holds_of_proper (hproper hmember)) hq hnow
  have hgroup : (((q.concreteGroups id now).1[group]?).getD []).map (q.concreteGroups id now).2.tree =
      p.memberTys decl group (args.map table.tree) := by
    have hget := congrArg (·[group]?) htrees
    simp only [getElem?_map] at hget
    rw [memberTys_eq]
    cases hmade : (q.concreteGroups id now).1[group]? <;> cases hgiven : (p.memberGroups decl).2[group]? <;> simp_all
  refine ⟨fun member hmember => ?_, hgroup⟩
  have hty : (q.concreteGroups id now).2.tree member ∈ p.memberTys decl group (args.map table.tree) := by
    rw [← hgroup]
    exact mem_map_of_mem hmember
  rw [memberTys_eq] at hty
  obtain ⟨given, hgiven, heq⟩ := mem_map.1 hty
  unfold Concrete
  rw [← heq, ← trees_bindings]
  refine proper_bindings hlen hargs ?_
  cases hfound : (p.memberGroups decl).2[group]? with
  | none => rw [hfound] at hgiven; cases hgiven
  | some found =>
    rw [hfound] at hgiven
    exact hproper (mem_flatten.2 ⟨found, mem_of_getElem? hfound, hgiven⟩)

end Groups

namespace Emission

variable {p : Program} {table : TypeTable} {id : TypeId} {decl : DefId} {name : String} {args : List TypeId}

lemma emits_memberTypes (hle : p.types ≤ table) (hid : Concrete p table id)
    (hshape : table.shape id = .named decl name args) (hmembers : p.emittableMembers decl) :
    Emits p cx table (memberTypes id group) fun now members =>
      (∀ member ∈ members, Concrete p now member) ∧
        members.map now.tree = p.memberTys decl group (args.map table.tree) := by
  refine .bind emits_program fun now q hnow hq => ?_
  subst hq
  refine .bind (emits_build (concreteGroups_le _ _)) fun after groups hafter hmade => ?_
  obtain ⟨before, hbefore, rfl, rfl⟩ := hmade
  obtain ⟨hconcrete, htrees⟩ := concreteGroups_run hle hid hshape hmembers rfl (hnow.trans hbefore)
  refine .pure fun later hlater => ⟨fun member hmember => (hconcrete member hmember).mono hlater, ?_⟩
  rw [← htrees]
  exact map_congr_left fun member hmember => tree_eq_of_le hlater member (hconcrete member hmember).holds

lemma emits_memberTypes_nil (hid : Concrete p table id)
    (hshape : ∀ decl name args, table.shape id ≠ .named decl name args) :
    Emits p cx table (memberTypes id group) fun _ members => members = [] := by
  refine .bind total_program fun now q hnow _ => ?_
  refine .bind (emits_build (concreteGroups_le _ _)) fun after groups hafter hmade => ?_
  obtain ⟨before, hbefore, rfl, rfl⟩ := hmade
  have hrun : (q.concreteGroups id before).1 = [] := by
    unfold Program.concreteGroups
    rw [get_bind, shape_eq_of_le (hnow.trans hbefore) hid.holds]
    cases hkind : table.shape id with
    | named decl name args => exact absurd hkind (hshape decl name args)
    | _ => rfl
  rw [hrun]
  exact .pure fun _ _ => rfl

/-! ## Values -/

lemma sitAll_replicate : ∀ {vs}, Value.sitEach p vs t → Value.sitAll p vs (List.replicate vs.length t)
  | [], _ => by simp [Value.sitAll]
  | v :: vs, h => by
    rw [Value.sitEach, and_eq_true] at h
    rw [length_cons, replicate_succ, Value.sitAll, and_eq_true]
    exact ⟨h.1, sitAll_replicate h.2⟩

lemma sitAll_nil : Value.sitAll p vs [] := by cases vs <;> rfl

lemma total_memberValues (hle : p.types ≤ table) (hid : Concrete p table id) (hvalues : ∀ {table ids},
    p.types ≤ table → (∀ id ∈ ids, Concrete p table id) → Value.sitAll p vs (ids.map table.tree) →
    Total p cx table (valueTexts vs ids)) (hsit : ∀ decl name args, table.shape id = .named decl name args →
    p.emittableMembers decl ∧ Value.sitAll p vs (p.memberTys decl group (args.map table.tree)))
    (hf : ∀ {texts}, Total p cx table (f texts)) :
    Total p cx table (memberTypes id group >>= fun ids => valueTexts vs ids >>= f) := by
  by_cases hnamed : ∃ decl name args, table.shape id = .named decl name args
  · obtain ⟨decl, name, args, hshape⟩ := hnamed
    obtain ⟨hmembers, hall⟩ := hsit decl name args hshape
    refine Emits.bind (emits_memberTypes hle hid hshape hmembers) fun now ids hnow hids => ?_
    have hvs := hvalues (hle.trans hnow) hids.1 (by rw [hids.2]; exact hall)
    exact Total.bind hvs (hf.mono hnow)
  · have hother := fun decl name args h => hnamed ⟨decl, name, args, h⟩
    refine Emits.bind (emits_memberTypes_nil hid hother) fun now ids hnow hids => ?_
    subst hids
    have hvs : Total p cx now (valueTexts vs []) := hvalues (hle.trans hnow) nofun sitAll_nil
    exact Total.bind hvs (hf.mono hnow)

mutual

theorem total_valueText : ∀ {v table id}, p.types ≤ table →
    Concrete p table id → v.sits p (table.tree id) → Total p cx table (valueText v id)
  | .int _ _, _, _, _, _, _ | .float _, _, _, _, _, _ => by exact total_types.bind <| .pure _
  | .bool _, _, _, _, _, _ | .char _, _, _, _, _, _ | .str _, _, _, _, _, _ | .void, _, _, _, _, _ => by exact .pure _
  | .tuple items, table, id, hle, hid, h => by
    have hitems : ∀ ids, (∀ id ∈ ids, Concrete p table id) →
        Value.sitAll p items (ids.map table.tree) → Total p cx table (do
          let items ← valueTexts items ids
          return (← typeText id) ++ braced (commas items)) := fun ids hids hsit =>
      (total_valueTexts hle hids hsit).bind <| (total_typeText hid).bind <| .pure _
    refine total_types_bind fun now hnow => ?_
    rw [shape_eq_of_le hnow hid.holds]
    split
    · rename_i ids hshape
      refine hitems ids (fun id' hmem => hid.part (by rw [hshape]; exact hmem)) ?_
      rw [table.tree_eq, hshape] at h
      cases ids with
      | nil => exact sitAll_nil
      | cons first rest => exact h
    · exact hitems [] nofun sitAll_nil
  | .sequence items, table, id, hle, hid, h => by
    have hitems : ∀ element, Concrete p table element →
        Value.sitEach p items (table.tree element) → Total p cx table (do
          let items ← valueTexts items (List.replicate items.length element)
          return (← typeText id) ++ braced (commas items)) := fun element helement hsit => by
      refine .bind (total_valueTexts hle (fun id hmem => ?_) ?_) <| (total_typeText hid).bind <| .pure _
      · rw [(mem_replicate.1 hmem).2]
        exact helement
      · rw [map_replicate]
        exact sitAll_replicate hsit
    refine total_types_bind fun now hnow => ?_
    rw [shape_eq_of_le hnow hid.holds]
    rw [table.tree_eq] at h
    cases hshape : table.shape id with
    | vector element | array element length =>
      rw [hshape] at h
      exact hitems element (hid.part (by simp [hshape])) h
    | tuple ids =>
      rw [hshape] at h
      cases ids <;> cases h
    | _ =>
      rw [hshape] at h
      cases h
  | .none, _, _, _, hid, _ => by
    rw [valueText]
    exact (total_typeText hid).bind <| .pure _
  | .some inner, table, id, hle, hid, h => by
    rw [valueText]
    refine total_types_bind fun now hnow => ?_
    rw [optionalInner?_eq_of_le hnow hid.holds]
    refine .bind ?_ <| (total_typeText hid).bind <| .pure _
    unfold TypeTable.optionalInner?
    rw [table.tree_eq] at h
    cases hshape : table.shape id with
    | optional part =>
      rw [hshape] at h
      exact total_valueText hle (hid.part (by simp [hshape])) h
    | tuple ids =>
      show Total p cx table (valueText inner id)
      refine total_valueText hle hid ?_
      rw [table.tree_eq, hshape]
      rw [hshape] at h
      cases ids <;> exact h
    | _ =>
      show Total p cx table (valueText inner id)
      rw [hshape] at h
      exact total_valueText hle hid (by rw [table.tree_eq, hshape]; exact h)
  | .struct _ fields, table, id, hle, hid, h => by
    refine total_memberValues hle hid (fun hle hids hsit => total_valueTexts hle hids hsit)
      (fun decl name args hshape => ?_) (closed_structText total_closed)
    rw [table.tree_eq, hshape] at h
    exact and_eq_true_iff.1 h
  | .variant _ index fields, table, id, hle, hid, h => by
    refine total_memberValues hle hid (fun hle hids hsit => total_valueTexts hle hids hsit)
      (fun decl name args hshape => ?_) (closed_variantText total_closed)
    rw [table.tree_eq, hshape] at h
    exact and_eq_true_iff.1 h

theorem total_valueTexts : ∀ {vs table ids},
    p.types ≤ table → (∀ id ∈ ids, Concrete p table id) →
      Value.sitAll p vs (ids.map table.tree) → Total p cx table (valueTexts vs ids)
  | [], _, _, _, _, _ | _ :: _, _, [], _, _, _ => by
    rw [valueTexts]
    · exact .pure _
    · nofun
  | v :: vs, table, id :: ids, hle, hids, h => by
    rw [map_cons, Value.sitAll, and_eq_true] at h
    refine (total_valueText hle (hids id (by simp)) h.1).bind ?_
    exact (total_valueTexts hle (fun id hid => hids id (by simp [hid])) h.2).bind <| .pure _

end

/-! ## Definitions of types -/

lemma total_declareType : Total p cx table (declareType id) := by
  refine (closed_typeName total_closed).bind <| total_program.bind fun {_} => ?_
  split <;> exact total_line

lemma total_defineStruct (h : ∀ m ∈ members, Concrete p table m.2) : Total p cx table (defineStruct name members) :=
  total_inBraces (.forM fun m hm => (total_typeText (h m hm)).bind <| total_line)

lemma total_definePayload
    (h : ∀ m ∈ members, Concrete p table m) : Total p cx table (definePayload name members) := by
  unfold definePayload
  split
  · exact total_line
  · refine total_defineStruct fun m hm => ?_
    obtain ⟨⟨member, i⟩, hmem, rfl⟩ := mem_map.1 hm
    exact h member (fst_mem_of_mem_zipIdx hmem)

lemma kind_of_concrete (hid : Concrete p table id) (hshape : table.shape id = .named decl name args) :
    (∃ s, (p.getDef decl).kind = .struct s) ∨ ∃ e, (p.getDef decl).kind = .enum e := by
  have hmakes := hid.makesType hshape
  simp only [Program.makesType] at hmakes
  split at hmakes
  · exact .inl ⟨_, ‹_›⟩
  · exact .inr ⟨_, ‹_›⟩
  · cases hmakes

lemma total_defineType (hle : p.types ≤ table) (hid : Concrete p table id)
    (hmembers : p.emittableType (table.shape id)) : Total p cx table (defineType id) := by
  refine total_types_bind fun now hnow => ?_
  rw [shape_eq_of_le hnow hid.holds]
  split
  · rename_i decl name args hshape
    rw [hshape] at hmembers
    refine (closed_typeName total_closed).bind fun {typeName} => ?_
    refine total_program_bind fun now => ?_
    rw [show ((p.withTypes now).getDef decl) = p.getDef decl from rfl]
    dsimp only
    rcases kind_of_concrete hid hshape with ⟨s, hkind⟩ | ⟨e, hkind⟩
    · rw [hkind]
      refine Emits.bind (emits_memberTypes hle hid hshape hmembers) fun now members hnow hmembers => ?_
      exact total_defineStruct fun m hm => hmembers.1 m.2 (of_mem_zip hm).2
    · rw [hkind]
      dsimp only
      split
      · exact total_inBraces (.forM fun _ _ => total_line)
      · refine .bind (.forM fun v _ => ?_) <| total_inBraces total_line
        refine Emits.bind (emits_memberTypes hle hid hshape hmembers) fun now members hnow hmembers => ?_
        exact total_definePayload hmembers.1
  · exact .pure ()

lemma total_valueDependencies : Total p cx table (valueDependencies id) :=
  total_program.bind <| .bind (emits_build (concreteGroups_le _ _)).total <|
    total_program.bind <| .pure _

/-- Concrete types with emittable members can be defined, in whatever order that takes. -/
lemma total_defineTypes (hle : p.types ≤ table)
    (hids : ∀ id ∈ ids, Concrete p table id ∧ p.emittableType (table.shape id)) :
    Total p cx table (defineTypes ids) := by
  refine .bind (.forM fun id _ => total_declareType) fun {_} => ?_
  have hdefinitions : Emits p cx table (ids.mapM definition) fun _ ds => ∀ d ∈ ds, d.id ∈ ids := by
    refine .mapM fun id hid => ?_
    refine .bind (closed_typeName total_closed) fun _ name _ _ => ?_
    exact .bind total_valueDependencies fun _ needs _ _ => .pure fun _ _ => hid
  refine Emits.bind hdefinitions fun now ds hnow hds => ?_
  refine Total.mono hnow (.forM fun d hd => total_blank.bind ?_)
  obtain ⟨hconcrete, hmembers⟩ := hids d.id (hds d (mem_of_mem_definitionOrder hd))
  exact total_defineType hle hconcrete hmembers

end Emission

end Kite
