/-
The types that are emitted. What a definition needs is contained in its type, so in a program that was
checked without an error, and in which no way round leads through arguments, no type needs itself, and
every type is defined after all that it needs.
-/
import Mathlib.Data.List.Permutation
import Kite.Proofs.Check.Units
import Kite.Proofs.Emission.Members
import Kite.Proofs.Types.Containment

namespace Kite

open List TypeTable

variable {cx : Context} {decl : DefId} {id : TypeId} {entry : UnitId}

namespace Emission

variable {p q : Program}

/-! ## What a member holds -/

lemma isShared_of_named (h : q.types.shape id = .named decl name args) : q.isShared id = q.isClass decl := by
  have hstrip : q.types.stripViews id = id := by
    unfold TypeTable.stripViews
    rw [TypeTable.stripViewsFrom, h]
  unfold Program.isShared Program.declOf?
  rw [hstrip, h]
  rfl

lemma holds_heldByValueFrom : ∀ n type need, need ∈ heldByValueFrom q n type →
    Ty.Holds q.isClass (q.types.tree type) (q.types.tree need) ∧ q.types.Holds need
  | n + 1, type, need, h => by
    unfold heldByValueFrom at h
    rw [q.types.tree_eq type]
    cases hshape : q.types.shape type with
    | named decl name args =>
      rw [hshape] at h
      dsimp only at h
      rw [isShared_of_named hshape] at h
      split at h
      · cases h
      · rename_i hclass
        rw [mem_singleton.1 h, q.types.tree_eq type, hshape]
        exact ⟨.named (by simpa using hclass), holds_of_shape (by rw [hshape]; nofun)⟩
    | optional inner =>
      rw [hshape] at h
      obtain ⟨hholds, hneed⟩ := holds_heldByValueFrom n inner need h
      exact ⟨.optional (.head _) hholds, hneed⟩
    | array element length =>
      rw [hshape] at h
      obtain ⟨hholds, hneed⟩ := holds_heldByValueFrom n element need h
      exact ⟨.element hholds, hneed⟩
    | tuple items =>
      rw [hshape] at h
      obtain ⟨item, hitem, h⟩ := mem_flatMap.1 h
      obtain ⟨hholds, hneed⟩ := holds_heldByValueFrom n item need h
      cases items with
      | nil => cases hitem
      | cons first rest => exact ⟨.tuple (mem_map_of_mem hitem) hholds, hneed⟩
    | _ =>
      rw [hshape] at h
      cases h

/-! ## What a type needs -/

lemma holds_of_mem_memberGroups (hheld : p.ContentsHeld) {member : TypeId}
    (h : member ∈ (p.memberGroups decl).2.flatten) : p.types.Holds member := by
  have hcontents := hheld decl
  unfold Program.contents? at hcontents
  unfold Program.memberGroups at h
  cases hkind : (p.getDef decl).kind with
  | struct s =>
    rw [hkind] at h hcontents
    exact (hcontents _ rfl).members member (by simpa using h)
  | «enum» e =>
    rw [hkind] at h hcontents
    exact (hcontents _ rfl).members member (by simpa [List.flatMap] using h)
  | _ =>
    rw [hkind] at h
    cases h

lemma concreteGroups_trees (hheld : p.ContentsHeld) (hle : p.types ≤ q.types)
    (hgroups : q.memberGroups = p.memberGroups)
    (hshape : q.types.shape id = .named decl name args) :
    ∀ member ∈ (q.concreteGroups id q.types).1.flatten, ∃ declared ∈ (p.memberGroups decl).2.flatten,
      (q.concreteGroups id q.types).2.tree member =
        (p.types.tree declared).subst (.bindOpen (p.memberGroups decl).1 (args.map q.types.tree)) := by
  have htrees := concreteGroups_makes hle hshape (fun _ => holds_of_mem_memberGroups hheld) (congrFun hgroups decl) le_rfl
  have hflat := congrArg List.flatten htrees
  rw [← map_flatten, ← map_flatten] at hflat
  intro member hmember
  have htree : (q.concreteGroups id q.types).2.tree member ∈ _ := mem_map_of_mem hmember
  rw [hflat] at htree
  obtain ⟨declared, hdeclared, heq⟩ := mem_map.1 htree
  exact ⟨declared, hdeclared, heq.symm⟩

lemma contains_of_needs (hheld : p.ContentsHeld) (hle : p.types ≤ q.types)
    (hgroups : q.memberGroups = p.memberGroups) (hclass : q.isClass = p.isClass) {id need : TypeId}
    (hneed : need ∈ (q.concreteGroups id q.types).1.flatten.flatMap
      (heldByValue { q with types := (q.concreteGroups id q.types).2 })) :
    q.types.Holds id ∧ (q.concreteGroups id q.types).2.Holds need ∧
      p.Contains (q.types.tree id) ((q.concreteGroups id q.types).2.tree need) := by
  obtain ⟨member, hmember, hneed⟩ := mem_flatMap.1 hneed
  obtain ⟨hholds, hthere⟩ := holds_heldByValueFrom _ member need hneed
  cases hshape : q.types.shape id with
  | named decl name args =>
    obtain ⟨declared, hdeclared, htree⟩ := concreteGroups_trees hheld hle hgroups hshape member hmember
    refine ⟨holds_of_shape (by rw [hshape]; nofun), hthere, decl, args.map q.types.tree, ?_, declared, hdeclared, ?_⟩
    · rw [q.types.tree_eq id, hshape]
      rfl
    · rw [← htree, ← hclass]
      exact hholds
  | _ =>
    unfold Program.concreteGroups at hmember
    rw [get_bind, hshape] at hmember
    cases hmember

/-! ## Definitions -/

def withMembers (s : Emitter) (id : TypeId) : Emitter :=
  { s with program := { s.program with types := (s.program.concreteGroups id s.program.types).2 } }

lemma definition_run : ∃ d, definition id cx s = .ok (d, withMembers s id) ∧
    d.id = id ∧ d.needs = (s.program.concreteGroups id s.program.types).1.flatten.flatMap
      (heldByValue (withMembers s id).program) :=
  ⟨_, rfl, rfl, rfl⟩

lemma definitions_run (hheld : p.ContentsHeld) : ∀ (ids : List TypeId) (s : Emitter),
    s.program = p.withTypes s.program.types → p.types ≤ s.program.types →
      ∃ ds s', ids.mapM definition cx s = .ok (ds, s') ∧ s.program.types ≤ s'.program.types ∧
        ds.map (·.id) = ids ∧ ∀ d ∈ ds, ∀ need ∈ d.needs,
          p.Contains (s'.program.types.tree d.id) (s'.program.types.tree need)
  | [], s, _, _ => ⟨[], s, rfl, le_rfl, rfl, nofun⟩
  | id :: ids, s, hprogram, hle => by
    obtain ⟨d, hrun, hid, hneeds⟩ := definition_run
    have hmore : s.program.types ≤ (withMembers s id).program.types := concreteGroups_le _ _ _
    have hprogram' : (withMembers s id).program = p.withTypes (withMembers s id).program.types := by
      unfold withMembers
      rw [hprogram]
      rfl
    obtain ⟨ds, s', hruns, hlast, hids, hall⟩ :=
      definitions_run hheld ids (withMembers s id) hprogram' (hle.trans hmore)
    refine ⟨d :: ds, s', ?_, hmore.trans hlast, by rw [map_cons, hid, hids],
      forall_mem_cons.2 ⟨fun need hneed => ?_, hall⟩⟩
    · have hcons : (id :: ids).mapM definition cx s = (definition id cx s >>= fun first =>
          ids.mapM definition cx first.2 >>= fun rest => .ok (first.1 :: rest.1, rest.2)) := by
        rw [mapM_cons]
        rfl
      rw [hcons, hrun]
      show (ids.mapM definition cx (withMembers s id) >>= _) = _
      rw [hruns]
      rfl
    · rw [hneeds] at hneed
      have hgroups : s.program.memberGroups = p.memberGroups := by rw [hprogram]; rfl
      have hclass : s.program.isClass = p.isClass := by rw [hprogram]; rfl
      obtain ⟨hthere, hneeded, hcontains⟩ := contains_of_needs hheld hle hgroups hclass hneed
      rw [hid, tree_eq_of_le (hmore.trans hlast) id hthere, tree_eq_of_le hlast need hneeded]
      exact hcontains

/-! ## Types that were found -/

lemma collectInstances_types (h : collectInstances p entry = some (instances, q)) :
    q = p.withTypes q.types ∧ p.types ≤ q.types ∧ instances.types.Nodup := by
  obtain ⟨bound, _, rfl, -, rfl, rfl⟩ := collectInstances_ended h
  have hgrows : Instance.Grows _ (Instance.search bound { program := p, naming := { entry } }).2 :=
    Instance.finds_search { program := p, naming := { entry } }
  exact ⟨hgrows.program, hgrows.le, Instance.Search.perm_types.nodup_iff.2 (hgrows.nodup .nil)⟩

def Needs (ds : List Definition) (id need : TypeId) : Prop := ∃ d ∈ ds, d.id = id ∧ need ∈ d.needs

/-- If a program was checked without an error, and no way round leads through arguments, then the types
that were found can be put down for their definitions, none of them needs itself through others, and
each is defined once, before all that need it. -/
theorem defined_after_needs {units : List LoadedUnit} {order : List Nat} {limits : EvalLimits} {z : Sizing}
    {entry : UnitId} {instances : Instances}
    (hclean : hasErrors (checkInOrder units order limits).diagnostics.toList = false)
    (hfits : z.fits (checkInOrder units order limits).program = true)
    (hrun : collectInstances (checkInOrder units order limits).program entry = some (instances, q))
    (cx : Context) (out : Writer) (temps : Nat) :
    ∃ ds s, instances.types.mapM definition cx { program := q, out, temps } = .ok (ds, s) ∧
      ds.map (·.id) = instances.types ∧ (∀ id, ¬ Relation.TransGen (Needs ds) id id) ∧
      (definitionOrder ds).Perm ds ∧ (definitionOrder ds).Pairwise fun d e => e.id ∉ d.needs := by
  obtain ⟨hheld, hfinite⟩ := Check.finite_checkInOrder hclean
  obtain ⟨hprogram, hle, hnodup⟩ := collectInstances_types hrun
  obtain ⟨ds, s, hds, -, hids, hneeds⟩ := definitions_run hheld instances.types
    { program := q, out, temps } hprogram hle
  have hwf := InvImage.wf s.program.types.tree (wellFounded_contains hfits (Program.wellFounded_held hfinite))
  refine ⟨ds, s, hds, hids, fun id hcycle => ?_, ?_⟩
  · have hcontains := Relation.TransGen.mono
      (fun a b ⟨d, hd, hid, hb⟩ => hid ▸ hneeds d hd b hb : ∀ a b, Needs ds a b →
        Program.Contains _ (s.program.types.tree a) (s.program.types.tree b)) id id hcycle
    exact hwf.transGen.irrefl.irrefl id (Relation.TransGen.swap id id hcontains)
  · exact (order_takes_all (hids ▸ hnodup) hwf fun d hd e _ hneed _ => hneeds d hd e.id hneed).2

/-! ## Nested arguments -/

def nested : Check.Checker :=
  checkedAlone <| "struct P<T> \x7b x: T, y: T? \x7d struct Q \x7b p: P<i64>, n: [P<P<i64>>; 2] \x7d " ++
  "enum E \x7b A((Q, bool)), B \x7d function f(e: E) \x7b \x7d"

/-- Each declaration above those it names, with the values of all arguments. -/
def nestedSizing : Sizing where
  rank decl := decl.index
  carries _ _ := true

set_option maxRecDepth 100000

lemma nested_fits : hasErrors nested.diagnostics.toList = false ∧
    nestedSizing.fits nested.program ∧
    (firstSearch nested.program ⟨0⟩).exhausted = false ∧
    (firstSearch nested.program ⟨0⟩).types.length = 4 := by
  decide +kernel

theorem defined_after_needs_nested : ∃ instances q ds s,
    collectInstances nested.program ⟨0⟩ = some (instances, q) ∧
      instances.types.length = 4 ∧
      instances.types.mapM definition { naming := { entry := ⟨0⟩ } } { program := q } = .ok (ds, s) ∧
      ds.map (·.id) = instances.types ∧ (∀ id, ¬ Relation.TransGen (Needs ds) id id) ∧
      (definitionOrder ds).Perm ds ∧ (definitionOrder ds).Pairwise fun d e => e.id ∉ d.needs := by
  obtain ⟨hclean, hfits, hends, hlength⟩ := nested_fits
  have hrun := collectInstances_of_first hends
  obtain ⟨ds, s, h⟩ := defined_after_needs hclean hfits hrun { naming := { entry := ⟨0⟩ } } {} 0
  exact ⟨_, _, ds, s, hrun, Instance.Search.perm_types.length_eq.trans hlength, h⟩

/-- A type that holds its own argument, which holds it. -/
def leadingBack : Check.Checker := checkedAlone "struct A<T> \x7b x: T \x7d struct B \x7b a: A<B> \x7d function f(b: B) \x7b \x7d"

/-- Whether two of the types need each other. -/
def needEachOther (q : Program) (ids : List TypeId) : Bool :=
  match ids.mapM definition { naming := { entry := ⟨0⟩ } } { program := q } with
  | .ok (ds, _) => ds.any fun d => ds.any fun e => d.needs.contains e.id && e.needs.contains d.id
  | .error _ => false

lemma exists_cycle_of_needEachOther (h : needEachOther q ids) :
    ∃ ds s id, ids.mapM definition { naming := { entry := ⟨0⟩ } } { program := q } = .ok (ds, s) ∧
      Relation.TransGen (Needs ds) id id := by
  unfold needEachOther at h
  split at h
  · rename_i ds s hds
    simp only [any_eq_true, Bool.and_eq_true, contains_iff_mem] at h
    obtain ⟨d, hd, e, he, hneeds, hback⟩ := h
    exact ⟨ds, s, d.id, hds, .tail (.single ⟨d, hd, rfl, hneeds⟩) ⟨e, he, rfl, hback⟩⟩
  · cases h

lemma leadingBackSource_needs :
    hasErrors leadingBack.diagnostics.toList = false ∧
    (firstSearch leadingBack.program ⟨0⟩).exhausted = false ∧
    ∀ ids ∈ (firstSearch leadingBack.program ⟨0⟩).types.permutations',
    needEachOther (firstSearch leadingBack.program ⟨0⟩).program ids := by
  decide +kernel

/-- Without a sizing a program without errors can have types that need each other. -/
theorem argument_leads_back :
    hasErrors leadingBack.diagnostics.toList = false ∧
      ∃ instances q ds s id,
        collectInstances leadingBack.program ⟨0⟩ = some (instances, q) ∧
        instances.types.mapM definition { naming := { entry := ⟨0⟩ } } { program := q } = .ok (ds, s) ∧
        Relation.TransGen (Needs ds) id id := by
  obtain ⟨hclean, hends, hneeds⟩ := leadingBackSource_needs
  have hcyclic := hneeds _ (mem_permutations'.2 Instance.Search.perm_types)
  obtain ⟨ds, s, id, hcycle⟩ := exists_cycle_of_needEachOther hcyclic
  exact ⟨hclean, _, _, ds, s, id, collectInstances_of_first hends, hcycle⟩

end Emission

end Kite
