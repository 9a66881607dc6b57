/-
Types that an implementation is for. A type is an instance of a target if it is the target with types in the place of
parameters. A target matches all of its instances, and what matches converts into an instance. So every implementation
that has a type as an instance takes part when a method of the type is looked up, together with those that the type only
converts into: this is `findMethod?_applies`. Two implementations of a trait are in conflict if the target of one
matches that of the other, which is not the same as a common instance: `checkImpl_conflict` says what it is.
-/
import Kite.Proofs.Instance.Satisfied

namespace Kite

open List Option TypeTable TypeShape

/-- The other bindings have these among them. -/
def Subst.Within (s s' : Subst) : Prop := ∀ id type, s.get? id = some type → s'.get? id = some type

namespace TypeTable

mutual

/-- A type is a pattern with the bindings put in. Parameters that are not bound stay. -/
inductive Instance (table : TypeTable) (σ : Subst) : TypeId → TypeId → Prop where
  | param {pattern : TypeId} {id : ParamId} (hp : table.shape pattern = .param id name) :
    Instance table σ pattern ((σ.get? id).getD pattern)
  | parts {pattern actual : TypeId} (hpattern : table.Holds pattern) (hactual : table.Holds actual)
    (hparam : ∀ id name, table.shape pattern ≠ .param id name)
    (hshape : table.shape actual = (table.shape pattern).withParts ids)
    (h : InstanceAll table σ (table.shape pattern).parts ids) : Instance table σ pattern actual

/-- One after the other. -/
inductive InstanceAll (table : TypeTable) (σ : Subst) : List TypeId → List TypeId → Prop where
  | nil : InstanceAll table σ [] []
  | cons {x y : TypeId} (h : Instance table σ x y) (h' : InstanceAll table σ xs ys) : InstanceAll table σ (x :: xs) (y :: ys)

end

variable {table : TypeTable} {pattern actual : TypeId} {s σ : Subst} {x y : StateM Subst Bool} {n : Nat}

lemma InstanceAll.length_eq : ∀ {xs ys}, InstanceAll table σ xs ys → ys.length = xs.length
  | _, _, .nil => rfl
  | _, _, .cons _ h' => congrArg Nat.succ h'.length_eq

/-- A computation succeeds from bindings that are among given ones, and makes no others. -/
def Accepts (σ : Subst) (x : StateM Subst Bool) : Prop :=
  ∀ s : Subst, s.Within σ → ∃ s' : Subst, x s = (true, s') ∧ s'.Within σ

lemma Accepts.true : Accepts σ (return true) := fun s hs => ⟨s, rfl, hs⟩

lemma Accepts.andThen (hx : Accepts σ x) (hy : Accepts σ y) : Accepts σ (do if ← x then y else return false) := by
  intro s hs
  obtain ⟨s', hrun, hs'⟩ := hx s hs
  rw [run_bind, hrun]
  exact hy s' hs'

lemma accepts_allM {f : TypeId → TypeId → StateM Subst Bool} : ∀ {xs ys},
    (∀ x ∈ xs.zip ys, Accepts σ (f x.1 x.2)) → Accepts σ (allM f xs ys)
  | [], _, _ | _ :: _, [], _ => .true
  | x :: xs, y :: ys, h => by
    rw [zip_cons_cons, forall_mem_cons] at h
    exact .andThen h.1 (accepts_allM h.2)

lemma accepts_parts (hpattern : table.Holds pattern) (hactual : table.Holds actual)
    (hparam : ∀ id name, table.shape pattern ≠ .param id name)
    (hshape : table.shape actual = (table.shape pattern).withParts ids)
    (hlength : ids.length = (table.shape pattern).parts.length)
    (h : ∀ x ∈ (table.shape pattern).parts.zip ids, Accepts σ (table.matchesFrom n x.1 x.2)) :
    Accepts σ (table.matchesFrom (n + 1) pattern actual) := by
  unfold matchesFrom matchStep
  split
  · exact .true
  rename_i hne
  have hleaf : (table.shape pattern).withParts ids ≠ table.shape pattern := by
    intro hsame
    rw [eq_of_shape_eq hactual hpattern (hshape.trans hsame)] at hne
    simp at hne
  rw [hshape]
  generalize table.shape pattern = p at *
  cases p with
  | param id name => exact absurd rfl (hparam id name)
  | named _ _ _ | tuple _ =>
    simp only [withParts, parts] at hlength h ⊢
    simpa [hlength] using accepts_allM h
  | vector _ | optional _ | view _ _ | raw _ =>
    obtain ⟨part, rfl⟩ := length_eq_one_iff.1 hlength
    simpa [withParts] using h
  | array _ _ =>
    obtain ⟨element, length, rfl⟩ := length_eq_two.1 hlength
    simp only [parts, zip_cons_cons, forall_mem_cons] at h
    exact .andThen h.1 h.2.1
  | function params result =>
    rcases eq_nil_or_concat ids with rfl | ⟨params', result', rfl⟩
    · simp at hlength
    have hparams : params.length = params'.length := by simpa using hlength.symm
    rw [parts, concat_eq_append, zip_append hparams] at h
    simp only [withParts, concat_eq_append, dropLast_concat, getLast?_concat, getD_some,
      hparams, beq_self_eq_true, if_true]
    exact .andThen (accepts_allM fun x hx => h x (by simp [hx])) (h (result, result') (by simp))
  | _ => exact absurd rfl hleaf

mutual

theorem Instance.accepts : ∀ {pattern actual}, Instance table σ pattern actual → ∀ n, pattern.index < n →
    Accepts σ (table.matchesFrom n pattern actual)
  | pattern, _, @Instance.param _ _ _ _ id hp, n + 1, _ => by
    unfold matchesFrom matchStep
    split
    · exact .true
    rename_i hne
    rw [hp]
    cases hbound : σ.get? id with
    | none => simp [hbound] at hne
    | some type =>
      intro s hs
      rw [getD_some]
      dsimp only
      rw [get_bind]
      cases hget : s.get? id with
      | none =>
        refine ⟨_, rfl, fun other bound h => ?_⟩
        rw [Subst.get?_cons] at h
        split at h
        · cases h
          exact ‹other = id› ▸ hbound
        · exact hs other bound h
      | some bound =>
        cases (hs id bound hget).symm.trans hbound
        refine ⟨s, ?_, hs⟩
        dsimp only
        rw [beq_self_eq_true]
        rfl
  | pattern, _, .parts hpattern hactual hparam hshape h, n + 1, hn => by
    refine accepts_parts hpattern hactual hparam hshape h.length_eq (h.accepts n fun part hpart => ?_)
    have := table.parts_shape_lt hpart
    omega

theorem InstanceAll.accepts : ∀ {xs ys}, InstanceAll table σ xs ys → ∀ n, (∀ x ∈ xs, x.index < n) →
    ∀ x ∈ xs.zip ys, Accepts σ (table.matchesFrom n x.1 x.2)
  | _, _, .nil, _, _ => by simp
  | _, _, .cons h h', n, hn => by
    rw [forall_mem_cons] at hn
    rw [zip_cons_cons, forall_mem_cons]
    exact ⟨h.accepts n hn.1, h'.accepts n hn.2⟩

end

lemma Instance.isSome_match? (h : Instance table σ pattern actual) : (table.match? pattern actual).isSome := by
  obtain ⟨s, hrun, _⟩ := h.accepts _ (Nat.lt_succ_self _) [] nofun
  unfold match? matchTypes
  rw [show (table.matchesFrom (pattern.index + 1) pattern actual).run [] = _ from hrun]
  rfl

lemma Instance.shape_eq (h : Instance table σ pattern actual) (hparam : ∀ id name, table.shape pattern ≠ .param id name) :
    ∃ ids, table.shape actual = (table.shape pattern).withParts ids := by
  cases h with
  | param hp => exact absurd hp (hparam _ _)
  | parts _ _ _ hshape _ => exact ⟨_, hshape⟩

mutual

theorem Matches.mentions {id : ParamId} : ∀ {pattern actual s s'}, Matches table pattern actual s s' →
    (s'.get? id).isSome → (s.get? id).isSome ∨ table.mentions [id] pattern
  | _, _, _, _, .same _, hget | _, _, _, _, .bound .., hget | _, _, _, _, .leaf .., hget => .inl hget
  | _, _, _, _, .new hp _, hget => by
    rw [Subst.get?_cons] at hget
    split at hget
    · exact .inr (mentions_iff.2 (.inl ⟨_, ‹id = _› ▸ hp⟩))
    · exact .inl hget
  | _, _, _, _, .optional hp h, hget =>
    (h.mentions hget).imp_right fun hin => mentions_iff.2 (.inr ⟨_, by simp [hp], hin⟩)
  | _, _, _, _, .parts _ _ h, hget => (h.mentions hget).imp_right fun hin => mentions_iff.2 (.inr hin)

theorem MatchesAll.mentions {id : ParamId} : ∀ {xs ys s s'}, MatchesAll table xs ys s s' →
    (s'.get? id).isSome → (s.get? id).isSome ∨ ∃ x ∈ xs, table.mentions [id] x
  | _, _, _, _, .nil, hget => .inl hget
  | _, _, _, _, .cons h h', hget => by
    rcases h'.mentions hget with hget | ⟨x, hx, hin⟩
    · exact (h.mentions hget).imp_right fun hin => ⟨_, mem_cons_self, hin⟩
    · exact .inr ⟨x, mem_cons_of_mem _ hx, hin⟩

end

lemma subst_tree_of_mentions {g : ParamId → Ty} {id : TypeId}
    (h : ∀ param, table.mentions [param] id → g param = .param param) : (table.tree id).subst g = table.tree id := by
  by_cases hparam : ∃ param name, table.shape id = .param param name
  · obtain ⟨param, name, hshape⟩ := hparam
    rw [tree_eq, hshape]
    exact h param (mentions_iff.2 (.inl ⟨name, hshape⟩))
  rw [tree_eq, treeOf_eq_ite fun param name hshape => hparam ⟨param, name, hshape⟩]
  split
  · rfl
  · rw [Ty.subst_node, List.map_map]
    refine congrArg _ (map_congr_left fun part hpart => ?_)
    have := table.parts_shape_lt hpart
    exact subst_tree_of_mentions fun param hmention => h param (mentions_iff.2 (.inr ⟨part, hpart, hmention⟩))
termination_by id.index

lemma converts_of_match? (hown : ∀ id, table.mentions [id] pattern → ¬ table.mentions [id] actual)
    (h : table.match? pattern actual = some s) :
    (table.tree actual).Converts ((table.tree pattern).subst (s.trees table)) := by
  have hmatches := finds_matchesFrom _ _ _ _ _ (match?_eq_some h)
  refine hmatches.converts (fun id type hget => by simp [Subst.trees, hget]) (subst_tree_of_mentions fun id hin => ?_)
  unfold Subst.trees
  cases hget : s.get? id with
  | none => rfl
  | some type =>
    rcases hmatches.mentions (show (s.get? id).isSome by simp [hget]) with hnil | hpattern
    · cases hnil
    · exact absurd hin (hown id hpattern)

end TypeTable

/-! ## Methods of a type -/

namespace Program

variable {p : Program} {name : String} {type : TypeId} {impl : ImplDef}

/-- An implementation has a method of that name, and its target has the type as an instance. -/
def HasMethodFor (p : Program) (name : String) (type : TypeId) (impl : ImplDef) : Prop :=
  (p.methodOf? impl name).isSome ∧ ∃ s, p.types.Instance s impl.target type

lemma isSome_offer? (hknown : p.types.isKnown type) (h : p.HasMethodFor name type impl) :
    (p.offer? name type impl).isSome := by
  obtain ⟨hmethod, s, hinstance⟩ := h
  obtain ⟨m, hm⟩ := isSome_iff_exists.1 hmethod
  obtain ⟨found, hfound⟩ := isSome_iff_exists.1 hinstance.isSome_match?
  have herror : ¬ impl.target == .error := by
    intro htarget
    rw [eq_of_beq htarget] at hinstance
    obtain ⟨_, hshape⟩ := hinstance.shape_eq (by simp [shape_error])
    rw [shape_error] at hshape
    rw [TypeTable.isKnown, TypeTable.any_eq, hshape] at hknown
    cases hknown
  have hoptional : ¬ ((p.types.optionalInner? impl.target).isSome && (p.types.optionalInner? type).isNone) := by
    unfold optionalInner?
    cases htarget : p.types.shape impl.target with
    | optional inner =>
      obtain ⟨_, hshape⟩ := hinstance.shape_eq (by simp [htarget])
      rw [hshape, htarget]
      simp [withParts]
    | _ => simp
  unfold offer? implBindings?
  rw [if_neg herror, if_neg hoptional, hfound, hm]
  rfl

lemma of_offer?_eq_some {m : DefId} (hknown : p.types.isKnown type) (h : p.offer? name type impl = some (m, s)) :
    p.methodOf? impl name = some m ∧
    (p.types.tree type).Converts ((p.types.tree impl.target).subst (s.trees p.types)) := by
  obtain ⟨bindings, hbindings, h⟩ := bind_eq_some_iff.1 h
  obtain ⟨method, hmethod, h⟩ := bind_eq_some_iff.1 h
  cases h
  refine ⟨hmethod, converts_of_match? (fun id _ hin => ?_) ?_⟩
  · cases (hasParams_of_isKnown hknown).symm.trans (hasParams_of_mentions hin)
  · unfold implBindings? at hbindings
    split at hbindings
    · cases hbindings
    · split at hbindings
      · cases hbindings
      · exact hbindings

lemma first_of_findSome?_filter {α β : Type} {l : List α} {q : α → Bool} {f : α → Option β} {b : β}
    (h : (l.filter q).findSome? f = some b) :
    ∃ before x after, l = before ++ x :: after ∧ q x ∧ f x = some b ∧ ∀ y ∈ before, q y → f y = none := by
  obtain ⟨_, x, _, hfilter, hx, hnone⟩ := findSome?_eq_some_iff.1 h
  obtain ⟨first, _, rfl, rfl, hrest⟩ := filter_eq_append_iff.1 hfilter
  obtain ⟨second, after, rfl, hout, hq, _⟩ := filter_eq_cons_iff.1 hrest
  refine ⟨first ++ second, x, after, by simp, hq, hx, fun y hy hqy => ?_⟩
  rcases mem_append.1 hy with hy | hy
  · exact hnone y (mem_filter.2 ⟨hy, hqy⟩)
  · exact absurd hqy (hout y hy)

theorem findMethod?_applies (hknown : p.types.isKnown type) :
    (∀ impl ∈ p.impls.toList, p.HasMethodFor name type impl → (p.findMethod? type name).isSome) ∧
    ∀ m s, p.findMethod? type name = some (m, s) → ∃ before impl after, p.impls.toList = before ++ impl :: after ∧
      p.methodOf? impl name = some m ∧
      (p.types.tree type).Converts ((p.types.tree impl.target).subst (s.trees p.types)) ∧
      (∀ other ∈ before, p.HasMethodFor name type other → other.traitDef.isSome ∧ impl.traitDef.isNone) ∧
      ∀ other ∈ after, p.HasMethodFor name type other → other.traitDef.isNone → impl.traitDef.isNone := by
  have hoffer {other : ImplDef} (h : p.HasMethodFor name type other) : p.offer? name type other ≠ none :=
    isSome_iff_ne_none.1 (isSome_offer? hknown h)
  rw [findMethod?_eq]
  constructor
  · intro impl himpl h
    rw [isSome_or, Bool.or_eq_true, findSome?_isSome_iff, findSome?_isSome_iff]
    cases htrait : impl.traitDef
    · exact .inl ⟨impl, mem_filter.2 ⟨himpl, by simp [htrait]⟩, isSome_offer? hknown h⟩
    · exact .inr ⟨impl, mem_filter.2 ⟨himpl, by simp [htrait]⟩, isSome_offer? hknown h⟩
  intro m s hfound
  rcases or_eq_some_iff.1 hfound with hown | ⟨hown, htraits⟩
  · obtain ⟨before, impl, after, himpls, hinherent, hsome, hnone⟩ := first_of_findSome?_filter hown
    obtain ⟨hmethod, hconverts⟩ := of_offer?_eq_some hknown hsome
    refine ⟨before, impl, after, himpls, hmethod, hconverts, fun other hother h => ⟨?_, hinherent⟩, fun _ _ _ _ => hinherent⟩
    by_contra htrait
    exact hoffer h (hnone other hother (by simpa using htrait))
  · obtain ⟨before, impl, after, himpls, _, hsome, hnone⟩ := first_of_findSome?_filter htraits
    obtain ⟨hmethod, hconverts⟩ := of_offer?_eq_some hknown hsome
    have hinherent {other : ImplDef} (hother : other ∈ p.impls.toList) (h : p.HasMethodFor name type other) :
        other.traitDef.isSome := by
      by_contra htrait
      exact hoffer h (findSome?_eq_none_iff.1 hown other (mem_filter.2 ⟨hother, by simpa using htrait⟩))
    refine ⟨before, impl, after, himpls, hmethod, hconverts, fun other hother h => ?_, fun other hother h htrait => ?_⟩
    · exact absurd (hnone other hother (hinherent (by simp [himpls, hother]) h)) (hoffer h)
    · have := hinherent (by simp [himpls, hother]) h
      simp [isNone_iff_eq_none.1 htrait] at this

/-- A method of the wider integers that is called for a narrow one. -/
def widerMethod : Check.Checker :=
  checkedAlone "impl i64 \x7b function get(this) -> bool => true; \x7d function f(b: i8) -> bool => b.get();"

set_option maxRecDepth 100000 in
/-- The method is found for `i8`, and its implementation is for `i64` only. -/
theorem wider_method_found : widerMethod.diagnostics.size = 0 ∧
    widerMethod.program.types.isKnown ⟨6⟩ ∧
    widerMethod.program.findMethod? ⟨6⟩ "get" = some (⟨1⟩, []) ∧
    widerMethod.program.impls.toList.map (·.target) = [⟨9⟩] := by
  decide +kernel

set_option maxRecDepth 100000 in
theorem findMethod?_applies_wider : widerMethod.program.types.isKnown ⟨6⟩ ∧
    ∃ impl ∈ widerMethod.program.impls.toList, (widerMethod.program.types.tree ⟨6⟩).Converts
      ((widerMethod.program.types.tree impl.target).subst (Subst.trees [] widerMethod.program.types)) := by
  have hknown : widerMethod.program.types.isKnown ⟨6⟩ := by decide +kernel
  have hfound : widerMethod.program.findMethod? ⟨6⟩ "get" = some (⟨1⟩, []) := by decide +kernel
  obtain ⟨_, impl, _, himpls, _, hconverts, _⟩ := (findMethod?_applies hknown).2 _ _ hfound
  exact ⟨hknown, impl, by simp [himpls], hconverts⟩

end Program

/-! ## Two implementations of a trait -/

namespace Check

variable {c : Checker} {index : Nat} {impl : ImplDef} {traitDef : DefId}

lemma converts_of_overlaps {a b : TypeId} (hown : ∀ id, table.mentions [id] a → ¬ table.mentions [id] b)
    (h : overlaps table a b) : ∃ s : Subst, (table.tree b).Converts ((table.tree a).subst (s.trees table)) ∨
    (table.tree a).Converts ((table.tree b).subst (s.trees table)) := by
  rw [overlaps, Bool.or_eq_true, isSome_iff_exists, isSome_iff_exists] at h
  rcases h with ⟨s, h⟩ | ⟨s, h⟩
  · exact ⟨s, .inl (converts_of_match? hown h)⟩
  · exact ⟨s, .inr (converts_of_match? (fun id hb ha => hown id ha hb) h)⟩

/-- Either an earlier implementation of the trait is reported, and one of the two targets converts into the other with
bindings put in, or the check goes on as if there were no earlier ones, and no target is an instance of the other. -/
theorem checkImpl_conflict (hown : ∀ other ∈ c.program.impls.toList.take index, ∀ id,
      c.program.types.mentions [id] other.target → ¬ c.program.types.mentions [id] impl.target) :
    (∃ other ∈ c.program.impls.toList.take index, other.traitDef = some traitDef ∧
      checkImpl index impl traitDef c = (do
        report impl.span (.conflictingImpls (c.program.defName traitDef) (c.program.types.display impl.target) other.span)
        checkImpl 0 impl traitDef) c ∧
      ∃ s : Subst, (c.program.types.tree impl.target).Converts
          ((c.program.types.tree other.target).subst (s.trees c.program.types)) ∨
        (c.program.types.tree other.target).Converts
          ((c.program.types.tree impl.target).subst (s.trees c.program.types))) ∨
    checkImpl index impl traitDef c = checkImpl 0 impl traitDef c ∧
      ∀ other ∈ c.program.impls.toList.take index, other.traitDef = some traitDef → ∀ s,
        ¬ c.program.types.Instance s other.target impl.target ∧ ¬ c.program.types.Instance s impl.target other.target := by
  cases hfind : (c.program.impls.toList.take index).find? fun other =>
    other.traitDef == some traitDef && overlaps c.program.types other.target impl.target with
  | some other =>
    have hother := mem_of_find?_eq_some hfind
    have hconflict := find?_some hfind
    rw [Bool.and_eq_true, beq_iff_eq] at hconflict
    refine .inl ⟨other, hother, hconflict.1, ?_, converts_of_overlaps (hown other hother) hconflict.2⟩
    rw [checkImpl, run_bind, run_program]
    dsimp only
    rw [hfind]
    dsimp only
    rw [run_bind, run_bind]
    generalize hreported : report _ _ c = reported
    have hprogram : program reported.2 = (c.program, reported.2) := hreported ▸ rfl
    rw [checkImpl, run_bind, hprogram]
    dsimp only
    rw [take_zero, find?_nil]
  | none =>
    refine .inr ⟨?_, fun other hother htrait s => ?_⟩
    · rw [checkImpl, checkImpl, run_bind, run_bind, run_program]
      dsimp only
      rw [hfind, take_zero, find?_nil]
    · have hnone := find?_eq_none.1 hfind other hother
      simp only [htrait, beq_self_eq_true, Bool.true_and, overlaps, Bool.or_eq_true, not_or] at hnone
      exact ⟨fun h => hnone.1 h.isSome_match?, fun h => hnone.2 h.isSome_match?⟩

/-- A trait with two implementations for `bool`. -/
def twiceOnBool : Checker :=
  checkedAlone <| "trait A \x7b function get(this) -> bool; \x7d "
    ++ "impl A for bool \x7b function get(this) -> bool => true; \x7d "
    ++ "impl A for bool \x7b function get(this) -> bool => false; \x7d"

def secondImpl (c : Checker) : ImplDef := (c.program.impls[1]?).getD default

set_option maxRecDepth 100000 in
/-- The second implementation is reported against the first. -/
theorem checkImpl_conflict_bool : twiceOnBool.diagnostics.size = 1 ∧
    ∃ other ∈ twiceOnBool.program.impls.toList.take 1, checkImpl 1 (secondImpl twiceOnBool) ⟨0⟩ twiceOnBool = (do
      report (secondImpl twiceOnBool).span (.conflictingImpls (twiceOnBool.program.defName ⟨0⟩)
        (twiceOnBool.program.types.display (secondImpl twiceOnBool).target) other.span)
      checkImpl 0 (secondImpl twiceOnBool) ⟨0⟩) twiceOnBool := by
  refine ⟨by decide +kernel, ?_⟩
  have hfound : (twiceOnBool.program.impls.toList.take 1).map (fun impl => (impl.traitDef, impl.target)) = [(some ⟨0⟩, .bool)] ∧
      (secondImpl twiceOnBool).target = .bool ∧ twiceOnBool.program.types.Holds .bool ∧
      twiceOnBool.program.types.shape .bool = .bool ∧ twiceOnBool.program.types.hasParams .bool = false := by
    decide +kernel
  generalize twiceOnBool = c at hfound ⊢
  obtain ⟨hfirst, htarget, hholds, hshape, hparams⟩ := hfound
  obtain ⟨first, hmem, hfirst⟩ := mem_map.1 (hfirst ▸ mem_cons_self)
  obtain ⟨htrait, hbool⟩ := Prod.mk.inj hfirst
  have hown : ∀ other ∈ c.program.impls.toList.take 1, ∀ id, c.program.types.mentions [id] other.target →
      ¬ c.program.types.mentions [id] (secondImpl c).target := by
    intro other _ id _ hmention
    rw [htarget] at hmention
    cases hparams.symm.trans (TypeTable.hasParams_of_mentions hmention)
  rcases checkImpl_conflict hown with ⟨other, hother, _, hrun, _⟩ | ⟨_, hnone⟩
  · exact ⟨other, hother, hrun⟩
  · have hinstance : c.program.types.Instance [] .bool .bool :=
      .parts hholds hholds (fun _ _ => by rw [hshape]; rintro ⟨⟩) (by rw [hshape]; rfl) (by rw [hshape]; exact .nil)
    have hnot := (hnone first hmem htrait []).1
    rw [hbool, htarget] at hnot
    exact absurd hinstance hnot

/-- Two implementations that are both for pairs of `bool`. -/
def crossed : Checker :=
  checkedAlone <| "trait A \x7b function get(this) -> bool; \x7d "
    ++ "impl<X> A for (X, bool) \x7b function get(this) -> bool => true; \x7d "
    ++ "impl<Y> A for (bool, Y) \x7b function get(this) -> bool => false; \x7d "
    ++ "function f(p: (bool, bool)) -> bool => p.get();"

set_option maxRecDepth 100000 in
/-- Both targets become the same pair, and nothing is reported; types without a common instance overlap. -/
theorem crossed_not_reported : crossed.diagnostics.size = 0 ∧
    crossed.program.impls.toList.map (fun impl => (impl.traitDef, impl.target)) = [(some ⟨0⟩, ⟨18⟩), (some ⟨0⟩, ⟨20⟩)] ∧
    (TypeM.subst [(⟨0⟩, .bool)] ⟨18⟩ crossed.program.types).1 = ⟨21⟩ ∧
    (TypeM.subst [(⟨1⟩, .bool)] ⟨20⟩ crossed.program.types).1 = ⟨21⟩ ∧
    crossed.program.types.shape ⟨21⟩ = .tuple [.bool, .bool] ∧ overlaps .initial ⟨9⟩ ⟨8⟩ := by
  decide +kernel

/-! ## Arguments -/

/-- A generic function that calls itself: its parameter meets itself without a binding, and is bound otherwise after. -/
def selfCall : Checker :=
  checkedAlone "function f<T>(a: T, b: T) \x7b f(a, 5); \x7d"

def blockCall : Typed.ExprKind → Option (List TypeId × List TypeId)
  | .block ⟨[.expr ⟨.call (.function _ generics) args, _, _⟩], _⟩ => some (generics, args.map (·.type))
  | _ => none

theorem selfCall_not_converts : hasErrors selfCall.diagnostics.toList = false ∧
    (((selfCall.program.function? ⟨0⟩).bind (·.body)).bind (blockCall ·.expr.kind)).map (fun x =>
      x.2.map (selfCall.program.types.coerces · (x.1.headD .error))) = some [false, true] := by
  decide +kernel

end Check

end Kite
