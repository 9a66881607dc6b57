/-
Matching types. `Matches` says how a pattern comes to accept a type: which parts are matched with each other, and
what is bound on the way. Every parameter of the pattern is bound afterwards, unless it occurs in the matched type
too, and that type converts into the pattern with the bindings put in.
-/
import Kite.Proofs.Types.Growth

namespace Kite

open List

/-- Coercion of types that goes into their parts. -/
inductive Ty.Converts : Ty → Ty → Prop where
  | refl (t : Ty) : Converts t t
  | never (u : Ty) : Converts .never u
  | fromError (u : Ty) : Converts .error u
  | toError (t : Ty) : Converts t .error
  | int {a b : IntTy} (h : a.widensTo b) : Converts (.int a) (.int b)
  | float : Converts (.node (.float .f32) []) (.node (.float .f64) [])
  | some {t u : Ty} (h : Converts t u) : Converts t (.node .optional [u])
  | parts {head head' : TyHead} {ts us : List Ty}
    (hhead : head' = head ∨ head' = .view false ∧ head = .view true) (hlength : us.length = ts.length)
    (h : ∀ x ∈ us.zip ts, Converts x.2 x.1) : Converts (.node head ts) (.node head' us)

namespace TypeTable

mutual

/-- How a pattern matches a type, with the bindings before and after. -/
inductive Matches (table : TypeTable) : TypeId → TypeId → Subst → Subst → Prop where
  | same (h : pattern == actual || actual.isAbsorbing || pattern == .error) : Matches table pattern actual s s
  | bound (hp : table.shape pattern = .param param name) (hget : s.get? param = some type)
    (h : type == actual || table.coerces actual type) : Matches table pattern actual s s
  | new (hp : table.shape pattern = .param param name) (hget : s.get? param = none) :
    Matches table pattern actual s ((param, actual) :: s)
  | optional {inner : TypeId} (hp : table.shape pattern = .optional inner) (h : Matches table inner actual s s') :
    Matches table pattern actual s s'
  | leaf (hp : (table.shape pattern).parts = []) (hparam : ∀ id name, table.shape pattern ≠ .param id name)
    (h : table.coerces actual pattern) : Matches table pattern actual s s
  /-- A mutable view matches a plain one. -/
  | parts (hparam : ∀ id name, table.shape pattern ≠ .param id name ∧ table.shape actual ≠ .param id name)
    (hhead : (table.shape pattern).head = (table.shape actual).head ∨
      (table.shape pattern).head = .view false ∧ (table.shape actual).head = .view true)
    (h : MatchesAll table (table.shape pattern).parts (table.shape actual).parts s s') :
    Matches table pattern actual s s'

/-- One after the other. -/
inductive MatchesAll (table : TypeTable) : List TypeId → List TypeId → Subst → Subst → Prop where
  | nil : MatchesAll table [] [] s s
  | cons (h : Matches table x y s s') (h' : MatchesAll table xs ys s' s'') : MatchesAll table (x :: xs) (y :: ys) s s''

end

variable {table : TypeTable} {pattern actual part : TypeId} {s s' s'' : Subst} {id : ParamId} {x : StateM Subst Bool}

lemma MatchesAll.snoc {x y : TypeId} : ∀ {xs ys s}, MatchesAll table xs ys s s' →
    Matches table x y s' s'' → MatchesAll table (xs ++ [x]) (ys ++ [y]) s s''
  | _, _, _, .nil, hlast => .cons hlast .nil
  | _, _, _, .cons h h', hlast => .cons h (h'.snoc hlast)

lemma MatchesAll.length_eq : ∀ {xs ys s}, MatchesAll table xs ys s s' → xs.length = ys.length
  | _, _, _, .nil => rfl
  | _, _, _, .cons _ h' => congrArg Nat.succ h'.length_eq

lemma parts_of_coerces (hne : ¬ (pattern == actual || actual.isAbsorbing || pattern == .error))
    (hoptional : ∀ inner, table.shape pattern ≠ .optional inner)
    (hview : ∀ m m' inner inner', table.shape pattern = .view m inner → table.shape actual ≠ .view m' inner')
    (h : table.coerces actual pattern) : (table.shape pattern).parts = [] := by
  simp only [Bool.or_eq_true, not_or, Bool.not_eq_true] at hne
  obtain ⟨⟨hne, habsorbing⟩, herror⟩ := hne
  rw [coerces, coercesFrom, coercesStep, BEq.comm, hne, habsorbing, herror] at h
  split at h
  all_goals simp_all

lemma andThen_run (h : (do if ← x then y else return false) s = (true, s'')) :
    ∃ s', x s = (true, s') ∧ y s' = (true, s'') := by
  change (if (x s).1 then y else Pure.pure false) (x s).2 = _ at h
  rcases hx : x s with ⟨_ | _, s'⟩ <;> rw [hx] at h
  · cases h
  · exact ⟨s', rfl, h⟩

lemma matchesAll_of_run {f : TypeId → TypeId → StateM Subst Bool}
    (hf : ∀ x y s s', f x y s = (true, s') → Matches table x y s s') : ∀ {xs ys s},
    xs.length = ys.length → allM f xs ys s = (true, s') → MatchesAll table xs ys s s'
  | [], [], _, _, h => by
    cases h
    exact .nil
  | x :: xs, y :: ys, _, hlength, h => by
    obtain ⟨_, hfirst, hrest⟩ := andThen_run h
    exact .cons (hf _ _ _ _ hfirst) (matchesAll_of_run hf (Nat.succ.inj hlength) hrest)

/-- Where a computation succeeds, the pattern matches. -/
def Finds (table : TypeTable) (pattern actual : TypeId) (x : StateM Subst Bool) : Prop :=
  ∀ s s', x s = (true, s') → Matches table pattern actual s s'

lemma Finds.ite [Decidable c] (h : c → table.Finds pattern actual x) :
    table.Finds pattern actual (if c then x else return false) := by
  split
  · exact h ‹_›
  · rintro _ _ ⟨⟩

lemma Finds.parts {p a : TypeShape} (hp : table.shape pattern = p)
    (ha : table.shape actual = a) (hparam : ∀ id name, p ≠ .param id name ∧ a ≠ .param id name)
    (hhead : p.head = a.head ∨ p.head = .view false ∧ a.head = .view true)
    (h : ∀ s s', x s = (true, s') → MatchesAll table p.parts a.parts s s') : table.Finds pattern actual x :=
  fun s s' hx => .parts (hp ▸ ha ▸ hparam) (hp ▸ ha ▸ hhead) (hp ▸ ha ▸ h s s' hx)

lemma finds_matchesFrom : ∀ n pattern actual, table.Finds pattern actual (table.matchesFrom n pattern actual) := by
  intro n
  induction n with
  | zero => exact fun _ _ _ _ h => by cases h
  | succ n ih =>
    intro pattern actual
    unfold matchesFrom matchStep
    split
    · rintro s _ ⟨⟩
      exact .same ‹_›
    rename_i hne
    split
    case h_1 param name hp =>
      intro s s' h
      rw [get_bind] at h
      cases hget : s.get? param <;> rw [hget] at h
      · cases h
        exact .new hp hget
      · injection h with h hs
        exact hs ▸ .bound hp hget h
    case h_5 inner hp hactual => exact fun s s' h => .optional hp (ih _ _ _ _ h)
    case h_11 hparam hoptional _ _ _ _ hview _ _ _ =>
      intro s s' h
      injection h with h hs
      exact hs ▸ .leaf (parts_of_coerces hne hoptional (fun _ _ _ _ => hview _ _ _ _) h) hparam h
    all_goals rename_i hp ht
    case h_3 | h_4 | h_6 => exact .parts hp ht (by simp) (.inl rfl) fun s s' h => .cons (ih _ _ _ _ h) .nil
    case h_8 =>
      refine .parts hp ht (by simp) (.inl rfl) fun s s' h => ?_
      obtain ⟨_, helement, hlength⟩ := andThen_run h
      exact .cons (ih _ _ _ _ helement) (.cons (ih _ _ _ _ hlength) .nil)
    all_goals refine .ite fun hsame => .parts hp ht (by simp) ?_ fun s s' h => ?_
    case h_2.refine_1 => simp_all [TypeShape.head]
    case h_7.refine_1 pm _ tm _ => cases pm <;> cases tm <;> simp_all [TypeShape.head]
    case h_9.refine_1 | h_10.refine_1 => exact .inl rfl
    · exact matchesAll_of_run ih (eq_of_beq (Bool.and_eq_true_iff.1 hsame).2) h
    · exact .cons (ih _ _ _ _ h) .nil
    · exact matchesAll_of_run ih (eq_of_beq hsame) h
    · obtain ⟨_, hparams, hresult⟩ := andThen_run h
      exact (matchesAll_of_run ih (eq_of_beq hsame) hparams).snoc (ih _ _ _ _ hresult)

/-! ## Bindings -/

/-- Whether a type is fully known: no parameter occurs in it, and nothing that fits everywhere. -/
def isKnown (table : TypeTable) (id : TypeId) : Bool :=
  !table.any (fun | .param .. | .error | .never => true | _ => false) id

/-- Whether a type that fits everywhere occurs in the type. -/
def hasAbsorbing (table : TypeTable) (id : TypeId) : Bool := table.any (fun | .error | .never => true | _ => false) id

variable {f : TypeShape → Bool}

lemma any_of_isKnown (hf : ∀ shape, f shape → shape = .error ∨ shape = .never ∨ shape.isParam)
    (h : table.isKnown actual) : table.any f actual = false := by
  refine Bool.eq_false_iff.2 fun hany => ?_
  rw [isKnown, any_mono (fun shape hshape => ?_) hany] at h
  · cases h
  · rcases hf shape hshape with rfl | rfl | hparam
    · rfl
    · rfl
    · cases shape <;> first | rfl | cases hparam

lemma hasParams_of_isKnown (h : table.isKnown actual) : table.hasParams actual = false :=
  any_of_isKnown (fun _ h => .inr (.inr h)) h

lemma hasAbsorbing_of_isKnown (h : table.isKnown actual) : table.hasAbsorbing actual = false :=
  any_of_isKnown (fun shape h => by cases shape <;> first | exact .inl rfl | exact .inr (.inl rfl) | cases h) h

lemma hasParams_of_mentions (h : table.mentions [id] actual) : table.hasParams actual :=
  any_mono (fun shape h => by cases shape <;> first | rfl | cases h) h

lemma containsError_of_isKnown (h : table.isKnown actual) : table.containsError actual = false :=
  any_of_isKnown (fun _ h => .inl (eq_of_beq h)) h

/-! ## Bindings stay -/

mutual

theorem Matches.keeps {type : TypeId} : ∀ {pattern actual s s'}, Matches table pattern actual s s' →
    s.get? id = some type → s'.get? id = some type
  | _, _, _, _, .same _, hget | _, _, _, _, .bound .., hget | _, _, _, _, .leaf .., hget => hget
  | _, _, _, _, .new _ hnone, hget => by
    rw [Subst.get?_cons, if_neg, hget]
    rintro rfl
    cases hnone.symm.trans hget
  | _, _, _, _, .optional _ h, hget => h.keeps hget
  | _, _, _, _, .parts _ _ h, hget => h.keeps hget

theorem MatchesAll.keeps {type : TypeId} : ∀ {xs ys s s'}, MatchesAll table xs ys s s' →
    s.get? id = some type → s'.get? id = some type
  | _, _, _, _, .nil, hget => hget
  | _, _, _, _, .cons h h', hget => h'.keeps (h.keeps hget)

end

lemma shape_never : table.shape .never = .never := shape_fixed (i := 2) (by decide)

lemma not_isAbsorbing (h : table.hasAbsorbing actual = false) : actual.isAbsorbing = false := by
  refine Bool.eq_false_iff.2 fun habsorbing => ?_
  rw [TypeId.isAbsorbing, Bool.or_eq_true, beq_iff_eq, beq_iff_eq] at habsorbing
  rcases habsorbing with rfl | rfl <;> rw [hasAbsorbing, any_eq] at h
  · simp [shape_error] at h
  · simp [shape_never] at h

mutual

/-- A match with a type in which nothing fits everywhere binds what does not occur in that type. -/
theorem Matches.binds : ∀ {pattern actual s s'},
    Matches table pattern actual s s' → table.hasAbsorbing actual = false → table.mentions [id] pattern →
      ¬ table.mentions [id] actual → (s'.get? id).isSome
  | _, _, _, _, .same h, hactual, hin, hout => by
    simp only [not_isAbsorbing hactual, Bool.or_false, Bool.or_eq_true, beq_iff_eq] at h
    rcases h with rfl | rfl
    · exact absurd hin hout
    · rcases mentions_iff.1 hin with ⟨_, h⟩ | ⟨_, h, _⟩ <;> rw [shape_error] at h <;> cases h
  | _, _, _, _, .bound hp hget _, _, hin, _ => by
    rcases mentions_iff.1 hin with ⟨_, h⟩ | ⟨_, h, _⟩ <;> rw [hp] at h <;> cases h
    exact Option.isSome_of_eq_some hget
  | _, _, _, _, .new hp _, _, hin, _ => by
    rcases mentions_iff.1 hin with ⟨_, h⟩ | ⟨_, h, _⟩ <;> rw [hp] at h <;> cases h
    simp [Subst.get?_cons]
  | _, _, _, _, .optional hp h, hactual, hin, hout => by
    refine h.binds hactual ?_ hout
    rcases mentions_iff.1 hin with ⟨_, h⟩ | ⟨_, h, hin⟩ <;> rw [hp] at h
    · cases h
    · rwa [← mem_singleton.1 h]
  | _, _, _, _, .leaf hp hparam _, _, hin, _ => by
    rcases mentions_iff.1 hin with ⟨_, h⟩ | ⟨_, h, _⟩
    · exact absurd h (hparam _ _)
    · rw [hp] at h
      cases h
  | _, _, _, _, .parts hparam _ h, hactual, hin, hout => by
    refine h.binds (fun y => any_part hactual) ?_ fun y hy hmention => hout (mentions_iff.2 (.inr ⟨y, hy, hmention⟩))
    exact (mentions_iff.1 hin).resolve_left fun ⟨name, h⟩ => (hparam id name).1 h

theorem MatchesAll.binds : ∀ {xs ys s s'},
    MatchesAll table xs ys s s' → (∀ y ∈ ys, table.hasAbsorbing y = false) → (∃ x ∈ xs, table.mentions [id] x) →
      (∀ y ∈ ys, ¬ table.mentions [id] y) → (s'.get? id).isSome
  | _, _, _, _, .nil, _, hin, _ => by simp at hin
  | _, _, _, _, .cons h h', hactual, hin, hout => by
    rw [forall_mem_cons] at hactual hout
    simp only [mem_cons, exists_eq_or_imp] at hin
    rcases hin with hin | hin
    · obtain ⟨type, htype⟩ := Option.isSome_iff_exists.1 (h.binds hactual.1 hin hout.1)
      exact Option.isSome_of_eq_some (h'.keeps htype)
    · exact h'.binds hactual.2 hin hout.2

end

lemma match?_eq_some (h : table.match? pattern actual = some s) :
    (table.matchTypes pattern actual).run [] = (true, s) := by
  unfold match? at h
  split at h
  · cases h
    assumption
  · cases h

lemma holds_of_isKnown (h : table.isKnown actual) : table.Holds actual := by
  refine holds_of_shape fun herror => ?_
  rw [isKnown, any_eq, herror] at h
  cases h

lemma isKnown_part (h : table.isKnown actual) (hpart : part ∈ (table.shape actual).parts) : table.isKnown part :=
  Bool.not_eq_true' _ ▸ any_part (Bool.not_eq_true' _ ▸ h) hpart

lemma match?_binds (hknown : table.isKnown actual) (h : table.match? pattern actual = some s) :
    (∀ id type, s.get? id = some type → table.hasParams type = false) ∧
      ∀ id, table.mentions [id] pattern → (s.get? id).isSome := by
  have hrun := match?_eq_some h
  have hin := @matchTypes_in [] table pattern actual (table.isKnown ·) (fun _ h => ⟨holds_of_isKnown h, fun _ => isKnown_part h⟩)
    hknown fun _ _ h => by cases h
  rw [hrun] at hin
  refine ⟨fun id type hget => hasParams_of_isKnown (hin id type hget), fun id hid => ?_⟩
  refine (finds_matchesFrom _ _ _ _ _ hrun).binds (hasAbsorbing_of_isKnown hknown) hid fun hmention => ?_
  cases (hasParams_of_isKnown hknown).symm.trans (hasParams_of_mentions hmention)

/-- A successful match keeps all bindings, and binds every parameter of the pattern that does not occur in the matched
type as well. -/
theorem matchTypes_binds (hactual : table.hasAbsorbing actual = false)
    (h : (table.matchTypes pattern actual).run s = (true, s')) :
    (∀ id type, s.get? id = some type → s'.get? id = some type) ∧
      ∀ id, table.mentions [id] pattern → table.mentions [id] actual = false → (s'.get? id).isSome := by
  have hmatches := finds_matchesFrom _ _ _ _ _ h
  exact ⟨fun _ _ => hmatches.keeps, fun _ hin hout => hmatches.binds hactual hin (by simp [hout])⟩

/-- A parameter, the pair of it with itself and a pair of integers, with their table. -/
def pairs : (TypeId × TypeId × TypeId) × TypeTable :=
  (do
    let param ← TypeM.intern (.param ⟨0⟩ "T")
    return (param, ← TypeM.tuple [param, param], ← TypeM.tuple [⟨9⟩, ⟨8⟩])) initial

theorem matchTypes_binds_pair : pairs.2.hasAbsorbing pairs.1.2.2 = false ∧
    (pairs.2.matchTypes pairs.1.2.1 pairs.1.2.2).run [] = (true, [(⟨0⟩, ⟨9⟩)]) ∧
    ∃ type, Subst.get? [(⟨0⟩, ⟨9⟩)] ⟨0⟩ = some type := by
  have hactual : pairs.2.hasAbsorbing pairs.1.2.2 = false := by decide +kernel
  have hrun : (pairs.2.matchTypes pairs.1.2.1 pairs.1.2.2).run [] = (true, [(⟨0⟩, ⟨9⟩)]) := by
    change @Eq (Bool × Subst) _ _
    decide +kernel
  have hbinds := (matchTypes_binds hactual hrun).2 ⟨0⟩ (by decide +kernel) (by decide +kernel)
  exact ⟨hactual, hrun, Option.isSome_iff_exists.1 hbinds⟩

/-- A parameter that meets itself stays without a binding. -/
theorem matchTypes_self_binds_nothing : pairs.2.mentions [⟨0⟩] pairs.1.1 ∧
    (pairs.2.matchTypes pairs.1.1 pairs.1.1).run [] = (true, []) := by
  refine ⟨by decide +kernel, ?_⟩
  change @Eq (Bool × Subst) _ _
  decide +kernel

/-! ## Conversions -/

lemma treeOf_eq_ite {shape : TypeShape} (h : ∀ id name, shape ≠ .param id name) : table.treeOf shape =
    if shape.head = .tuple ∧ shape.parts = [] then .void else .node shape.head (shape.parts.map table.tree) := by
  cases shape with
  | param id name => exact absurd rfl (h id name)
  | tuple items => cases items <;> simp [treeOf, TypeShape.head]
  | _ => simp [treeOf, TypeShape.head]

lemma converts_of_isAbsorbing (h : actual.isAbsorbing) (t : Ty) : (table.tree actual).Converts t := by
  rw [TypeId.isAbsorbing, Bool.or_eq_true, beq_iff_eq, beq_iff_eq] at h
  rcases h with rfl | rfl
  · rw [tree_eq, shape_error]
    exact .fromError t
  · rw [tree_eq, shape_never]
    exact .never t

lemma tree_error : table.tree .error = .error := by
  rw [tree_eq, shape_error]
  rfl

lemma converts_of_coercesFrom : ∀ n actual target, table.coercesFrom n actual target →
    (table.tree actual).Converts (table.tree target)
  | n + 1, actual, target, h => by
    rw [coercesFrom, coercesStep, Bool.or_eq_true, Bool.or_eq_true, Bool.or_eq_true, beq_iff_eq, beq_iff_eq] at h
    rcases h with ((rfl | h) | rfl) | h
    · exact .refl _
    · exact converts_of_isAbsorbing h _
    · exact tree_error ▸ .toError _
    rw [tree_eq table target]
    split at h
    case h_6 => cases h
    case h_4 htarget _ =>
      rw [htarget]
      exact .some (converts_of_coercesFrom n _ _ h)
    all_goals
      rename_i hsource htarget
      rw [tree_eq, hsource, htarget]
    · exact .int h
    · exact .float
    · exact .parts (.inl rfl) rfl (by simpa using converts_of_coercesFrom n _ _ h)
    · exact .parts (.inr ⟨rfl, rfl⟩) rfl (by simpa [eq_of_beq h] using .refl _)

lemma converts_of_coerces {target : TypeId} (h : table.coerces actual target) :
    (table.tree actual).Converts (table.tree target) :=
  converts_of_coercesFrom _ _ _ h

mutual

/-- A matched type converts into the pattern with the bindings put in, if these leave the type as it is. -/
theorem Matches.converts : ∀ {pattern actual s s'}, Matches table pattern actual s s' →
    (∀ id type, s'.get? id = some type → g id = table.tree type) → (table.tree actual).subst g = table.tree actual →
    (table.tree actual).Converts ((table.tree pattern).subst g)
  | pattern, actual, _, _, .same h, _, hactual => by
    rw [Bool.or_eq_true, Bool.or_eq_true, beq_iff_eq, beq_iff_eq] at h
    rcases h with (rfl | h) | rfl
    · exact hactual.symm ▸ .refl _
    · exact converts_of_isAbsorbing h _
    · rw [tree_error]
      exact .toError _
  | pattern, actual, _, _, .bound hp hget h, hg, _ => by
    rw [tree_eq table pattern, hp, treeOf, Ty.subst, hg _ _ hget]
    rw [Bool.or_eq_true, beq_iff_eq] at h
    rcases h with rfl | h
    · exact .refl _
    · exact converts_of_coerces h
  | pattern, actual, _, _, .new hp hnone, hg, _ => by
    rw [tree_eq table pattern, hp, treeOf, Ty.subst, hg _ actual (by simp [Subst.get?_cons])]
    exact .refl _
  | pattern, actual, _, _, .optional hp h, hg, hactual => by
    rw [tree_eq table pattern, hp]
    exact .some (h.converts hg hactual)
  | pattern, actual, _, _, .leaf hp hparam h, _, _ => by
    obtain ⟨head, hleaf⟩ := @treeOf_eq_leaf _ table hp hparam
    have hconverts := converts_of_coerces h
    rw [tree_eq table pattern, hleaf] at hconverts ⊢
    exact hconverts
  | pattern, actual, _, _, .parts hparam hhead h, hg, hactual => by
    have hvoid : (table.shape pattern).head = .tuple ∧ (table.shape pattern).parts = [] ↔
        (table.shape actual).head = .tuple ∧ (table.shape actual).parts = [] := by
      rw [← length_eq_zero_iff, h.length_eq, length_eq_zero_iff]
      rcases hhead with hhead | ⟨hp, ha⟩
      · rw [hhead]
      · simp [hp, ha]
    rw [tree_eq table actual, treeOf_eq_ite fun id name => (hparam id name).2] at hactual ⊢
    rw [tree_eq table pattern, treeOf_eq_ite fun id name => (hparam id name).1]
    simp only [hvoid]
    split
    · exact .refl _
    · rw [if_neg ‹_›, Ty.subst_node, Ty.node.injEq, map_map] at hactual
      have hparts := h.converts hg fun y hy => map_inj_left.1 hactual.2 y hy
      rw [Ty.subst_node, map_map]
      refine .parts hhead (by rw [length_map, length_map, h.length_eq]) ?_
      rw [zip_map]
      exact forall_mem_map.2 hparts

theorem MatchesAll.converts : ∀ {xs ys s s'}, MatchesAll table xs ys s s' →
    (∀ id type, s'.get? id = some type → g id = table.tree type) → (∀ y ∈ ys, (table.tree y).subst g = table.tree y) →
    ∀ x ∈ xs.zip ys, (table.tree x.2).Converts ((table.tree x.1).subst g)
  | _, _, _, _, .nil, _, _ => by simp
  | _, _, _, _, .cons h h', hg, hactual => by
    rw [forall_mem_cons] at hactual
    rw [zip_cons_cons, forall_mem_cons]
    exact ⟨h.converts (fun id type hget => hg id type (h'.keeps hget)) hactual.1, h'.converts hg hactual.2⟩

end

end TypeTable

end Kite
