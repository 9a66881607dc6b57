/-
When what the search finds in the end passes the checks of its declarations, the arguments of what is
requested are closed and the types that are recorded are concrete.
-/
import Kite.Proofs.Instance.Needs

namespace Kite.Instance

open List TypeM TypeTable Program

variable {p : Program} {s : Search} {decl : DefId} {args : List TypeId} {table : TypeTable}

structure Checked (p : Program) (s : Search) : Prop where
  functions : ∀ i ∈ s.functions, p.emittableFunction i.decl
  types : ∀ id ∈ s.types, p.emittableType (s.program.types.shape id)
  globals : ∀ decl ∈ s.globals, p.emittableGlobal decl

def Callable (p : Program) (table : TypeTable) (decl : DefId) (args : List TypeId) : Prop :=
  ∀ f, p.function? decl = some f → FitsAll p table f.generics args

lemma Callable.mono {a b : TypeTable} (hab : a ≤ b) (h : Callable p a decl args) : Callable p b decl args :=
  fun f hf => (h f hf).mono hab

lemma length_of_concrete {id : TypeId} {name : String} (hid : Concrete p table id)
    (hshape : table.shape id = .named decl name args) : args.length = (p.memberGroups decl).1.length := by
  have hmakes := hid.makesType hshape
  simp only [makesType] at hmakes
  split at hmakes
  iterate 2
    · rename_i hkind
      simp only [memberGroups, hkind]
      exact eq_of_beq hmakes
  · cases hmakes

lemma isProper_of_emittableMembers {member : TypeId} (h : p.emittableMembers decl)
    (hmember : member ∈ (p.memberGroups decl).2.flatten) : p.isProper (p.memberGroups decl).1 member := by
  obtain ⟨group, hgroup, hmem⟩ := mem_flatten.1 hmember
  exact all_eq_true.1 (all_eq_true.1 h group hgroup) member hmem

def MayMention (p : Program) (generics : List Generic) : Typed.Mention → Prop
  | .exprType id => p.isProper generics id ∨ id = .error
  | .global _ => True
  | .function decl args => p.fitsFunction generics decl args
  | .traitMethod traitDef method selfType => ∃ param name g,
      p.types.shape selfType = .param param name ∧ Program.generic? generics param = some g ∧
        traitDef ∈ g.bounds ∧ method ∈ p.traitMethodNames traitDef

end Kite.Instance

namespace Kite.Typed.Emittable

open List

open Instance (MayMention)

variable {p : Program} {scope : Scope}

lemma all_append {P : α → Prop} {l l' : List α} (h : a && b) (ha : a → ∀ x ∈ l, P x)
    (hb : b → ∀ x ∈ l', P x) : ∀ x ∈ l ++ l', P x :=
  forall_mem_append.2 ⟨ha (Bool.and_eq_true_iff.1 h).1, hb (Bool.and_eq_true_iff.1 h).2⟩

mutual

/-- A body that passes its check mentions only what it may. -/
theorem mentions_expr : ∀ {e}, expr p scope e → ∀ m ∈ Mention.ofExpr e, MayMention p scope.generics m
  | ⟨kind, type, _⟩, h => by
    rw [expr, Bool.and_eq_true] at h
    refine forall_mem_cons.2 ⟨?_, mentions_kind h.2⟩
    rcases Bool.or_eq_true_iff.1 h.1 with hproper | herror
    · exact .inl hproper
    · exact .inr (eq_of_beq (Bool.and_eq_true_iff.1 herror).1)

theorem mentions_kind : ∀ {kind}, exprKind p scope kind → ∀ m ∈ Mention.ofKind kind, MayMention p scope.generics m
  | .global _, _ => forall_mem_singleton.2 trivial
  | .functionRef .., h => forall_mem_singleton.2 h
  | .call .., h => all_append h mentions_callee mentions_exprs
  | .some inner, h | .cast inner, h | .unwrap inner, h | .unary _ inner, h | .field inner _ _, h
  | .tupleIndex inner _, h => mentions_expr (e := inner) h
  | .binary .., h | .assign .., h | .index .., h | .fill .., h => all_append h mentions_expr mentions_expr
  | .slice .., h => all_append h (all_append · mentions_expr mentions_expr) mentions_expr
  | .tuple items, h | .sequence items, h => @mentions_exprs items h
  | .cond .., h => all_append h (all_append · mentions_expr mentions_expr) mentions_option
  | .matchWith .., h => all_append h mentions_expr mentions_arms
  | .block inner, h => mentions_block (b := inner) h
  | .ret value, h => mentions_option (e := value) h
  | .range .., h | .error, h => by simp [exprKind] at h
  | .int _, _ | .float _, _ | .bool _, _ | .char _, _ | .str _, _ | .void, _ | .none, _ | .var _, _
  | .constParam _, _ | .brk, _ | .cont, _ => by simp [Mention.ofKind]

theorem mentions_callee : ∀ {target}, callee p scope target →
    ∀ m ∈ Mention.ofCallee target, MayMention p scope.generics m
  | .function .., h => forall_mem_singleton.2 h
  | .traitMethod traitDef method selfType, h => by
    rw [callee] at h
    rw [Mention.ofCallee, forall_mem_singleton]
    split at h
    · rename_i param name hshape
      rw [Bool.and_eq_true] at h
      obtain ⟨g, hg, hbound⟩ := (Option.any_eq_true _ _).1 h.1
      exact ⟨param, name, g, hshape, hg, contains_iff_mem.1 hbound, contains_iff_mem.1 h.2⟩
    · cases h
  | .indirect inner, h => mentions_expr (e := inner) h
  | .builtin _, _ | .builtinMethod _, _ | .constructor _, _ | .variant .., _ => by simp [Mention.ofCallee]

theorem mentions_exprs : ∀ {es}, exprs p scope es → ∀ m ∈ Mention.ofExprs es, MayMention p scope.generics m
  | [], _ => forall_mem_nil _
  | _ :: _, h => all_append h mentions_expr mentions_exprs

theorem mentions_option : ∀ {e}, exprOption p scope e → ∀ m ∈ Mention.ofOption e, MayMention p scope.generics m
  | some e, h => mentions_expr (e := e) h
  | none, _ => forall_mem_nil _

theorem mentions_arms : ∀ {branches}, arms p scope branches →
    ∀ m ∈ Mention.ofArms branches, MayMention p scope.generics m
  | [], _ => forall_mem_nil _
  | ⟨_, _⟩ :: _, h => all_append h (fun h => mentions_expr (Bool.and_eq_true_iff.1 h).2) mentions_arms

theorem mentions_block : ∀ {b}, block p scope b → ∀ m ∈ Mention.ofBlock b, MayMention p scope.generics m
  | ⟨_, _⟩, h => all_append h mentions_stmts mentions_option

theorem mentions_stmts : ∀ {body}, stmts p scope body → ∀ m ∈ Mention.ofStmts body, MayMention p scope.generics m
  | [], _ => forall_mem_nil _
  | _ :: _, h => all_append h mentions_stmt mentions_stmts

theorem mentions_stmt : ∀ {s}, stmt p scope s → ∀ m ∈ Mention.ofStmt s, MayMention p scope.generics m
  | .letDecl _ init, h => mentions_expr (e := init) (Bool.and_eq_true_iff.1 h).2
  | .expr e, h => mentions_expr (e := e) h
  | .whileLoop .., h => all_append h mentions_expr mentions_block
  | .loop body, h => mentions_block (b := body) h
  | .forRange .., h =>
    all_append h (all_append · (fun h => mentions_expr (Bool.and_eq_true_iff.1 h).2) mentions_expr) mentions_block
  | .forEach .., h => all_append h (fun h => mentions_expr (Bool.and_eq_true_iff.1 h).2) mentions_block
  | .defer inner, h => mentions_stmt (s := inner) h

end

end Kite.Typed.Emittable

namespace Kite.Instance

open List TypeM TypeTable Bool

variable {p : Program} {s : Search} {decl : DefId} {args : List TypeId} {table now : TypeTable} {id found : TypeId}

variable {generics : List Generic}

lemma mentions_body {body : Typed.Body}
    (h : p.emittableBody generics body) : ∀ m ∈ body.mentions, MayMention p generics m := by
  unfold Program.emittableBody at h
  rw [and_eq_true, ← Array.all_toList, all_eq_true] at h
  unfold Typed.Body.mentions
  rw [forall_mem_append]
  refine ⟨fun m hm => ?_, Typed.Emittable.mentions_expr h.2⟩
  obtain ⟨l, hl, rfl⟩ := mem_map.1 hm
  exact .inl (h.1 l hl)

/-- Nothing of a target is open. -/
def Fine (p : Program) (table : TypeTable) : Target → Prop
  | .function decl args => Callable p table decl args
  | .type id => Concrete p table id
  | .foreign _ | .global _ => True

lemma Fine.mono (hle : table ≤ now) : ∀ {x}, Fine p table x → Fine p now x
  | .function .., h => Callable.mono hle h
  | .type _, h => Concrete.mono hle h
  | .foreign _, h | .global _, h => h

lemma concrete_of_meets (h : table.Meets id found) : Concrete p table id → Concrete p table found := by
  induction h with
  | here => exact fun h => h
  | part hpart _ ih => exact fun h => ih (h.part (TypeShape.mem_parts_of_mem_contents hpart))

lemma not_meets_error (h : table.Meets .error found) : False := by
  cases h with
  | here hnamed => rw [shape_error] at hnamed; cases hnamed
  | part hpart => rw [shape_error] at hpart; cases hpart

lemma fine_type (h : Concrete p now id) (hasks : Request.Asks p now (.type id) y) : Fine p now y := by
  obtain ⟨found, rfl, hmeets⟩ := hasks
  exact concrete_of_meets hmeets h

lemma fine_callee (h : (p.function? decl).any (·.isForeign) = false → Callable p table decl args) :
    Fine p table (callee p decl args) := by
  unfold callee
  split
  · trivial
  · rename_i hforeign
    exact h (eq_false_iff.2 hforeign)

lemma fine_root (hroot : root? p decl = some r) (hasks : r.Asks p p.types x) : Fine p p.types x := by
  unfold root? at hroot
  split at hroot
  · split at hroot
    · rename_i f hkind
      split at hroot
      · rename_i hempty
        cases hroot
        rw [show x = callee p decl [] from hasks]
        refine fine_callee fun _ found hfound => ?_
        rw [Program.function?, hkind] at hfound
        cases hfound
        rw [List.isEmpty_iff.1 (and_eq_true_iff.1 hempty).1]
        exact ⟨rfl, fun _ _ h => nomatch h⟩
      · cases hroot
    all_goals cases hroot
    all_goals cases hasks
    all_goals trivial
  · cases hroot

lemma fine_mention (htargets : p.TargetsHeld)
    (hargs : FitsAll p table generics args) (hle : p.types ≤ table) : ∀ {m},
      MayMention p generics m → (Need.mention (Program.bindings generics args) m).Asks p table y →
        Fine p ((Need.mention (Program.bindings generics args) m).make table).2 y
  | .exprType id, h, hasks => by
    rcases h with hproper | rfl
    · exact fine_type (hargs.subst_concrete hle hproper le_rfl) hasks
    · obtain ⟨found, rfl, hmeets⟩ := hasks
      have hsame := subst_of_isFixed (s := Program.bindings generics args) (table.holds_error) isFixed_error
      exact (not_meets_error (congrArg Prod.fst hsame ▸ hmeets)).elim
  | .global decl, _, hasks => by
    cases hasks
    trivial
  | .function decl ids, h, hasks => by
    rw [show y = callee p decl _ from hasks]
    refine fine_callee fun hforeign f hf => ?_
    have h : p.fitsFunction generics decl ids := h
    unfold Program.fitsFunction at h
    rw [hf] at h hforeign
    dsimp only at h
    rw [show f.isForeign = false from hforeign, Bool.false_or, and_eq_true] at h
    exact hargs.mapM_fits hle (eq_of_beq h.1) (fun g id hmem => all_eq_true.1 h.2 (g, id) hmem) le_rfl
  | .traitMethod traitDef method selfType, h, hasks => by
    obtain ⟨param, name, g, hshape, hg, hbound, hmethod⟩ := h
    have hself : p.types.Holds selfType := holds_of_shape (by rw [hshape]; nofun)
    obtain ⟨arg, hfits, hrun⟩ := hargs.subst_param hg
    obtain ⟨harg, hprovides⟩ := hfits.bounds traitDef hbound method hmethod
    obtain ⟨decl, ids, hfound, hcallable⟩ := exists_of_provides hprovides
    have hsame := hrun selfType name table ((shape_eq_of_le hle hself).trans hshape)
    obtain ⟨_, _, hasked, rfl⟩ := hasks
    change (p.withTypes (TypeM.subst _ _ _).2).traitMethod? _ _ (TypeM.subst _ _ _).1 = _ at hasked
    show Fine p (TypeM.subst _ _ _).2 _
    rw [hsame] at hasked ⊢
    rw [traitMethod?_withTypes hle htargets harg, hfound] at hasked
    cases hasked
    exact fine_callee fun _ f hf => (hcallable f hf).mono hle

lemma fine_need (htargets : p.TargetsHeld) (hchecked : Checked p s) (hx : Fine p table x) (hlists : s.Lists x)
    (hneed : need ∈ needs p s.program.types x) (hle : p.types ≤ table) (hmade : (need.make table).2 ≤ s.program.types)
    (hasks : need.Asks p table y) : Fine p (need.make table).2 y := by
  cases x with
  | function decl args =>
    obtain ⟨i, hi, hkey⟩ := hlists
    cases hkey
    have hemittable := hchecked.functions i hi
    unfold Program.emittableFunction at hemittable
    rw [needs] at hneed
    cases hf : p.function? i.decl with
    | none => rw [hf] at hneed; cases hneed
    | some f =>
      rw [hf] at hneed hemittable
      rw [and_eq_true, all_eq_true] at hemittable
      obtain ⟨m, hm, rfl⟩ := mem_map.1 hneed
      refine fine_mention htargets (hx f hf) hle ?_ hasks
      rcases mem_append.1 hm with hm | hm
      · obtain ⟨id, hid, rfl⟩ := mem_map.1 hm
        exact .inl (hemittable.1 id hid)
      · obtain ⟨body, hbody, hm⟩ := mem_flatMap.1 hm
        refine mentions_body ?_ m hm
        rw [Option.mem_toList.1 hbody] at hemittable
        exact hemittable.2
  | type id =>
    have hshape := shape_eq_of_le ((need.grows table).trans hmade) (Concrete.holds hx)
    have hemittable := hchecked.types id hlists
    rw [needs] at hneed
    split at hneed
    · rename_i decl name args hnamed
      rw [hnamed] at hemittable hshape
      obtain ⟨member, hmember, rfl⟩ := mem_map.1 hneed
      refine fine_type (concrete_subst (length_of_concrete hx hshape.symm) (fun g arg hmem => ?_) hle
        (isProper_of_emittableMembers hemittable hmember) le_rfl) hasks
      exact Concrete.part hx (by rw [← hshape]; exact (of_mem_zip hmem).2)
    · cases hneed
  | foreign => cases hneed
  | global decl =>
    obtain ⟨g, hg, rfl⟩ := mem_map.1 hneed
    have hemittable := hchecked.globals decl hlists
    unfold Program.emittableGlobal at hemittable
    rw [Option.mem_toList.1 hg, and_eq_true] at hemittable
    exact fine_type (proper_of_le hle hemittable.1) hasks

def Checked.plan (htargets : p.TargetsHeld) (hchecked : Checked p s) : Plan p :=
  ⟨s, Fine p, fun hle => Fine.mono hle, fun _ => fine_root, fine_need htargets hchecked⟩

end Kite.Instance

namespace Kite

structure Instances.Closed (instances : Instances) (p q : Program) : Prop where
  program : q = p.withTypes q.types
  le : p.types ≤ q.types
  functions : ∀ i ∈ instances.functions, Instance.Callable p q.types i.decl i.args
  types : ∀ id ∈ instances.types, Concrete p q.types id

section

open List Instance

variable {p q : Program} {entry : UnitId} {instances : Instances}
  (hrun : collectInstances p entry = some (instances, q))
  (hfunctions : ∀ i ∈ instances.functions, p.emittableFunction i.decl)
  (htypes : ∀ id ∈ instances.types, p.emittableType (q.types.shape id))
  (hglobals : ∀ decl ∈ instances.globals, p.emittableGlobal decl)

include hrun hfunctions htypes hglobals

/-- The search that an answer comes from ends with what passes the checks. -/
lemma checked_collectInstances : ∃ bound s, (search bound { program := p, naming := { entry } }).2 = s ∧
    s.exhausted = false ∧ instances = s.instances ∧ q = s.program ∧ Checked p s := by
  obtain ⟨bound, s, hs, hends, rfl, rfl⟩ := collectInstances_ended hrun
  exact ⟨bound, s, hs, hends, rfl, rfl, fun i hi => hfunctions i (Search.mem_functions.2 hi),
    fun id hid => htypes id (Search.mem_types.2 hid), fun decl hdecl => hglobals decl (Search.mem_globals.2 hdecl)⟩

/-- If the declarations that are met pass their checks, what is collected is closed. -/
lemma collectInstances_closed (htargets : p.TargetsHeld) : instances.Closed p q := by
  obtain ⟨bound, s, hs, hends, rfl, rfl, hchecked⟩ := checked_collectInstances hrun hfunctions htypes hglobals
  obtain ⟨hready, -⟩ := (ready_search (c := hchecked.plan htargets) hs).2 hends
  obtain ⟨undefined, hperm, -⟩ := hready.visited
  refine ⟨hready.program, hready.le, fun i hi => ?_,
    fun id hid => hready.known (.type id) (Search.mem_types.1 hid)⟩
  refine hready.known (.function i.decl i.args) (hperm.mem_iff.2 (mem_append_right _ (mem_append_left undefined ?_)))
  exact mem_map_of_mem (f := key) (Array.mem_toList_iff.2 (Search.mem_functions.1 hi))

end

end Kite
