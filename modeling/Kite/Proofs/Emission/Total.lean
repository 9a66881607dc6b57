/-
Emission that does not fail. A rule runs to its end from every table of types that is late enough,
and only adds types; what it gives can be described relative to the table it ends with. Each rule is
treated once, given that its operands run to their end.
-/
import Kite.Proofs.Emission.Closed
import Kite.Proofs.Emission.Rules

namespace Kite.Emission

open TypeTable Typed.Emittable

variable {type : TypeId} {later : TypeTable}

variable {p : Program} {cx : Context} {table : TypeTable}

/-- From every later table the rule ends without a failure, and what it gives has the property. -/
def Emits (p : Program) (cx : Context) (table : TypeTable) (x : EmitM α) (Q : TypeTable → α → Prop) : Prop :=
  ∀ s : Emitter, s.program = p.withTypes s.program.types → table ≤ s.program.types →
    ∃ a s', x cx s = .ok (a, s') ∧ s'.program = p.withTypes s'.program.types ∧
      s.program.types ≤ s'.program.types ∧ Q s'.program.types a

def Total (p : Program) (cx : Context) (table : TypeTable) (x : EmitM α) : Prop := Emits p cx table x fun _ _ => True

variable {x : EmitM α}

namespace Emits

variable {Q : TypeTable → α → Prop} {R : TypeTable → β → Prop}

lemma mono (hle : table ≤ later) (h : Emits p cx table x Q) : Emits p cx later x Q :=
  fun s hs hlater => h s hs (hle.trans hlater)

lemma conseq {Q' : TypeTable → α → Prop} (h : Emits p cx table x Q)
    (hQ : ∀ now a, table ≤ now → Q now a → Q' now a) : Emits p cx table x Q' := by
  intro s hs hle
  obtain ⟨a, s', hrun, hs', hgrow, ha⟩ := h s hs hle
  exact ⟨a, s', hrun, hs', hgrow, hQ _ a (hle.trans hgrow) ha⟩

lemma total (h : Emits p cx table x Q) : Total p cx table x := h.conseq fun _ _ _ _ => trivial

lemma pure (h : ∀ now, table ≤ now → Q now a) : Emits p cx table (Pure.pure a) Q :=
  fun s hs hle => ⟨a, s, rfl, hs, le_rfl, h _ hle⟩

lemma bind (hx : Emits p cx table x Q)
    (hf : ∀ now a, table ≤ now → Q now a → Emits p cx now (f a) R) : Emits p cx table (x >>= f) R := by
  intro s hs hle
  obtain ⟨a, s', hrun, hs', hgrow, hQ⟩ := hx s hs hle
  obtain ⟨b, s'', hrun', hs'', hgrow', hR⟩ := hf s'.program.types a (hle.trans hgrow) hQ s' hs' le_rfl
  refine ⟨b, s'', ?_, hs'', hgrow.trans hgrow', hR⟩
  show (x cx s >>= fun r => f r.1 cx r.2) = _
  rw [hrun]
  exact hrun'

end Emits

namespace Total

lemma mono (hle : table ≤ later) (h : Total p cx table x) : Total p cx later x := Emits.mono hle h

lemma pure (a : α) : Total p cx table (Pure.pure a) := Emits.pure fun _ _ => trivial

lemma bind (hx : Total p cx table x) (hf : ∀ {a}, Total p cx table (f a)) : Total p cx table (x >>= f) :=
  Emits.bind hx fun _ _ hle _ => hf.mono hle

lemma forM : ∀ {l : List α}, (∀ a ∈ l, Total p cx table (f a)) → Total p cx table (l.forM f)
  | [], _ => pure ()
  | a :: l, h => by exact (h a (by simp)).bind <| forM fun b hb => h b (by simp [hb])

end Total

/-! ## Text and state -/

lemma total_write (f : Writer → Writer) : Total p cx table (write f) :=
  fun s hs _ => ⟨(), { s with out := f s.out }, rfl, hs, le_rfl, trivial⟩

lemma total_line : Total p cx table (line text) := total_write _

lemma total_blank : Total p cx table blank := total_write _

lemma total_inBraces (h : Total p cx table body) : Total p cx table (inBraces head stop body) :=
  (total_write _).bind <| h.bind <| total_write _

lemma total_nextBranch (head : String) : Total p cx table (nextBranch head) := total_write _

lemma total_modify (h : ∀ s, (f s).program = s.program) : Total p cx table (modify f) := fun s hs _ =>
  ⟨(), f s, rfl, by rw [h, ← hs], by rw [h], trivial⟩

lemma total_get : Total p cx table (get : EmitM Emitter) := fun s hs _ => ⟨s, s, rfl, hs, le_rfl, trivial⟩

lemma emits_read : Emits p cx table (read : EmitM Context) fun _ found => found = cx :=
  fun s hs _ => ⟨cx, s, rfl, hs, le_rfl, rfl⟩

lemma total_read : Total p cx table (read : EmitM Context) := emits_read.total

lemma total_capture (h : Total p cx table body) : Total p cx table (capture body) := by
  refine total_get.bind fun {s} => ?_
  refine .bind (total_modify fun _ => rfl) <| h.bind ?_
  refine total_get.bind fun {s} => ?_
  exact .bind (total_modify fun _ => rfl) <| .pure _

lemma total_freshTemp : Total p cx table freshTemp :=
  fun s hs _ => ⟨_, { s with temps := s.temps + 1 }, rfl, hs, le_rfl, trivial⟩

lemma emits_program : Emits p cx table program fun now q => q = p.withTypes now :=
  fun s hs _ => ⟨s.program, s, rfl, hs, le_rfl, hs⟩

lemma total_program : Total p cx table program := emits_program.total

lemma total_program_bind (h : ∀ now, Total p cx table (f (p.withTypes now))) : Total p cx table (program >>= f) :=
  Emits.bind emits_program fun now _ hnow hq => hq ▸ (h now).mono hnow

lemma emits_types : Emits p cx table types fun now found => found = now :=
  fun s hs _ => ⟨s.program.types, s, rfl, hs, le_rfl, rfl⟩

lemma total_types : Total p cx table types := emits_types.total

lemma total_types_bind {f : TypeTable → EmitM α}
    (h : ∀ now, table ≤ now → Total p cx table (f now)) : Total p cx table (types >>= f) := by
  refine Emits.bind emits_types fun now found hle hfound => ?_
  subst hfound
  exact (h found hle).mono hle

lemma emits_build {x : TypeM α} (h : ∀ now, now ≤ (x now).2) :
    Emits p cx table (build x) fun after a => ∃ now, table ≤ now ∧ (x now).2 = after ∧ (x now).1 = a := by
  intro s hs hle
  refine ⟨(x s.program.types).1, _, rfl, ?_, h _, s.program.types, hle, rfl, rfl⟩
  rw [hs]
  rfl

lemma total_concrete (id : TypeId) : Total p cx table (concrete id) :=
  total_read.bind <| (emits_build (TypeM.subst_le _ _)).total

lemma total_closed : Closed fun x => Total p cx table x :=
  ⟨Total.pure _, Total.bind, total_read, total_program, total_types, total_concrete⟩

/-! ## Spelling types -/

lemma mapM_ok {f : α → Except ToolError β} : ∀ {l : List α}, (∀ a ∈ l, ∃ b, f a = .ok b) → ∃ bs, l.mapM f = .ok bs
  | [], _ => ⟨[], rfl⟩
  | a :: l, h => by
    obtain ⟨b, hb⟩ := h a (by simp)
    have hrest : ∀ c ∈ l, ∃ d, f c = .ok d := fun c hc => h c (by simp [hc])
    obtain ⟨bs, hbs⟩ := mapM_ok hrest
    refine ⟨b :: bs, ?_⟩
    rw [List.mapM_cons, hb, hbs]
    rfl

lemma typeTextFrom_ok {n : Naming} : ∀ k {id}, Concrete p table id →
    ∃ text, (p.withTypes table).typeTextFrom n k id = .ok text
  | 0, _, _ => ⟨"", rfl⟩
  | k + 1, id, hid => by
    have hpart : ∀ part ∈ (table.shape id).parts, ∃ text, (p.withTypes table).typeTextFrom n k part = .ok text :=
      fun part hmem => typeTextFrom_ok k (hid.part hmem)
    unfold Program.typeTextFrom
    rw [show (p.withTypes table).types = table from rfl]
    cases hshape : table.shape id with
    | error | param param name => exact absurd hid (by unfold Concrete; rw [table.tree_eq, hshape]; nofun)
    | void | never | bool | char | string | int _ | float _ | named _ _ _ | const _ => exact ⟨_, rfl⟩
    | vector inner | optional inner | view _ inner | raw inner =>
      obtain ⟨text, htext⟩ := hpart inner (by simp [hshape])
      dsimp only
      rw [htext]
      exact ⟨_, rfl⟩
    | array element length =>
      obtain ⟨text, htext⟩ := hpart element (by simp [hshape])
      obtain ⟨text', htext'⟩ := hpart length (by simp [hshape])
      dsimp only
      rw [htext, htext']
      exact ⟨_, rfl⟩
    | tuple items =>
      rw [hshape] at hpart
      obtain ⟨texts, htexts⟩ := mapM_ok hpart
      dsimp only
      rw [show items.mapM _ = _ from htexts]
      exact ⟨_, rfl⟩
    | function params result =>
      rw [hshape] at hpart
      have hparams : ∀ param ∈ params, ∃ text, (p.withTypes table).typeTextFrom n k param = .ok text :=
        fun param hmem => hpart param (by simp [hmem])
      obtain ⟨texts, htexts⟩ := mapM_ok hparams
      obtain ⟨text, htext⟩ := hpart result (by simp)
      dsimp only
      rw [htexts, htext]
      exact ⟨_, rfl⟩

lemma total_lift {e : Except ToolError α} (h : ∃ a, e = .ok a) : Total p cx table (liftM e : EmitM α) := by
  obtain ⟨a, rfl⟩ := h
  exact fun s hs _ => ⟨a, s, rfl, hs, le_rfl, trivial⟩

lemma total_typeText {id : TypeId} (h : Concrete p table id) : Total p cx table (typeText id) := by
  refine Emits.bind emits_program fun now q hle hq => ?_
  subst hq
  exact total_read.bind <| total_lift (typeTextFrom_ok _ (h.mono hle))

/-! ## Inside an instance -/

structure Inside (p : Program) (table : TypeTable) (scope : Typed.Emittable.Scope) (cx : Context) :
    Prop where
  le : p.types ≤ table
  args : ∃ args, cx.bindings = Program.bindings scope.generics args ∧ FitsAll p table scope.generics args
  locals : cx.localTypes = scope.locals.map (·.type)

namespace Inside

variable {scope : Typed.Emittable.Scope} {id : TypeId}

lemma mono (hle : table ≤ later) (h : Inside p table scope cx) : Inside p later scope cx := by
  obtain ⟨args, hbindings, hargs⟩ := h.args
  exact ⟨h.le.trans hle, ⟨args, hbindings, hargs.mono hle⟩, h.locals⟩

lemma emits_concrete (h : Inside p table scope cx) (hid : p.isProper scope.generics id) :
    Emits p cx table (concrete id) fun now made => Concrete p now made := by
  obtain ⟨args, hbindings, hargs⟩ := h.args
  refine .bind emits_read fun now found hle hfound => ?_
  subst hfound
  refine (emits_build (TypeM.subst_le _ _)).conseq fun after made _ hmade => ?_
  obtain ⟨before, hbefore, rfl, rfl⟩ := hmade
  rw [hbindings]
  exact hargs.subst_concrete h.le hid (hle.trans hbefore)

lemma emits_param (h : Inside p table scope cx)
    (hshape : p.types.shape id = .param param name) (hg : Program.generic? scope.generics param = some g) : ∃ arg,
    Fits p table g arg ∧ Emits p cx table (concrete id) fun _ made => made = arg := by
  obtain ⟨args, hbindings, hargs⟩ := h.args
  obtain ⟨arg, hfits, hrun⟩ := hargs.subst_param hg
  have hid : p.types.Holds id := holds_of_shape (by rw [hshape]; nofun)
  refine ⟨arg, hfits, Emits.bind emits_read fun now found hle hfound => ?_⟩
  subst hfound
  refine (emits_build (TypeM.subst_le _ _)).conseq fun after made _ hmade => ?_
  obtain ⟨before, hbefore, rfl, rfl⟩ := hmade
  have hbase := (h.le.trans hle).trans hbefore
  rw [hbindings, hrun id name before ((shape_eq_of_le hbase hid).trans hshape)]

lemma total_bodyTypeText (h : Inside p table scope cx) (hid : p.isProper scope.generics id) :
    Total p cx table (bodyTypeText id) :=
  Emits.bind (h.emits_concrete hid) fun _ _ _ hmade => total_typeText hmade

lemma emits_localType (h : Inside p table scope cx) (hl : declares p scope l) :
    Emits p cx table (localType l) fun now made => Concrete p now made := by
  refine .bind emits_read fun now found hle hfound => ?_
  subst hfound
  unfold declares at hl
  split at hl
  · rename_i declared hdeclared
    have htype : found.localTypes.getD l.index .error = declared.type := by
      rw [h.locals, Array.getD_eq_getD_getElem?, Array.getElem?_map, hdeclared]
      rfl
    rw [htype]
    exact (h.mono hle).emits_concrete hl
  · cases hl

end Inside

/-! ## Rules that are judged -/

/-- The rules that run to their end. -/
def emitted (p : Program) (cx : Context) : Judgement where
  Holds _ t _ _ x _ := Total p cx t x
  mono _ hle h := h.mono hle
  pure := Total.pure _
  bind := .bind
  context := total_read
  state := total_get
  concrete := total_concrete
  temp := total_freshTemp
  line _ := total_line
  enter := total_write _
  leave := total_write _
  next := total_nextBranch _
  capture := total_capture

lemma spelled_emitted {x : EmitM TypeId} (h : Emits p cx table x fun now made => Concrete p now made) :
    Spelled (emitted p cx) table x :=
  ⟨fun hf d => show Total p cx table _ from
    Emits.bind h fun _ made hle hmade => hf made hle (fun _ => total_typeText hmade) d⟩

variable {scope : Typed.Emittable.Scope}

namespace Inside

lemma spelled (h : Inside p table scope cx) {id : TypeId} (hid : p.isProper scope.generics id) :
    Spelled (emitted p cx) table (concrete id) :=
  spelled_emitted (h.emits_concrete hid)

lemma spelled_local (h : Inside p table scope cx) {l : LocalId} (hl : declares p scope l) :
    Spelled (emitted p cx) table (localType l) :=
  spelled_emitted (h.emits_localType hl)

end Inside

section Operations

variable {scope : Typed.Emittable.Scope} {l l' : Lowered}

lemma total_constParamText (hin : Inside p table scope cx) {id : ParamId}
    (h : (Program.generic? scope.generics id).any (·.constType.isSome)) :
    Total p cx table (constParamText type id span) := by
  obtain ⟨args, hbindings, hargs⟩ := hin.args
  obtain ⟨arg, n, hget, harg, hshape⟩ := hargs.get?_number h
  refine (total_concrete type).bind <| total_types_bind fun now hle => ?_
  refine Emits.bind emits_read fun _ cx' _ hcx => ?_
  subst hcx
  rw [hbindings, hget, Option.map_some, shape_eq_of_le hle harg, hshape]
  exact Total.pure _

lemma total_fillText (hin : Inside p table scope cx) (htype : p.isProper scope.generics type)
    (h : Total p cx table l.bare) (h' : Total p cx table l'.bare) : Total p cx table (fillText type l l') := by
  refine Emits.bind (hin.emits_concrete htype) fun now made hle hconcrete => ?_
  refine Total.bind (h.mono hle) <| total_types_bind fun later hlater => ?_
  rw [shape_eq_of_le hlater hconcrete.holds]
  split
  · rename_i element length hshape
    have helement : Concrete p now element := hconcrete.part (by simp [hshape])
    have hlength : Concrete p now length := hconcrete.part (by simp [hshape])
    exact (total_typeText helement).bind <| (total_typeText hlength).bind <| .pure _
  · exact Total.bind (h'.mono hle) <| (total_typeText hconcrete).bind <| .pure _

end Operations

/-! ## Calls -/

section Calls

variable {scope : Typed.Emittable.Scope} {args : List Arg}

lemma total_callTraitMethod (hin : Inside p table scope cx) (htargets : p.TargetsHeld) {selfType : TypeId}
    (hmethod : callee p scope (.traitMethod traitDef method selfType))
    (h : ∀ a ∈ args, Total p cx table a.2.value) :
    Total p cx table (callTraitMethod traitDef method selfType span args) := by
  obtain ⟨param, name, g, hshape, hg, hbound, hmethod⟩ :=
    mentions_callee hmethod _ (List.mem_singleton_self _)
  obtain ⟨arg, hfits, hself⟩ := hin.emits_param hshape hg
  obtain ⟨harg, hprovides⟩ := hfits.bounds traitDef hbound method hmethod
  obtain ⟨decl, ids, hfound, -⟩ := exists_of_provides hprovides
  refine (closed_argTexts total_closed h).bind <| Emits.bind hself fun now made hle hmade => ?_
  subst hmade
  refine .bind emits_program fun later q hlater hq => ?_
  subst hq
  have hbase := (hin.le.trans hle).trans hlater
  rw [traitMethod?_withTypes hbase htargets harg, hfound]
  exact (closed_functionName total_closed).bind <| .pure _

end Calls

end Kite.Emission
