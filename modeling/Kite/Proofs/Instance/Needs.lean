/-
What the search for instances finds. Each function, global and type that is found has needs, such as
the types of its expressions or the functions that it calls; a need is met when what it asks for has
been found, too. When the search ends, everything that was found has been visited, so all needs are
met, and what is known of a target passes on to what it needs. The search reaches a bound only if it
finds as much.
-/
import Kite.Proofs.Emission.Search

namespace Kite

open List TypeM

variable {id : TypeId}

namespace TypeShape

/-- The types that stand in a shape. The length of an array is a number and none of them. -/
def contents : TypeShape → List TypeId
  | .array element _ => [element]
  | shape => shape.parts

lemma mem_parts_of_mem_contents {shape : TypeShape} (h : id ∈ shape.contents) : id ∈ shape.parts := by
  cases shape with
  | array element length =>
    rw [mem_singleton.1 h]
    exact .head _
  | _ => exact h

end TypeShape

namespace TypeTable

/-- A struct, class or enum without parameters that occurs in a type. -/
inductive Meets (table : TypeTable) : TypeId → TypeId → Prop where
  | here {id : TypeId} : (table.shape id).isNamed → table.hasParams id = false → Meets table id id
  | part {id part found : TypeId} : part ∈ (table.shape id).contents → Meets table part found → Meets table id found

variable {a b : TypeTable} {id found : TypeId}

lemma Meets.of_le (hab : a ≤ b) (h : a.Meets id found) : a.Holds id → b.Meets id found := by
  induction h with
  | here hnamed hparams =>
    intro hid
    refine .here ?_ ?_
    · rwa [shape_eq_of_le hab hid]
    · rwa [hasParams, any_eq_of_le hab _ _ hid]
  | part hpart _ ih =>
    intro hid
    refine .part ?_ (ih (hid.part (TypeShape.mem_parts_of_mem_contents hpart)))
    rwa [shape_eq_of_le hab hid]

lemma Meets.of_later (hab : a ≤ b) (h : b.Meets id found) : a.Holds id → a.Meets id found := by
  induction h with
  | here hnamed hparams =>
    intro hid
    refine .here ?_ ?_
    · rwa [← shape_eq_of_le hab hid]
    · rwa [hasParams, ← any_eq_of_le hab _ _ hid]
  | part hpart _ ih =>
    intro hid
    rw [shape_eq_of_le hab hid] at hpart
    exact .part hpart (ih (hid.part (TypeShape.mem_parts_of_mem_contents hpart)))

end TypeTable

namespace Instance

/-! ## Needs -/

inductive Target where
  | function (decl : DefId) (args : List TypeId)
  | type (id : TypeId)
  | foreign (decl : DefId)
  | global (decl : DefId)
  deriving DecidableEq

/-- What is asked for, once its types have been made. -/
inductive Request where
  | type (id : TypeId)
  | global (decl : DefId)
  | call (decl : DefId) (args : List TypeId)
  | method (traitDef : DefId) (name : String) (selfType : TypeId)
  deriving DecidableEq

/-- Something that a target needs. Making its types leaves the others as they are. -/
structure Need where
  make : TypeM Request
  grows : ∀ now, now ≤ (make now).2

def Need.mention (b : Subst) : Typed.Mention → Need
  | .exprType id => ⟨.type <$> TypeM.subst b id, subst_le b id⟩
  | .global decl => ⟨pure (.global decl), fun _ => le_rfl⟩
  | .function decl args => ⟨.call decl <$> args.mapM (TypeM.subst b), mapM_le (subst_le b) args⟩
  | .traitMethod traitDef name selfType => ⟨.method traitDef name <$> TypeM.subst b selfType, subst_le b selfType⟩

variable (p : Program) (table : TypeTable)

def callee (decl : DefId) (args : List TypeId) : Target :=
  if (p.function? decl).any (·.isForeign) then .foreign decl else .function decl args

def Request.Asks (now : TypeTable) : Request → Target → Prop
  | .type id, x => ∃ found, x = .type found ∧ now.Meets id found
  | .global decl, x => x = .global decl
  | .call decl args, x => x = callee p decl args
  | .method traitDef name selfType, x => ∃ decl args,
      (p.withTypes now).traitMethod? traitDef name selfType = some (decl, args) ∧ x = callee p decl args

def Need.Asks (need : Need) (before : TypeTable) : Target → Prop := (need.make before).1.Asks p (need.make before).2

/-- The needs of a target: those of the signature and the body of a function, the type of a global and
the members of a type. -/
def needs : Target → List Need
  | .function decl args =>
    match p.function? decl with
    | some f =>
      ((signatureTypes f).map Typed.Mention.exprType ++ f.body.toList.flatMap Typed.Body.mentions).map
        (.mention (Program.bindings f.generics args))
    | none => []
  | .type id =>
    match table.shape id with
    | .named decl _ args => (p.memberGroups decl).2.flatten.map fun member =>
        .mention (Program.bindings (p.memberGroups decl).1 args) (.exprType member)
    | _ => []
  | .global decl => (p.global? decl).toList.map fun g => ⟨pure (.type g.type), fun _ => le_rfl⟩
  | .foreign _ => []

/-- With what the search starts for a declaration: the functions without generics and the globals of
the given units. -/
def root? (decl : DefId) : Option Request :=
  if isGiven p (p.getDef decl) then
    match (p.getDef decl).kind with
    | .function f => if f.generics.isEmpty && !f.isForeign then some (.call decl []) else none
    | .const _ | .static _ => some (.global decl)
    | _ => none
  else none

def Met (has : Target → Prop) (need : Need) : Prop :=
  ∃ before, p.types ≤ before ∧ (need.make before).2 ≤ table ∧ ∀ x, need.Asks p before x → has x

lemma Met.mono {p : Program} {a b : TypeTable} {has has' : Target → Prop} (hab : a ≤ b)
    (hhas : ∀ x, has x → has' x) (h : Met p a has need) : Met p b has' need := by
  obtain ⟨before, hbefore, hafter, hasks⟩ := h
  exact ⟨before, hbefore, hafter.trans hab, fun x hx => hhas x (hasks x hx)⟩

/-! ## What a step of the search does -/

def Search.Has (s : Search) : Target → Prop
  | .function decl args => (decl, args) ∈ s.requested
  | .type id => id ∈ s.types
  | .foreign decl => decl ∈ s.foreign
  | .global decl => decl ∈ s.globals

/-- What is still to be visited. -/
def Search.Awaits (s : Search) : Target → Prop
  | .function decl args => (decl, args) ∈ s.pending
  | _ => False

def key (i : Instance) : DefId × List TypeId := (i.decl, i.args)

/-- What has been visited or needs no visit. -/
def Search.Lists (s : Search) : Target → Prop
  | .function decl args => ∃ i ∈ s.functions, key i = (decl, args)
  | .type id => id ∈ s.types
  | .foreign _ => True
  | .global decl => decl ∈ s.globals

/-- The state in which a search ends, with what is known of each target that it finds. It is known of
what the search starts with, and of what a target needs that is listed in the end. -/
structure Plan (p : Program) where
  final : Search
  Knows : TypeTable → Target → Prop
  mono {a b x} : a ≤ b → Knows a x → Knows b x
  root {decl : DefId} {r x} : decl.index < p.defs.size → root? p decl = some r →
    r.Asks p p.types x → Knows p.types x
  need {x y need before} : Knows before x → final.Lists x →
    need ∈ needs p final.program.types x → p.types ≤ before →
      (need.make before).2 ≤ final.program.types → need.Asks p before y → Knows (need.make before).2 y

abbrev Plan.types {p : Program} (c : Plan p) : TypeTable := c.final.program.types

variable {p : Program} {c : Plan p} {bound n m : Nat} {s s' : Search} {x target : Target} {decl : DefId} {args : List TypeId}

def Search.Settled (c : Plan p) (s : Search) (x : Target) : Prop :=
  ∀ need ∈ needs p c.types x, Met p s.program.types s.Has need

/-- What is requested anew is put before what is pending. -/
def Queues (s s' : Search) : Prop := ∃ new, s'.requested = new ++ s.requested ∧ s'.pending = new ++ s.pending

variable {s₁ s₂ s₃ : Search}

lemma Queues.trans (h : Queues s₁ s₂) (h' : Queues s₂ s₃) : Queues s₁ s₃ := by
  obtain ⟨new, hrequested, hpending⟩ := h
  obtain ⟨new', hrequested', hpending'⟩ := h'
  exact ⟨new' ++ new, by rw [hrequested', hrequested, append_assoc], by rw [hpending', hpending, append_assoc]⟩

/-- What has been found stays found, and a bound that was reached stays reached. -/
structure Keeps (s s' : Search) : Prop where
  kept : ∀ x, s.Has x → s'.Has x
  steady : s'.exhausted = false → s.exhausted = false

/-- From one state to a later one. What is new is known, and it awaits its visit or its needs are
met; a bound `n` on nesting is reached only after as many types have been found. -/
structure Extends (c : Plan p) (n : Nat) (s s' : Search) : Prop
    extends Grows s s', Keeps s s' where
  requests : Queues s s'
  distinct : s.requested.Nodup → s'.requested.Nodup
  same : s'.functions = s.functions
  count : s.types.length ≤ s'.types.length
  ends : s'.exhausted → s.exhausted ∨ n + s.types.length ≤ s'.types.length
  new : ∀ x, s'.Has x → s.Has x ∨ c.Knows s'.program.types x ∧ (s'.exhausted = false → s'.Awaits x ∨ s'.Settled c x)

namespace Extends

lemma refl (s : Search) : Extends c n s s where
  toGrows := .refl s
  kept _ h := h
  requests := ⟨[], rfl, rfl⟩
  distinct h := h
  same := rfl
  count := Nat.le_refl _
  steady h := h
  ends h := .inl h
  new _ h := .inl h

lemma awaits (h : Extends c n s s') : ∀ x, s.Awaits x → s'.Awaits x
  | .function decl args, hx => by
    obtain ⟨new, _, hpending⟩ := h.requests
    show (decl, args) ∈ s'.pending
    rw [hpending]
    exact mem_append_right new hx

lemma settled (h : Extends c n s s') (hx : s.Settled c x) : s'.Settled c x :=
  fun need hneed => (hx need hneed).mono h.le h.kept

lemma trans (h : Extends c n s₁ s₂) (h' : Extends c n s₂ s₃) : Extends c n s₁ s₃ where
  toGrows := h.toGrows.trans h'.toGrows
  kept x hx := h'.kept x (h.kept x hx)
  requests := h.requests.trans h'.requests
  distinct hs := h'.distinct (h.distinct hs)
  same := h'.same.trans h.same
  count := Nat.le_trans h.count h'.count
  steady hs := h.steady (h'.steady hs)
  ends hs := by
    have hle := h.count
    have hle' := h'.count
    rcases h'.ends hs with hs | hs
    · exact (h.ends hs).imp id fun hn => by omega
    · exact .inr (by omega)
  new x hx := by
    rcases h'.new x hx with hx | hx
    · refine (h.new x hx).imp id fun ⟨hknown, hdone⟩ => ⟨c.mono h'.le hknown, fun hs => ?_⟩
      exact (hdone (h'.steady hs)).imp (h'.awaits x) h'.settled
    · exact .inr hx

lemma of_same (hgrows : Grows s s') (hhas : s'.Has = s.Has) (hrequested : s'.requested = s.requested)
    (hpending : s'.pending = s.pending) (hfunctions : s'.functions = s.functions) (htypes : s'.types = s.types)
    (hsteady : s'.exhausted = false → s.exhausted = false) (hends : s'.exhausted → s.exhausted ∨ n = 0) :
    Extends c n s s' where
  toGrows := hgrows
  kept x h := by rwa [hhas]
  requests := ⟨[], hrequested, hpending⟩
  distinct h := by rwa [hrequested]
  same := hfunctions
  count := Nat.le_of_eq (by rw [htypes])
  steady := hsteady
  ends h := (hends h).imp id fun hn => Nat.le_of_eq (by rw [hn, htypes, Nat.zero_add])
  new x h := .inl (by rwa [hhas] at h)

end Extends

def Search.add (s : Search) : Target → Search
  | .function decl args => { s with
      requested := (decl, args) :: s.requested
      pending := (decl, args) :: s.pending }
  | .type id => { s with types := id :: s.types }
  | .foreign decl => { s with foreign := decl :: s.foreign }
  | .global decl => { s with globals := decl :: s.globals }

lemma has_add : (s.add target).Has x ↔ x = target ∨ s.Has x := by
  cases target <;> cases x <;> simp [Search.add, Search.Has]

lemma grows_add (hnew : ¬ s.Has target) : Grows s (s.add target) where
  program := by cases target <;> rfl
  le := by cases target <;> exact le_rfl
  types := by cases target <;> simp +contextual [Search.add]
  functions := by cases target <;> exact fun _ h => h
  globals := by cases target <;> simp +contextual [Search.add]
  nodup hnodup := by
    cases target with
    | type => exact nodup_cons.2 ⟨hnew, hnodup⟩
    | _ => exact hnodup

lemma Extends.add (hnew : ¬ s.Has target) (h : Extends c m (s.add target) s')
    (hknown : c.Knows s.program.types target) (hdone : s'.exhausted = false → s'.Awaits target ∨ s'.Settled c target)
    (hm : n + s.types.length ≤ m + (s.add target).types.length) :
    Extends c n s s' where
  toGrows := (grows_add hnew).trans h.toGrows
  kept x hx := h.kept x (has_add.2 (.inr hx))
  steady hs := by cases target <;> exact h.steady hs
  requests := by
    refine Queues.trans ?_ h.requests
    cases target with
    | function decl args => exact ⟨[(decl, args)], rfl, rfl⟩
    | _ => exact ⟨[], rfl, rfl⟩
  distinct hs := h.distinct (by
    cases target with
    | function => exact nodup_cons.2 ⟨hnew, hs⟩
    | _ => exact hs)
  same := by cases target <;> exact h.same
  count := Nat.le_trans (by cases target <;> simp [Search.add]) h.count
  ends hs := (h.ends hs).imp (fun hs => by cases target <;> exact hs) fun hn => by omega
  new x hx := by
    rcases h.new x hx with hx | hx
    · rcases has_add.1 hx with rfl | hx
      · exact .inr ⟨c.mono ((grows_add hnew).trans h.toGrows).le hknown, hdone⟩
      · exact .inl hx
    · exact .inr hx

structure Search.Of (p : Program) (s : Search) : Prop where
  program : s.program = p.withTypes s.program.types
  le : p.types ≤ s.program.types

lemma Search.Of.function? (h : s.Of p) (decl : DefId) : s.program.function? decl = p.function? decl := by
  rw [h.program]
  rfl

lemma Search.Of.grow (h : s.Of p) (hgrows : Grows s s') : s'.Of p where
  program := by rw [hgrows.program, h.program]; rfl
  le := h.le.trans hgrows.le

/-- From a state on, the computation extends the search and has an effect, if the search ends as
planned and no bound is reached. -/
def Does (c : Plan p) (n : Nat) (s : Search) (x : SearchM α) (Q : Search → Prop) : Prop :=
  Grows (x s).2 c.final → Extends c n s (x s).2 ∧ ((x s).2.exhausted = false → Q (x s).2)

namespace Does

lemma forM {f : α → SearchM Unit} {Q : α → Search → Prop} (hfinds : ∀ a, Finds (f a))
    (hkept : ∀ a s s', Extends c n s s' → Q a s → Q a s') : ∀ {l : List α} {s : Search}, s.Of p →
      (∀ a ∈ l, ∀ s', s'.Of p → s.program.types ≤ s'.program.types → Does c n s' (f a) (Q a)) →
      Does c n s (l.forM f) fun s' => ∀ a ∈ l, Q a s'
  | [], s, _, _ => fun _ => ⟨.refl s, fun _ _ h => nomatch h⟩
  | a :: l, s, hs, h => fun hfinal => by
    have hgrows := hfinds a s
    have hrest : Grows (f a s).2 (l.forM f (f a s).2).2 := Finds.forM hfinds l _
    obtain ⟨hfirst, hQ⟩ := h a (by simp) s hs le_rfl (hrest.trans hfinal)
    obtain ⟨hlater, hQs⟩ := forM hfinds hkept (hs.grow hgrows)
      (fun b hb s' hs' hle' => h b (by simp [hb]) s' hs' (hgrows.le.trans hle')) hfinal
    refine ⟨hfirst.trans hlater, fun hend => forall_mem_cons.2 ⟨?_, hQs hend⟩⟩
    exact hkept a _ _ hlater (hQ (hlater.steady hend))

end Does

lemma extends_build {make : TypeM α} (grows : ∀ now, now ≤ (make now).2) : Extends c n s (build make s).2 :=
  .of_same (finds_build grows s) (funext fun x => by cases x <;> rfl) rfl rfl rfl rfl id .inl

lemma does_needs {answer : Request → SearchM Unit} (hfinds : ∀ r, Finds (answer r))
    (hs : s.Of p) (hknown : c.Knows s.program.types x) (hlists : c.final.Lists x)
    (hanswer : ∀ need ∈ needs p c.types x, ∀ (before : TypeTable) (s : Search), s.Of p →
      (∀ y, (need.make before).1.Asks p s.program.types y → c.Knows s.program.types y) →
        Does c n s (answer (need.make before).1) fun s' =>
          ∀ y, (need.make before).1.Asks p s.program.types y → s'.Has y) :
    Does c n s ((needs p c.types x).forM fun need => build need.make >>= answer) (·.Settled c x) := by
  refine Does.forM (fun need => (finds_build need.grows).bind hfinds)
    (fun _ _ _ hlater hmet => hmet.mono hlater.le hlater.kept) hs fun need hneed s' hs' hle hfinal => ?_
  have hmade : Extends c n s' (build need.make s').2 := extends_build need.grows
  have hafter := (hfinds (need.make s'.program.types).1 (build need.make s').2).le
  obtain ⟨hextends, hhas⟩ := hanswer need hneed s'.program.types _ (hs'.grow hmade.toGrows)
    (fun y hy => c.need (c.mono hle hknown) hlists hneed hs'.le (hafter.trans hfinal.le) hy) hfinal
  exact ⟨hmade.trans hextends, fun hend => ⟨s'.program.types, hs'.le, hafter, hhas hend⟩⟩

/-! ## Types -/

/-- Noting a type finds the types that occur in it, within a nesting of `n`. -/
structure Notes (c : Plan p) (n : Nat) (note : TypeId → SearchM Unit) : Prop where
  finds : ∀ id, Finds (note id)
  does : ∀ (id : TypeId) (s : Search), s.Of p →
    (∀ found, s.program.types.Meets id found → c.Knows s.program.types (.type found)) →
      Does c n s (note id) fun s' => ∀ found, s.program.types.Meets id found → found ∈ s'.types

variable {note : TypeId → SearchM Unit}

def noteAsked (note : TypeId → SearchM Unit) : Request → SearchM Unit
  | .type id => note id
  | _ => pure ()

lemma finds_noteAsked (hfinds : ∀ id, Finds (note id)) (r : Request) : Finds (noteAsked note r) := by
  cases r with
  | type id => exact hfinds id
  | _ => exact .pure ()

lemma does_noteAsked (hnotes : Notes c n note) (hs : s.Of p)
    (hknown : ∀ y, Request.Asks p s.program.types (.type id) y → c.Knows s.program.types y) :
    Does c n s (noteAsked note (.type id)) fun s' =>
      ∀ y, Request.Asks p s.program.types (.type id) y → s'.Has y := by
  intro hfinal
  obtain ⟨hextends, hfound⟩ := hnotes.does id s hs (fun found hmeets => hknown _ ⟨found, rfl, hmeets⟩) hfinal
  refine ⟨hextends, fun hend => ?_⟩
  rintro _ ⟨found, rfl, hmeets⟩
  exact hfound hend found hmeets

def noteMembers (note : TypeId → SearchM Unit) (decl : DefId) (args : List TypeId) : SearchM Unit := do
  let (generics, groups) := (← get).program.memberGroups decl
  groups.flatten.forM fun member => build (TypeM.subst (Program.bindings generics args) member) >>= note

def noteNamed (note : TypeId → SearchM Unit) (id : TypeId) : TypeShape → SearchM Unit
  | .named decl _ args => do if ← recordType id then noteMembers note decl args
  | _ => pure ()

lemma noteParts_succ (m : Nat) (id : TypeId) (s : Search) : noteParts note (m + 1) id s =
    ((s.program.types.shape id).contents.forM (noteParts note m) >>= fun _ =>
      noteNamed note id (s.program.types.shape id)) s := by
  rw [noteParts, get_bind]
  cases s.program.types.shape id <;> rfl

lemma finds_noteMembers (hfinds : ∀ id, Finds (note id)) (decl : DefId) (args : List TypeId) :
    Finds (noteMembers note decl args) :=
  Finds.get_bind fun _ => Finds.forM (fun _ => finds_subst.bind fun _ => hfinds _) _

lemma finds_noteNamed (hfinds : ∀ id, Finds (note id)) (id : TypeId) (shape : TypeShape) :
    Finds (noteNamed note id shape) := by
  cases shape with
  | named decl name args =>
    refine finds_recordType.bind fun isNew => ?_
    cases isNew with
    | true => exact finds_noteMembers hfinds decl args
    | false => exact .pure ()
  | _ => exact .pure ()

lemma finds_noteParts (hfinds : ∀ id, Finds (note id)) : ∀ m id, Finds (noteParts note m id)
  | 0, _ => .pure ()
  | m + 1, id => by
    intro s
    rw [noteParts_succ]
    exact ((Finds.forM (finds_noteParts hfinds m) _).bind fun _ => finds_noteNamed hfinds id _) s

lemma does_noteMembers (hnotes : Notes c n note) {name : String} (hs : s.Of p)
    (hshape : c.types.shape id = .named decl name args) (hknown : c.Knows s.program.types (.type id))
    (hlists : id ∈ c.final.types) : Does c n s (noteMembers note decl args) (·.Settled c (.type id)) := by
  have hgroups : s.program.memberGroups decl = p.memberGroups decl := by rw [hs.program]; rfl
  have hneeds : needs p c.types (.type id) = (p.memberGroups decl).2.flatten.map fun member =>
      .mention (Program.bindings (p.memberGroups decl).1 args) (.exprType member) := by
    rw [needs, hshape]
  have hrun : noteMembers note decl args s =
      (needs p c.types (.type id)).forM (fun need => build need.make >>= noteAsked note) s := by
    rw [noteMembers, get_bind, hgroups, hneeds]
    simp only [forM_eq_forM, forM_map]
    rfl
  unfold Does
  rw [hrun]
  refine does_needs (finds_noteAsked hnotes.finds) hs hknown hlists fun need hneed before s' hs' hasked => ?_
  rw [hneeds] at hneed
  obtain ⟨member, _, rfl⟩ := mem_map.1 hneed
  exact does_noteAsked hnotes hs' hasked

/-- A named type is recorded and, if it is new, the types of its members are noted. They may be nested
one less deep, since one more type has been found. -/
lemma does_noteNamed (hnotes : Notes c n note) {now : TypeTable} (hs : s.Of p) (hnow : now ≤ s.program.types)
    (hknown : (now.shape id).isNamed → now.hasParams id = false → c.Knows now (.type id)) :
    Does c (n + 1) s (noteNamed note id (now.shape id)) fun s' =>
      (now.shape id).isNamed → now.hasParams id = false → id ∈ s'.types := by
  unfold Does
  cases hshape : now.shape id with
  | named decl name args =>
    rw [hshape] at hknown
    have hheld : now.Holds id := TypeTable.holds_of_shape (by rw [hshape]; nofun)
    have hparams : s.program.types.hasParams id = now.hasParams id := TypeTable.any_eq_of_le hnow _ id hheld
    have hrun : noteNamed note id (.named decl name args) s = (if (recordType id s).1 then
        noteMembers note decl args else pure () : SearchM Unit) (recordType id s).2 := rfl
    cases hold : s.program.types.hasParams id || s.types.contains id with
    | true =>
      rw [show recordType id s = (false, s) from if_pos hold] at hrun
      rw [show noteNamed note id (.named decl name args) s = ((), s) from hrun]
      refine fun _ => ⟨.refl s, fun _ _ hno => ?_⟩
      rw [hparams, hno, Bool.false_or] at hold
      exact contains_iff_mem.1 hold
    | false =>
      rw [show recordType id s = (true, s.add (.type id)) from if_neg (by rw [hold]; exact Bool.false_ne_true)] at hrun
      rw [show noteNamed note id (.named decl name args) s = noteMembers note decl args (s.add (.type id)) from hrun]
      intro hfinal
      have hnew : ¬ s.Has (.type id) := fun hmem => by simp [show id ∈ s.types from hmem] at hold
      have hknown := c.mono hnow (hknown rfl (hparams ▸ (Bool.or_eq_false_iff.1 hold).1))
      have hlater := finds_noteMembers hnotes.finds decl args (s.add (.type id))
      have hend := hlater.trans hfinal
      have htable := TypeTable.shape_eq_of_le (hnow.trans hend.le) hheld
      obtain ⟨hmembers, hmet⟩ := does_noteMembers hnotes (hs.grow (grows_add hnew)) (htable.trans hshape)
        hknown (hend.types id (.head _)) hfinal
      refine ⟨.add hnew hmembers hknown (fun hend => .inr (hmet hend)) ?_, fun _ _ _ => hlater.types id (.head _)⟩
      rw [Search.add, length_cons]
      omega
  | _ => exact fun _ => ⟨.refl s, fun _ h => nomatch h⟩

/-- By induction on the bound of the handles: the parts of a type have smaller ones. -/
lemma does_noteParts (hnotes : Notes c n note) (hm : id.index < m) (hs : s.Of p)
    (hknown : ∀ found, s.program.types.Meets id found → c.Knows s.program.types (.type found)) :
    Does c (n + 1) s (noteParts note m id) fun s' =>
      ∀ found, s.program.types.Meets id found → found ∈ s'.types := by
  induction m generalizing id s with
  | zero => exact absurd hm (Nat.not_lt_zero _)
  | succ m ih =>
    unfold Does
    rw [noteParts_succ, run_bind]
    have hcontents : Does c (n + 1) s ((s.program.types.shape id).contents.forM (noteParts note m)) fun s' =>
        ∀ part ∈ (s.program.types.shape id).contents, ∀ found,
          s.program.types.Meets part found → found ∈ s'.types := by
      refine Does.forM (finds_noteParts hnotes.finds m)
        (fun _ _ _ hlater h found hmeets => hlater.types _ (h found hmeets)) hs fun part hpart s' hs' hle hfinal => ?_
      have hmem := TypeShape.mem_parts_of_mem_contents hpart
      have hheld : s.program.types.Holds id :=
        TypeTable.holds_of_shape fun herror => by rw [herror] at hmem; cases hmem
      have hpartHeld := hheld.part hmem
      have hlt := s.program.types.parts_shape_lt hmem
      obtain ⟨hextends, hfound⟩ := ih (by omega) hs'
        (fun found hmeets => c.mono hle (hknown found (.part hpart (hmeets.of_later hle hpartHeld)))) hfinal
      exact ⟨hextends, fun hend found hmeets => hfound hend found (hmeets.of_le hle hpartHeld)⟩
    intro hfinal
    have hlater := finds_noteNamed hnotes.finds id (s.program.types.shape id)
      ((s.program.types.shape id).contents.forM (noteParts note m) s).2
    obtain ⟨hextends, hfound⟩ := hcontents (hlater.trans hfinal)
    obtain ⟨hnamed, hid⟩ := does_noteNamed hnotes (hs.grow hextends.toGrows) hextends.le
      (fun hn hp => hknown id (.here hn hp)) hfinal
    refine ⟨hextends.trans hnamed, fun hend found hmeets => ?_⟩
    cases hmeets with
    | here hn hp => exact hid hend hn hp
    | part hpart hmeets => exact hnamed.types _ (hfound (hnamed.steady hend) _ hpart found hmeets)

lemma notes : ∀ bound, Notes c bound (noteType bound)
  | 0 => ⟨fun id => (exploring_noteType 0 id).finds, fun _ s _ _ _ =>
      ⟨.of_same (finds_exhaust s) (funext fun x => by cases x <;> rfl) rfl rfl rfl rfl nofun fun _ => .inr rfl, nofun⟩⟩
  | bound + 1 => ⟨fun id => (exploring_noteType (bound + 1) id).finds, fun id _ hs hknown =>
      does_noteParts (notes bound) (Nat.lt_succ_self _) hs hknown⟩

/-! ## Requests -/

lemma does_request (hs : s.Of p) (hknown : c.Knows s.program.types (callee p decl args)) :
    Does c n s (request decl args) fun s' => s'.Has (callee p decl args) := by
  intro _
  have hrun : (request decl args s).2 = if (p.function? decl).any (·.isForeign) then
      if s.foreign.contains decl then s else s.add (.foreign decl)
    else if s.requested.contains (decl, args) then s else s.add (.function decl args) := by
    rw [← hs.function?]
    rfl
  rw [hrun]
  unfold callee at hknown ⊢
  generalize (p.function? decl).any (·.isForeign) = isForeign at hknown ⊢
  cases isForeign with
  | true =>
    cases hold : s.foreign.contains decl with
    | true => exact ⟨.refl s, fun _ => contains_iff_mem.1 hold⟩
    | false =>
      have hnew : ¬ s.Has (.foreign decl) := by simpa [Search.Has] using hold
      exact ⟨.add hnew (.refl _) hknown (fun _ => .inr nofun) (Nat.le_refl _), fun _ => .head _⟩
  | false =>
    cases hold : s.requested.contains (decl, args) with
    | true => exact ⟨.refl s, fun _ => contains_iff_mem.1 hold⟩
    | false =>
      have hnew : ¬ s.Has (.function decl args) := by simpa [Search.Has] using hold
      exact ⟨.add hnew (.refl _) hknown (fun _ => .inl (.head _)) (Nat.le_refl _), fun _ => .head _⟩

lemma does_noteGlobal (hs : s.Of p) (hknown : c.Knows s.program.types (.global decl)) :
    Does c bound s (noteGlobal bound decl) fun s' => s'.Has (.global decl) := by
  unfold Does
  cases hold : s.globals.contains decl with
  | true =>
    rw [noteGlobal_of_mem hold]
    exact fun _ => ⟨.refl s, fun _ => contains_iff_mem.1 hold⟩
  | false =>
    have hnew : ¬ s.Has (.global decl) := by simpa [Search.Has] using hold
    have hglobal : s.program.global? decl = p.global? decl := by rw [hs.program]; rfl
    have hrun : noteGlobal bound decl s = (needs p c.types (.global decl)).forM
        (fun need => build need.make >>= noteAsked (noteType bound)) (s.add (.global decl)) := by
      rw [noteGlobal_of_new hold, hglobal, needs]
      cases p.global? decl <;> rfl
    rw [hrun]
    intro hfinal
    have hasked := finds_noteAsked fun id => (exploring_noteType bound id).finds
    have hrest := Finds.forM (fun need : Need => (finds_build need.grows).bind hasked) (needs p c.types (.global decl))
    have hlists := ((hrest _).trans hfinal).globals decl (.head _)
    obtain ⟨hextends, hsettled⟩ := does_needs hasked (hs.grow (grows_add hnew)) hknown hlists
      (fun need hneed before s' hs' hasked => by
        obtain ⟨g, _, rfl⟩ := mem_map.1 hneed
        exact does_noteAsked (notes bound) hs' hasked) hfinal
    exact ⟨.add hnew hextends hknown (fun hend => .inr (hsettled hend)) (Nat.le_refl _),
      fun _ => hextends.kept _ (has_add.2 (.inl rfl))⟩

def answer (bound : Nat) : Request → SearchM Unit
  | .type id => noteType bound id
  | .global decl => noteGlobal bound decl
  | .call decl args => request decl args
  | .method traitDef name selfType => do
    match (← get).program.traitMethod? traitDef name selfType with
    | some (decl, args) => request decl args
    | none => return

lemma follow_eq (bound : Nat) (b : Subst) (m : Typed.Mention) :
    follow bound b m = build (Need.mention b m).make >>= answer bound := by
  cases m <;> rfl

lemma finds_answer (r : Request) : Finds (answer bound r) := by
  cases r with
  | type id => exact (exploring_noteType bound id).finds
  | global decl => exact exploring_noteGlobal.finds
  | call decl args => exact finds_request
  | method traitDef name selfType =>
    refine .get_bind fun s => ?_
    split
    · exact finds_request
    · exact .pure ()

lemma does_answer (r : Request) (hs : s.Of p) (hknown : ∀ x, r.Asks p s.program.types x → c.Knows s.program.types x) :
    Does c bound s (answer bound r) fun s' => ∀ x, r.Asks p s.program.types x → s'.Has x := by
  cases r with
  | type id => exact does_noteAsked (notes bound) hs hknown
  | global decl =>
    refine fun hfinal => (does_noteGlobal hs (hknown _ rfl) hfinal).imp (fun h => h) fun hhas hend => ?_
    rintro _ rfl
    exact hhas hend
  | call decl args =>
    refine fun hfinal => (does_request hs (hknown _ rfl) hfinal).imp (fun h => h) fun hhas hend => ?_
    rintro _ rfl
    exact hhas hend
  | method traitDef name selfType =>
    have hrun : answer bound (.method traitDef name selfType) s =
        (match (p.withTypes s.program.types).traitMethod? traitDef name selfType with
        | some (decl, args) => request decl args
        | none => pure () : SearchM Unit) s := by
      rw [← hs.program]
      rfl
    unfold Does
    rw [hrun]
    simp only [Request.Asks] at hknown ⊢
    cases hfound : (p.withTypes s.program.types).traitMethod? traitDef name selfType with
    | none => exact fun _ => ⟨.refl s, fun _ _ ⟨_, _, hsome, _⟩ => nomatch hsome⟩
    | some found =>
      refine fun hfinal => (does_request hs (hknown _ ⟨_, _, hfound, rfl⟩) hfinal).imp (fun h => h) fun hhas hend => ?_
      rintro _ ⟨decl, args, hsome, rfl⟩
      cases hsome
      exact hhas hend

/-! ## Visits -/

lemma explore_eq {table : TypeTable} (hf : p.function? decl = some f) :
    explore bound f (Program.bindings f.generics args) =
      (needs p table (.function decl args)).forM fun need => build need.make >>= answer bound := by
  have hfollow := funext (follow_eq bound (Program.bindings f.generics args))
  unfold explore needs
  simp only [hf, hfollow]
  cases f.body <;> simp [forM_append, forM_map]

/-- A state of the search with the requests that are being visited. All others are pending or have
been visited, each once, and the needs of all else are met. -/
structure Ready (c : Plan p) (bound : Nat) (current : List (DefId × List TypeId)) (s : Search) : Prop extends Search.Of p s where
  known : ∀ x, s.Has x → c.Knows s.program.types x
  types : s.types.Nodup
  distinct : s.requested.Nodup
  visited : ∃ undefined, s.requested.Perm (s.pending ++ (current ++ (s.functions.toList.map key ++ undefined))) ∧
    ∀ r ∈ undefined, p.function? r.1 = none
  settled : s.exhausted = false → ∀ x, s.Has x → s.Awaits x ∨ s.Settled c x ∨ ∃ r ∈ current, x = .function r.1 r.2
  many : s.exhausted → bound ≤ s.types.length

lemma Ready.extend (h : Ready c bound current s)
    (hextends : Extends c bound s s') : Ready c bound current s' where
  toOf := h.toOf.grow hextends.toGrows
  known x hx := (hextends.new x hx).elim (fun hx => c.mono hextends.le (h.known x hx)) (·.1)
  types := hextends.nodup h.types
  distinct := hextends.distinct h.distinct
  visited := by
    obtain ⟨new, hrequested, hpending⟩ := hextends.requests
    obtain ⟨undefined, hperm, hnone⟩ := h.visited
    rw [hrequested, hpending, hextends.same]
    exact ⟨undefined, by rw [append_assoc]; exact hperm.append_left new, hnone⟩
  settled hend x hx := by
    rcases hextends.new x hx with hx | hx
    · exact (h.settled (hextends.steady hend) x hx).imp (hextends.awaits x) (.imp hextends.settled fun h => h)
    · exact (hx.2 hend).imp (fun h => h) .inl
  many hend := by
    rcases hextends.ends hend with hend | hends
    · exact Nat.le_trans (h.many hend) hextends.count
    · omega

lemma ready_visit (h : Ready c bound [(decl, args)] s) (hknown : c.Knows s.program.types (.function decl args))
    (hfinal : Grows (visit bound decl args s).2 c.final) :
    Ready c bound [] (visit bound decl args s).2 ∧ Queues s (visit bound decl args s).2 ∧
      Keeps s (visit bound decl args s).2 := by
  cases hf : p.function? decl with
  | none =>
    rw [visit_of_none ((h.function? decl).trans hf)]
    obtain ⟨undefined, hperm, hnone⟩ := h.visited
    refine ⟨{ h with
      visited := ⟨(decl, args) :: undefined, ?_, forall_mem_cons.2 ⟨hf, hnone⟩⟩
      settled := fun hend x hx => ?_ }, ⟨[], rfl, rfl⟩, fun _ h => h, fun h => h⟩
    · rw [perm_iff_count] at hperm ⊢
      intro r
      have := hperm r
      simp only [count_append, count_cons, count_nil] at this ⊢
      omega
    · refine (h.settled hend x hx).imp (fun h => h) fun hx => .inl (hx.elim (fun h => h) ?_)
      rintro ⟨r, hr, rfl⟩
      rw [mem_singleton.1 hr, Search.Settled, needs, hf]
      nofun
  | some f =>
    have hvisit : (visit bound decl args s).2 = _ := visit_of_function ((h.function? decl).trans hf)
    rw [explore_eq hf] at hvisit
    rw [hvisit] at hfinal ⊢
    obtain ⟨hextends, hsettled⟩ := does_needs finds_answer h.toOf hknown
      ⟨_, hfinal.functions _ Array.mem_push_self, rfl⟩
      (fun need _ before s' hs' hasked => does_answer _ hs' hasked) (grows_found.trans hfinal)
    have hready := h.extend hextends
    obtain ⟨undefined, hperm, hnone⟩ := hready.visited
    refine ⟨{ hready with
      visited := ⟨undefined, ?_, hnone⟩
      settled := fun hend x hx => ?_ }, hextends.requests, hextends.kept, hextends.steady⟩
    · rw [perm_iff_count] at hperm ⊢
      intro r
      have := hperm r
      simp only [Search.found, Array.toList_push, map_append, map_cons, map_nil, key,
        count_append, count_cons, count_nil] at this ⊢
      omega
    · refine (hready.settled hend x hx).imp (fun h => h) fun hx => .inl (hx.elim (fun h => h) ?_)
      rintro ⟨r, hr, rfl⟩
      rw [mem_singleton.1 hr]
      exact hsettled hend

def Plan.Overflows (c : Plan p) (bound : Nat) : Prop :=
  ∃ found : List Target, found.Nodup ∧ (∀ x ∈ found, c.Knows c.types x) ∧ bound ≤ found.length

lemma overflows_of_map {f : α → Target} (hinj : Function.Injective f) {l : List α} (hnodup : l.Nodup)
    (hknown : ∀ a ∈ l, c.Knows c.types (f a)) (hmany : bound ≤ l.length) : c.Overflows bound :=
  ⟨l.map f, pairwise_map.2 (hnodup.imp fun hne heq => hne (hinj heq)), forall_mem_map.2 hknown, by rwa [length_map]⟩

variable {r : DefId × List TypeId}

lemma Ready.pop (h : Ready c bound [] s)
    (hpending : s.pending = r :: rest) : Ready c bound [(r.1, r.2)] { s with pending := rest } where
  toOf := ⟨h.program, h.le⟩
  known := h.known
  types := h.types
  distinct := h.distinct
  visited := by
    obtain ⟨undefined, hperm, hnone⟩ := h.visited
    rw [hpending] at hperm
    exact ⟨undefined, hperm.trans perm_middle.symm, hnone⟩
  settled hend x hx := by
    rcases h.settled hend x hx with hx | hx | ⟨_, hx, _⟩
    · cases x with
      | function decl args =>
        rcases mem_cons.1 (hpending ▸ hx : (decl, args) ∈ r :: rest) with rfl | hx
        · exact .inr (.inr ⟨_, .head _, rfl⟩)
        · exact .inl hx
      | _ => cases hx
    · exact .inr (.inl hx)
    · cases hx
  many := h.many

lemma Ready.known_pending (h : Ready c bound [] s)
    (hpending : s.pending = r :: rest) : c.Knows s.program.types (.function r.1 r.2) := by
  obtain ⟨_, hperm, _⟩ := h.visited
  refine h.known (.function r.1 r.2) (hperm.mem_iff.2 ?_)
  rw [hpending]
  exact mem_append_left _ (.head _)

lemma ready_visitPending : ∀ n {s}, Ready c bound [] s →
    Grows (visitPending bound n s).2 c.final → bound + s.pending.length ≤ n + s.requested.length →
      ((visitPending bound n s).2.exhausted → c.Overflows bound) ∧
        ((visitPending bound n s).2.exhausted = false → Ready c bound [] (visitPending bound n s).2 ∧
          (visitPending bound n s).2.pending = [] ∧ Keeps s (visitPending bound n s).2)
  | 0, s, h, hfinal, hcount => by
    refine ⟨fun _ => ?_, nofun⟩
    refine overflows_of_map (f := fun r => .function r.1 r.2)
      (fun _ _ hab => Prod.ext (Target.function.inj hab).1 (Target.function.inj hab).2) h.distinct
      (fun r hr => c.mono ((finds_exhaust s).trans hfinal).le (h.known (.function r.1 r.2) hr)) ?_
    omega
  | n + 1, s, h, hfinal, hcount => by
    cases hpending : s.pending with
    | nil =>
      rw [visitPending_nil hpending] at hfinal ⊢
      refine ⟨fun hend => ?_, fun _ => ⟨h, hpending, fun _ h => h, fun h => h⟩⟩
      exact overflows_of_map (fun _ _ => Target.type.inj) h.types
        (fun id hid => c.mono hfinal.le (h.known (.type id) hid)) (h.many hend)
    | cons r rest =>
      rw [visitPending_cons hpending] at hfinal ⊢
      obtain ⟨hvisited, ⟨new, hrequested, hnew⟩, hkept⟩ := ready_visit (h.pop hpending)
        (h.known_pending hpending) ((finds_visitPending n _).trans hfinal)
      have hleft : bound + (visit bound r.1 r.2 { s with pending := rest }).2.pending.length ≤
          n + (visit bound r.1 r.2 { s with pending := rest }).2.requested.length := by
        rw [hrequested, hnew, length_append, length_append]
        rw [hpending, length_cons] at hcount
        dsimp only
        omega
      refine (ready_visitPending n hvisited hfinal hleft).imp (fun h => h) fun hrest hend => ?_
      obtain ⟨hready, hempty, hlater⟩ := hrest hend
      exact ⟨hready, hempty, fun x hx => hlater.kept x (hkept.kept x hx), fun h => hkept.steady (hlater.steady h)⟩

/-! ## The whole search -/

lemma addRoot_eq (hs : s.Of p) (decl : DefId) :
    addRoot bound decl s = ((root? p decl).elim (pure ()) (answer bound) : SearchM Unit) s := by
  have hgiven : isGiven s.program (s.program.getDef decl) = isGiven p (p.getDef decl) := by
    rw [hs.program]
    rfl
  have hkind : (s.program.getDef decl).kind = (p.getDef decl).kind := by rw [hs.program]; rfl
  unfold addRoot root?
  rw [get_bind, hgiven, hkind]
  split
  · cases (p.getDef decl).kind with
    | function f => dsimp only; split <;> rfl
    | _ => rfl
  · rfl

lemma asks_root {r : Request} (h : root? p decl = some r) (now : TypeTable) : r.Asks p now = r.Asks p p.types := by
  unfold root? at h
  split at h
  · split at h
    · split at h <;> cases h
      rfl
    all_goals cases h
    all_goals rfl
  · cases h

lemma does_addRoot (hs : s.Of p) (hdecl : decl.index < p.defs.size) :
    Does c bound s (addRoot bound decl) fun s' =>
      ∀ r, root? p decl = some r → ∀ x, r.Asks p p.types x → s'.Has x := by
  unfold Does
  rw [addRoot_eq hs]
  cases hroot : root? p decl with
  | none => exact fun _ => ⟨.refl s, nofun⟩
  | some r =>
    intro hfinal
    have hasks := asks_root hroot s.program.types
    refine (does_answer r hs (fun x hx => c.mono hs.le (c.root hdecl hroot (hasks ▸ hx))) hfinal).imp (fun h => h) ?_
    rintro hall hend _ ⟨⟩ x hx
    exact hall hend x (hasks ▸ hx)

lemma ready_start (naming : Naming) : Ready c bound [] { program := p, naming } := by
  refine ⟨⟨rfl, le_rfl⟩, fun x hx => ?_, .nil, .nil, ⟨[], .refl _, nofun⟩, fun _ x hx => ?_,
    nofun⟩ <;> cases x <;> cases hx

/-- The state of a search that has asked for what it starts with. -/
def started (bound : Nat) (p : Program) (naming : Naming) : Search :=
  ((List.range p.defs.size).forM (fun i => addRoot bound ⟨i⟩) { program := p, naming : Search }).2

lemma does_start (naming : Naming) : Does c bound { program := p, naming }
    ((List.range p.defs.size).forM fun i => addRoot bound ⟨i⟩) fun s' => ∀ i ∈ List.range p.defs.size,
      ∀ r, root? p ⟨i⟩ = some r → ∀ x, r.Asks p p.types x → s'.Has x :=
  Does.forM (Q := fun i s' => ∀ r, root? p ⟨i⟩ = some r → ∀ x, r.Asks p p.types x → s'.Has x)
    (fun _ => finds_addRoot) (fun _ _ _ hlater h r hr x hx => hlater.kept x (h r hr x hx))
    ⟨rfl, le_rfl⟩ (fun _ hi _ hs' _ => does_addRoot hs' (mem_range.1 hi))

lemma ready_search (hc : (search bound { program := p, naming }).2 = c.final) :
    (c.final.exhausted → c.Overflows bound) ∧ (c.final.exhausted = false →
      Ready c bound [] c.final ∧ c.final.pending = [] ∧ ∀ decl, decl.index < p.defs.size → ∀ r,
        root? p decl = some r → ∀ x, r.Asks p p.types x → c.final.Has x) := by
  have hrun : (visitPending bound bound (started bound p naming)).2 = c.final := hc
  have hfinal : Grows (visitPending bound bound (started bound p naming)).2 c.final := hrun ▸ .refl _
  obtain ⟨hroots, hasked⟩ := does_start naming ((finds_visitPending bound _).trans hfinal)
  obtain ⟨new, hrequested, hpending⟩ := hroots.requests
  have hcount : (started bound p naming).pending.length = (started bound p naming).requested.length :=
    (congrArg List.length hpending).trans (congrArg List.length hrequested).symm
  have hstarted : Ready c bound [] (started bound p naming) := (ready_start naming).extend hroots
  have hends := ready_visitPending bound hstarted hfinal (Nat.le_of_eq (congrArg (bound + ·) hcount))
  rw [hrun] at hends
  refine hends.imp (fun h => h) fun hends hend => ?_
  obtain ⟨hready, hempty, hlater⟩ := hends hend
  exact ⟨hready, hempty, fun decl hdecl r hr x hx => hlater.kept x
    (hasked (hlater.steady hend) decl.index (mem_range.2 hdecl) r hr x hx)⟩

end Instance

end Kite
