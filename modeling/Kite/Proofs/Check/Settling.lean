/-
What checking does while bodies and values are worked out. Reports, types and symbols are added, and
declarations that were pending get their bodies, types and values, each of them once it was entered
and what it asks for was settled. Everything else stays as it was.
-/
import Kite.Check.Settle
import Kite.Proofs.Eval.Host

namespace Kite

variable {bound : DeferredBound}

namespace TypeM

lemma intern_le (shape : TypeShape) (table : TypeTable) : table ≤ (intern shape table).2 :=
  (TypeTable.intern_spec shape table).1

lemma bind_le {x : TypeM α} {f : α → TypeM β} (hx : ∀ table, table ≤ (x table).2)
    (hf : ∀ a table, table ≤ (f a table).2) (table : TypeTable) : table ≤ ((x >>= f) table).2 :=
  (hx table).trans (hf _ _)

end TypeM

/-- What is worked out for a declaration: the body of a function, the initializer and the value of a
global. -/
def DefKind.settled (kind : DefKind) : Option Typed.Body × Option Typed.Body × Option Value :=
  (kind.body?, kind.init?, kind.value?)

namespace Check

lemma run_program (c : Checker) : (program : CheckM Program) c = (c.program, c) := rfl

lemma run_stageOf (id : DefId) (c : Checker) : stageOf id c = (c.stages.lookup id, c) := rfl

/-! ## Steps -/

namespace Checker

/-- The state in which the body of a declaration is under way. -/
def entering (c : Checker) (id : DefId) : Checker := { c with stages := (id, .inProgress) :: c.stages }

def typing (c : Checker) (id : DefId) (pending : PendingGlobal) : Checker :=
  { c with globals := (id, { pending with typed := true }) :: c.globals }

/-- The state with the body of a function; the result type may come from it. -/
def withBody (c : Checker) (id : DefId) (infersResult : Bool) (body : Typed.Body) (symbols : SymbolIndex) : Checker :=
  let c := (modifyFunction id (fun f => { f with
    result := if infersResult then body.expr.type else f.result
    body := some body }) c).2
  { c with program := { c.program with symbols }, stages := (id, .done) :: c.stages }

def withValue (c : Checker) (id : DefId) (infersType : Bool) (init : Typed.Body) (value : Option Value) : Checker :=
  let c := (modifyGlobal id (fun g => { g with
    type := if g.type == .error && infersType then init.expr.type else g.type
    init := some init
    value }) c).2
  { c with stages := (id, if value.isSome then .done else .failed) :: c.stages }

end Checker

/-- Evaluating the body over a later program gives the value again, if that program is steady. -/
def Reproducible (limits : EvalLimits) (body : Typed.Body) (v : Value) (p : Program) : Prop :=
  ∀ q : Program, p.Later q → q.steadyCalls → body.expr.steady q →
    (Eval.evaluate (.stored q) limits body.expr body.locals.size ()).1 = .ok v

/-- What is pending has no body and no value yet, and values that are there can be worked out again. -/
structure Checker.Ordered (c : Checker) : Prop where
  pending : ∀ id, c.stages.lookup id = some .pending → (c.program.kind id).settled = (none, none, none)
  isGlobal : ∀ id, (c.globals.lookup id).isSome → (c.program.kind id).global?.isSome
  value : ∀ id init v, (c.program.kind id).init? = some init → (c.program.kind id).value? = some v →
    Reproducible c.limits init v c.program

/-- From one state to another while bodies and values are worked out. -/
inductive Settles : Checker → Checker → Prop where
  | refl (c : Checker) : Settles c c
  | trans {a b c : Checker} (h : Settles a b) (h' : Settles b c) : Settles a c
  | emit (d : Diagnostic) (c : Checker) : Settles c { c with diagnostics := c.diagnostics.push d }
  | types {table : TypeTable} {c : Checker} (h : c.program.types ≤ table) :
    Settles c { c with program := { c.program with types := table } }
  | symbols (symbols : SymbolIndex) (c : Checker) : Settles c { c with program := { c.program with symbols } }
  | bound {waiting : Array DeferredBound} {c : Checker} (bound : DeferredBound)
    (h : c.deferredBounds = some waiting) :
    Settles c { c with deferredBounds := some (waiting.push bound) }
  | typed {id : DefId} {pending : PendingGlobal} {c : Checker} (hpending : c.globals.lookup id = some pending)
    (huntyped : pending.typed = false) : Settles c (c.typing id pending)
  | globalType {id : DefId} {pending : PendingGlobal} {c c' : Checker} (type : TypeId)
    (hpending : c.globals.lookup id = some pending) (huntyped : pending.typed = false)
    (h : Settles (c.typing id pending) c') : Settles c (modifyGlobal id (fun g => { g with type }) c').2
  | function {id : DefId} {c c' : Checker} (infersResult : Bool) (body : Typed.Body)
    (symbols : SymbolIndex) (hpending : c.stages.lookup id = some .pending)
    (h : Settles (c.entering id) c') : Settles c (c'.withBody id infersResult body symbols)
  | global {id : DefId} {c c' : Checker} (infersType : Bool) (init : Typed.Body) (value : Option Value)
    (hpending : c.stages.lookup id = some .pending) (h : Settles (c.entering id) c')
    (hvalue : c.Ordered → ∀ v, value = some v → Reproducible c'.limits init v c'.program) :
    Settles c (c'.withValue id infersType init value)

/-- A check that only settles. -/
def Settling (x : CheckM α) : Prop := ∀ c, Settles c (x c).2

/-- The same of a check inside a body. -/
def SettlingBody (x : BodyM α) : Prop := ∀ s, Settling (x s)

/-! ## Composition -/

variable {α β : Type} {x : CheckM α}

namespace Settling

lemma pure {a : α} : Settling (pure a) := fun c => .refl c

variable {f : α → CheckM β}

lemma bind (hx : Settling x) (hf : ∀ {a}, Settling (f a)) : Settling (x >>= f) := fun c => (hx c).trans (hf (x c).2)

lemma map {f : α → β} (hx : Settling x) : Settling (x >>= fun a => Pure.pure (f a)) := .bind hx .pure

lemma get : Settling (get : CheckM Checker) := fun c => .refl c

lemma ite {p : Prop} [Decidable p] {x y : CheckM α} (hx : Settling x) (hy : Settling y) :
    Settling (if p then x else y) := by
  split
  · exact hx
  · exact hy

lemma forIn {xs : List α} {f : α → PUnit → CheckM (ForInStep PUnit)}
    (h : ∀ x ∈ xs, Settling (f x ⟨⟩)) : Settling (forIn xs ⟨⟩ f) := by
  induction xs with
  | nil => exact .pure
  | cons x xs ih =>
    rw [List.forIn_cons]
    refine .bind (h x (by simp)) fun {r} => ?_
    cases r with
    | done _ => exact .pure
    | yield _ => exact ih fun y hy => h y (by simp [hy])

lemma mapM : ∀ {xs : List α}, (∀ x ∈ xs, Settling (f x)) → Settling (xs.mapM f)
  | [], _ => .pure
  | x :: xs, h => by
    rw [List.mapM_cons]
    exact .bind (h x (by simp)) <| .map (mapM fun y hy => h y (by simp [hy]))

end Settling

namespace SettlingBody

lemma pure {a : α} : SettlingBody (pure a) := fun _ => .pure

variable {f : α → BodyM β}

lemma bind {x : BodyM α} (hx : SettlingBody x) (hf : ∀ {a}, SettlingBody (f a)) :
    SettlingBody (x >>= f) := fun s => .bind (hx s) (hf _)

lemma map {x : BodyM α} {f : α → β} (hx : SettlingBody x) : SettlingBody (x >>= fun a => Pure.pure (f a)) :=
  .bind hx .pure

lemma lift (h : Settling x) : SettlingBody (liftM x : BodyM α) := fun _ c => h c

lemma get : SettlingBody (get : BodyM BodyState) := fun _ => .pure

lemma getChecker : SettlingBody (getThe Checker : BodyM Checker) := lift .get

lemma modify (f : BodyState → BodyState) : SettlingBody (modify f : BodyM PUnit) := fun _ => .pure

lemma ite {p : Prop} [Decidable p] {x y : BodyM α} (hx : SettlingBody x) (hy : SettlingBody y) :
    SettlingBody (if p then x else y) := by
  split
  · exact hx
  · exact hy

lemma forIn {xs : List α} {f : α → PUnit → BodyM (ForInStep PUnit)}
    (h : ∀ x ∈ xs, SettlingBody (f x ⟨⟩)) : SettlingBody (forIn xs ⟨⟩ f) := by
  induction xs with
  | nil => exact .pure
  | cons x xs ih =>
    rw [List.forIn_cons]
    refine .bind (h x (by simp)) fun {r} => ?_
    cases r with
    | done _ => exact .pure
    | yield _ => exact ih fun y hy => h y (by simp [hy])

lemma mapM : ∀ {xs : List α}, (∀ x ∈ xs, SettlingBody (f x)) → SettlingBody (xs.mapM f)
  | [], _ => .pure
  | x :: xs, h => by
    rw [List.mapM_cons]
    exact .bind (h x (by simp)) <| .map (mapM fun y hy => h y (by simp [hy]))

end SettlingBody

/-! ## Single steps -/

namespace Settling

lemma program : Settling program := .map .get

lemma types : Settling types := .map .get

lemma display (type : TypeId) : Settling (display type) := .map .types

lemma getDef (id : DefId) : Settling (getDef id) := .map .program

lemma stageOf {id : DefId} : Settling (stageOf id) := .map .get

lemma errors : Settling errors := .map .get

lemma emit (d : Diagnostic) : Settling (emit d) := fun c => .emit d c

lemma report {problem : Problem} : Settling (report span problem) := .emit _

lemma reportFailure {failure : EvalFailure} : Settling (reportFailure failure) := .ite .pure (.emit _)

lemma build {x : TypeM α} (h : ∀ table, table ≤ (x table).2) : Settling (build x) :=
  fun c => .types (h c.program.types)

lemma buildSubst {s : Subst} {type : TypeId} : Settling (Check.build (TypeM.subst s type)) :=
  build (TypeM.subst_le s type)

lemma buildIntern {shape : TypeShape} : Settling (Check.build (TypeM.intern shape)) := build (TypeM.intern_le shape)

lemma buildTuple {items : List TypeId} : Settling (Check.build (TypeM.tuple items)) :=
  build fun table => by
    unfold TypeM.tuple
    split
    · exact le_rfl
    · exact TypeM.intern_le _ table

lemma defineSymbol {decl : Option DefId} {kind : SymbolKind} :
    Settling (defineSymbol decl name kind detail) := fun c => .symbols _ c

lemma referTo {symbol : SymbolId} : Settling (referTo span symbol) := fun c => .symbols _ c

lemma referToDef : Settling (referToDef span decl) := fun c => .symbols _ c

lemma setDetail_eq {c : Checker} : ∃ symbols,
    (Check.setDetail decl detail c).2 = { c with program := { c.program with symbols } } := by
  have hrun (f : Program → Program) : (modifyProgram f c).2 = { c with program := f c.program } := rfl
  rw [Check.setDetail, hrun]
  cases c.program.symbols.symbolFor? decl with
  | some symbol => exact ⟨_, rfl⟩
  | none => exact ⟨c.program.symbols, rfl⟩

lemma setDetail (decl : DefId) (detail : String) : Settling (setDetail decl detail) := by
  intro c
  obtain ⟨symbols, h⟩ := setDetail_eq
  rw [h]
  exact .symbols symbols c

/-! ## Names -/

lemma lookupUnqualified : Settling (lookupUnqualified unit name) := by
  refine .bind .get fun {c} => ?_
  split
  · exact .map .referToDef
  · exact .pure
  · exact .bind .program <| .map .report

lemma lookupImported {target : UnitId} : Settling (lookupImported target name) := by
  refine .bind .get fun {c} => ?_
  split
  · exact .map .referToDef
  · exact .bind .program <| .map .report

lemma lookupItem : ∀ path : List Ident, Settling (lookupItem unit path)
  | [] => .pure
  | [name] => .lookupUnqualified
  | first :: second :: _ => by
    refine .bind .get fun {c} => ?_
    dsimp only
    split
    · exact .lookupImported
    · exact .lookupUnqualified

/-! ## Bounds -/

lemma checkBound : Settling (checkBound bound) := by
  refine .bind .program fun {p} => ?_
  split
  · exact .pure
  · refine .map (.forIn fun traitDef _ => ?_)
    refine .bind .program fun {p} => .ite ?_ .pure
    exact .bind (.display _) <| .map .report

lemma checkBoundsAt : Settling (checkBoundsAt bound) := by
  intro c
  unfold Check.checkBoundsAt
  rw [get_bind]
  cases hwaiting : c.deferredBounds with
  | some waiting => exact .bound bound hwaiting
  | none => exact Settling.checkBound c

end Settling

/-! ## Demands -/

/-- What other declarations are asked for is settled, and a value that is given is there afterwards. -/
structure Demand.Settling (d : Demand) : Prop where
  function : ∀ id, Check.Settling (d.function id)
  global : ∀ id, Check.Settling (d.global id)
  globalType : ∀ id, Check.Settling (d.globalType id)
  answers : ∀ id c v, c.Ordered → (d.global id c).1 = .ok v → ((d.global id c).2.program.kind id).value? = some v

namespace Settling

variable {d : Demand} (hd : d.Settling)

include hd

lemma signature (id : DefId) (span : Span) : Settling (d.signature id span) := by
  refine .bind .get fun {c} => ?_
  split
  · refine .ite (.bind .stageOf <| .ite ?_ (hd.function id)) .pure
    exact .bind .program .report
  · exact .pure

lemma tryEvaluate (expr : Typed.Expr) (locals : Nat) : Settling (d.tryEvaluate expr locals) := by
  refine .bind .get fun {limits} c => ?_
  have hasked := @Eval.asked_evaluate _ d.host limits.limits expr locals c
  generalize (Eval.evaluate d.host limits.limits expr locals c).2 = after at hasked
  induction hasked with
  | refl c => exact .refl c
  | trans _ _ h h' => exact h.trans h'
  | functionBody id c => exact Settling.bind (hd.function id) (.map .program) c
  | globalValue id c => exact hd.global id c

lemma evaluate (expr : Typed.Expr) (locals : Nat) : Settling (d.evaluate expr locals) := by
  refine .bind .types fun {table} => .ite .pure (.bind (.tryEvaluate hd expr locals) fun {r} => ?_)
  cases r with
  | ok value => exact .pure
  | error failure => exact .map .reportFailure

end Settling

end Check

end Kite
