/-
Two evaluations of one tree side by side. The environments may differ in their hosts, their limits
and in how they call functions; the steps are the same. `Paired` says so of two computations, one
rule for each kind of step the evaluator is made of, and every tree is paired with itself. What holds
of all evaluations is then shown once for each kind of step, by induction on a pairing.
-/
import Kite.Proofs.Eval.Steady
import Kite.Typed.Jumps

namespace Kite.Eval

open TypeTable Eval

variable {σ α β : Type} {type : TypeId} {limits : EvalLimits} {m : Machine σ} {span : Span} {v : Value} {x : EvalM σ α}
  {deferred : List (EvalM σ Unit)} {f : α → EvalM σ β}

/-! ## Blocks -/

/-- Runs the statements of a block and then its tail; those that are marked run when it is left, the
last one first. -/
def runItems (tail : EvalM σ Value) : List (Bool × EvalM σ Unit) → List (EvalM σ Unit) → EvalM σ Value
  | [], deferred => do leaveBlock (← attempt tail) deferred
  | (true, d) :: rest, deferred => runItems tail rest (d :: deferred)
  | (false, x) :: rest, deferred => do
    match ← attempt x with
    | .ok _ => runItems tail rest deferred
    | .error unwind => leaveBlock (.error unwind) deferred

def blockItem (env : Env σ) : Typed.Stmt → Bool × EvalM σ Unit
  | .defer inner => (true, evalStmt env inner)
  | stmt => (false, evalStmt env stmt)

lemma evalStmts_then (env : Env σ) (tail : EvalM σ Value) : ∀ stmts deferred,
    (do
      let (result, deferred) ← evalStmts env stmts deferred
      leaveBlock (← thenTail result tail) deferred) = runItems tail (stmts.map (blockItem env)) deferred
  | [], _ => rfl
  | .defer inner :: rest, deferred => evalStmts_then env tail rest (evalStmt env inner :: deferred)
  | .letDecl _ _ :: rest, deferred | .expr _ :: rest, deferred | .whileLoop _ _ :: rest, deferred
  | .loop _ :: rest, deferred | .forRange _ _ _ _ _ :: rest, deferred | .forEach _ _ _ :: rest, deferred => by
    have ih := evalStmts_then env tail rest deferred
    rw [List.map_cons, blockItem, evalStmts, bind_assoc]
    · refine bind_congr fun r => ?_
      cases r with
      | ok _ => exact ih
      | error _ => rfl
    all_goals nofun

lemma evalBlock_eq {tail : Option Typed.Expr} :
    evalBlock env ⟨stmts, tail⟩ = runItems (evalOrVoid env tail) (stmts.map (blockItem env)) [] :=
  evalStmts_then env (evalOrVoid env tail) stmts []

/-! ## Pairings -/

def Machine.alone (m : Machine σ) : Machine Unit := { m with host := () }

/-- Two environments, and what is told of them. -/
structure Pairing (σ : Type) where
  env : Env σ
  env' : Env Unit
  seen : Program → Program → Prop
  /-- Whether the second program may be `last` where the first one is an earlier one. The second
  evaluation may then go on where the first one fails. -/
  lax : Prop
  last : Program
  /-- Whether all deferred statements are of the kind `deferred`, which do not jump, and only the
  functions `called` are called. -/
  strict : Prop
  deferred : Typed.Stmt → Prop
  called : DefId → Prop

/-- The computation is never left by a jump. -/
def Quiet (x : EvalM σ α) : Prop := ∀ m u, (x.run m).1 = .error u → ∃ failure, u = .fail failure

/-- A round of a loop that goes on counts a step within the limit. -/
def Counting (limits : EvalLimits) (round : EvalM σ Bool) : Prop :=
  ∀ m, (round.run m).1 = .ok true → m.steps < limits.steps ∧ m.steps < (round.run m).2.steps

/-- The unwinding does not jump out of `d` loops. -/
def Unwind.Inside (d : Nat) : Unwind → Prop
  | .fail _ => True
  | .ret _ => False
  | .brk | .cont => d ≠ 0

/-- The two computations are made of the same steps. Unless they may, by `j`, they do not jump out of the
`d` loops around them. -/
inductive Paired (w : Pairing σ) : Nat → Bool → {α : Type} → EvalM σ α → EvalM Unit α → Prop where
  | pure {α : Type} (a : α) : Paired w d j (pure a) (pure a)
  | fail {α : Type} (error : EvalError) (span : Span) : Paired w d j (fail error span : EvalM σ α) (fail error span)
  | ofFail {α : Type} (h : w.lax) (error : EvalError) (span : Span) (y : EvalM Unit α) :
    Paired w d j (Eval.fail error span) y
  | bind {α β : Type} {x : EvalM σ α} {y : EvalM Unit α} {f : α → EvalM σ β} {g : α → EvalM Unit β}
    (first : Paired w d j x y) (rest : ∀ a, Paired w d j (f a) (g a)) : Paired w d j (x >>= f) (y >>= g)
  | look {α : Type} {f : Machine σ → EvalM σ α} {g : Machine Unit → EvalM Unit α}
    (h : ∀ m, Paired w d j (f m) (g m.alone)) : Paired w d j (get >>= f) (get >>= g)
  | change {α : Type} (f : Frame → α × Frame) :
    Paired w d j (modifyGet fun m => ((f m.frame).1, { m with frame := (f m.frame).2 }))
      (modifyGet fun m => ((f m.frame).1, { m with frame := (f m.frame).2 }))
  | reads {α : Type} {f : Program → EvalM σ α} {g : Program → EvalM Unit α}
    (h : ∀ p p', w.seen p p' → Paired w d j (f p) (g p')) :
    Paired w d j (w.env.program >>= f) (w.env'.program >>= g)
  | global (id : DefId) (span : Span) : Paired w d j (readGlobal w.env id span) (readGlobal w.env' id span)
  | tick (span : Span) : Paired w d j (tick w.env.limits span) (tick w.env'.limits span)
  | count (n : UInt64) (span : Span) :
    Paired w d j (countSteps n span >>= fun _ => Eval.tick w.env.limits span)
      (countSteps n span >>= fun _ => Eval.tick w.env'.limits span)
  /-- A jump counts a step first. -/
  | jump {α β : Type} {x : EvalM σ α} {y : EvalM Unit α} (h : Paired w d j x y) (span : Span) {u : α → Unwind}
    (hout : j = false → ∀ a, (u a).Inside d) :
    Paired w d j (Eval.tick w.env.limits span >>= fun _ => x >>= fun a => throw (u a) : EvalM σ β)
      (Eval.tick w.env'.limits span >>= fun _ => y >>= fun a => throw (u a))
  | call (h : w.strict → w.called decl) (generics : List TypeId) (args : List Value) (span : Span) :
    Paired w d j (w.env.invoke decl generics args span) (w.env'.invoke decl generics args span)
  | loopBody {x : EvalM σ Value} {y : EvalM Unit Value} (h : Paired w (d + 1) j x y) :
    Paired w d j (loopBody x) (loopBody y)
  | whileTicking {x : EvalM σ Bool} {y : EvalM Unit Bool} (h : Paired w d j x y) (span : Span)
    (hcounting : Counting w.env.limits x) :
    Paired w d j (whileTicking w.env.limits span x) (whileTicking w.env'.limits span y)
  | block (htail : Paired w d j tail tail')
    (items : List (Bool × EvalM σ Unit × EvalM Unit Unit)) (hitems : ∀ i ∈ items, Paired w d j i.2.1 i.2.2)
    (hquiet : w.strict → ∀ i ∈ items, i.1 → Quiet i.2.1) :
    Paired w d j (runItems tail (items.map fun i => (i.1, i.2.1)) [])
      (runItems tail' (items.map fun i => (i.1, i.2.2)) [])
  | mono {i j : Bool} {α : Type} {x : EvalM σ α} {y : EvalM Unit α} (h : Paired w d i x y) (hij : i → j) : Paired w d j x y

/-! ## What every step keeps -/

/-- The machine after the counter has overflowed. -/
def Machine.stopped (m : Machine σ) : Machine σ := { m with steps := .ofNat (UInt64.size - 1) }

lemma Machine.le_stopped (m : Machine σ) : m.steps ≤ m.stopped.steps := by
  rw [UInt64.le_iff_toNat_le]
  exact Nat.le_sub_one_of_lt m.steps.toNat_lt_size

lemma run_countSteps : (countSteps n span).run m = if m.steps + n < m.steps then (.error (.fail ⟨.aborted, span⟩), m.stopped)
    else (.ok (), { m with steps := m.steps + n }) := by
  show (if m.steps + n < m.steps then modify Machine.stopped >>= fun _ => fail .aborted span
    else modify fun m => { m with steps := m.steps + n } : EvalM σ Unit).run m = _
  split <;> rfl

/-- A step is counted, unless the counter overflows. -/
lemma run_tick : (tick limits span).run m =
    if m.steps + 1 < m.steps then (.error (.fail ⟨.aborted, span⟩), m.stopped)
    else (if limits.steps < m.steps + 1 then .error (.fail ⟨.stepLimit limits.steps, span⟩) else .ok (),
      { m with steps := m.steps + 1 }) := by
  unfold tick
  rw [run_bind, run_countSteps]
  by_cases hover : m.steps + 1 < m.steps
  · rw [if_pos hover, if_pos hover]
  · rw [if_neg hover, if_neg hover]
    show (if limits.steps < m.steps + 1 then fail (.stepLimit limits.steps) span else pure () : EvalM σ Unit).run _ = _
    split <;> rfl

lemma lt_succ_of_fits {n : UInt64} (h : ¬ n + 1 < n) : n < n + 1 := by
  rw [UInt64.lt_iff_toNat_lt, UInt64.toNat_add, UInt64.toNat_one] at *
  have := n.toNat_lt
  omega

/-- A tick counts one step within the limit, or fails and has counted no less than there were. -/
lemma tick_cases (limits : EvalLimits) (span : Span) (m : Machine σ) :
    (∃ failure steps, m.steps ≤ steps ∧ (tick limits span).run m = (.error (.fail failure), { m with steps })) ∨
      m.steps < m.steps + 1 ∧ m.steps + 1 ≤ limits.steps ∧
        (tick limits span).run m = (.ok (), { m with steps := m.steps + 1 }) := by
  rw [run_tick]
  by_cases hover : m.steps + 1 < m.steps
  · rw [if_pos hover]
    exact .inl ⟨_, _, m.le_stopped, rfl⟩
  · rw [if_neg hover]
    by_cases hlimit : limits.steps < m.steps + 1
    · rw [if_pos hlimit]
      exact .inl ⟨_, _, UInt64.not_lt.1 hover, rfl⟩
    · rw [if_neg hlimit]
      exact .inr ⟨lt_succ_of_fits hover, UInt64.not_lt.1 hlimit, rfl⟩

lemma run_tick_of_lt (h : m.steps < limits.steps) :
    (tick limits span).run m = (.ok (), { m with steps := m.steps + 1 }) := by
  have hfits : ¬ m.steps + 1 < m.steps ∧ ¬ limits.steps < m.steps + 1 := by
    simp only [UInt64.lt_iff_toNat_lt, UInt64.toNat_add, UInt64.toNat_one] at *
    have := limits.steps.toNat_lt
    omega
  rw [run_tick, if_neg hfits.1, if_neg hfits.2]

lemma run_loopBody {x : EvalM σ Value} : (loopBody x).run m = (match (x.run m).1 with
      | .ok _ | .error .cont => .ok true
      | .error .brk => .ok false
      | .error other => .error other, (x.run m).2) := by
  unfold loopBody
  rw [run_bind, run_attempt]
  dsimp only
  cases (x.run m).1 with
  | ok _ => rfl
  | error u => cases u <;> rfl

lemma run_leaveBlock : (leaveBlock result deferred).run m = match (deferred.forM id).run m with
      | (.ok _, m') => (result, m')
      | (.error u, m') => (.error u, m') := by
  unfold leaveBlock
  rw [run_bind]
  rcases (deferred.forM id).run m with ⟨r, m'⟩
  cases r with
  | ok _ => cases result <;> rfl
  | error _ => rfl

lemma Quiet.bind (hx : Quiet x) (hf : ∀ a, Quiet (f a)) : Quiet (x >>= f) := by
  intro m u h
  rw [run_bind] at h
  split at h
  · exact hf _ _ u h
  · rename_i hrun
    cases h
    exact hx m _ (by rw [hrun])

lemma quiet_pure : Quiet (pure a : EvalM σ α) := fun _ _ h => nomatch h

lemma quiet_tick : Quiet (tick limits span : EvalM σ Unit) := by
  intro m u h
  rw [run_tick] at h
  split at h
  · exact ⟨_, (Except.error.inj h).symm⟩
  · dsimp only at h
    split at h
    · exact ⟨_, (Except.error.inj h).symm⟩
    · cases h

lemma quiet_forM : ∀ {ds : List (EvalM σ Unit)}, (∀ d ∈ ds, Quiet d) → Quiet (ds.forM id)
  | [], _ => quiet_pure
  | d :: _, h => (h d (.head _)).bind fun _ => quiet_forM fun e he => h e (.tail _ he)

def ending : Except Unwind α → Option Unwind
  | .ok _ => none
  | .error u => some u

/-- What the steps of the evaluator have to do with a relation between a machine, how a computation
ends, and the machine then. -/
structure Runs (env : Env σ) (r : Machine σ → Option Unwind → Machine σ → Prop) : Prop where
  refl : ∀ m, r m none m
  fails : ∀ m failure, r m (some (.fail failure)) m
  trans : ∀ {a b c e}, r a none b → r b e c → r a e c
  frame : ∀ (m : Machine σ) frame, r m none { m with frame }
  global : ∀ (m : Machine σ) id, r m none { m with host := (env.host.globalValue id m.host).2 }
  count : ∀ (m : Machine σ) steps, m.steps ≤ steps → steps ≤ env.limits.steps → r m none { m with steps }
  spent : ∀ (m : Machine σ) steps failure, m.steps ≤ steps → r m (some (.fail failure)) { m with steps }
  jump : ∀ {m m' : Machine σ} u, m.steps ≤ env.limits.steps → r m none m' → r m (some u) m'
  caught : ∀ {m m' u}, u = .brk ∨ u = .cont → r m (some u) m' → r m none m'
  left : ∀ {a b c u}, r a (some u) b → r b none c → r a (some u) c
  replaced : ∀ {a b c u u'}, r a (some u) b → r b (some u') c → r a (some u') c
  call : ∀ decl generics args span m, let stop := (env.invoke decl generics args span).run m
    r m (ending stop.1) stop.2

def Run (r : Machine σ → Option Unwind → Machine σ → Prop) (x : EvalM σ α) : Prop :=
  ∀ m, r m (ending (x.run m).1) (x.run m).2

namespace Runs

variable {env : Env σ} {r : Machine σ → Option Unwind → Machine σ → Prop} (hr : Runs env r)

include hr

lemma bind (hx : Run r x) (hf : ∀ a, Run r (f a)) : Run r (x >>= f) := by
  intro m
  have h := hx m
  rw [run_bind]
  rcases hrun : x.run m with ⟨result, m'⟩
  rw [hrun] at h
  cases result with
  | ok a => exact hr.trans h (hf a m')
  | error _ => exact h

lemma tick (span : Span) : Run r (tick env.limits span) := by
  intro m
  rcases tick_cases env.limits span m with ⟨failure, steps, hle, hrun⟩ | ⟨hless, hlimit, hrun⟩
  · rw [hrun]
    exact hr.spent m steps failure hle
  · rw [hrun]
    exact hr.count m _ (UInt64.le_of_lt hless) hlimit

lemma counted (n : UInt64) (span : Span) : Run r (countSteps n span >>= fun _ => Eval.tick env.limits span) := by
  intro m
  rw [run_bind, run_countSteps]
  by_cases hover : m.steps + n < m.steps
  · rw [if_pos hover]
    exact hr.spent m _ _ m.le_stopped
  · have hmore : m.steps ≤ m.steps + n := UInt64.not_lt.1 hover
    rw [if_neg hover]
    dsimp only
    rcases tick_cases env.limits span { m with steps := m.steps + n } with
      ⟨failure, steps, hle, hrun⟩ | ⟨hless, hlimit, hrun⟩
    · rw [hrun]
      exact hr.spent m steps failure (UInt64.le_trans hmore hle)
    · rw [hrun]
      exact hr.count m _ (UInt64.le_trans hmore (UInt64.le_of_lt hless)) hlimit

lemma leaveBlock (h : ∀ d ∈ deferred, Run r d) (hresult : r m (ending result) m') :
    r m (ending ((leaveBlock result deferred).run m').1) ((leaveBlock result deferred).run m').2 := by
  have hall : Run r (deferred.forM id) := by
    induction deferred with
    | nil => exact hr.refl
    | cons d ds ih => exact hr.bind (h d (.head _)) fun _ => ih fun e he => h e (.tail _ he)
  have hall := hall m'
  rw [run_leaveBlock]
  rcases hrun : (deferred.forM id).run m' with ⟨ended, m''⟩
  rw [hrun] at hall
  cases ended with
  | ok _ =>
    cases result with
    | ok _ => exact hr.trans hresult hall
    | error _ => exact hr.left hresult hall
  | error _ =>
    cases result with
    | ok _ => exact hr.trans hresult hall
    | error _ => exact hr.replaced hresult hall

lemma runItems {tail : EvalM σ Value} (htail : Run r tail) :
    ∀ items deferred, (∀ i ∈ items, Run r i.2) → (∀ d ∈ deferred, Run r d) → Run r (runItems tail items deferred)
  | [], _, _, hdeferred => fun m => hr.leaveBlock hdeferred (htail m)
  | (true, d) :: rest, deferred, hitems, hdeferred =>
    runItems htail rest (d :: deferred) (fun i hi => hitems i (.tail _ hi))
      (List.forall_mem_cons.2 ⟨hitems _ (.head _), hdeferred⟩)
  | (false, x) :: rest, deferred, hitems, hdeferred => by
    intro m
    have hx := hitems _ (.head _) m
    rw [Eval.runItems, run_bind, run_attempt]
    dsimp only at hx ⊢
    rcases hrun : x.run m with ⟨result, m'⟩
    rw [hrun] at hx
    cases result with
    | ok _ => exact hr.trans hx (runItems htail rest deferred (fun i hi => hitems i (.tail _ hi)) hdeferred m')
    | error _ => exact hr.leaveBlock hdeferred hx

lemma repeatRounds {round : EvalM σ Bool} {stuck : EvalM σ Unit} (hround : Run r round) (hstuck : Run r stuck) :
    ∀ n, Run r (repeatRounds round stuck n)
  | 0 => hstuck
  | n + 1 => hr.bind hround fun again => by
    cases again with
    | true => exact repeatRounds hround hstuck n
    | false => exact hr.refl

end Runs

lemma Runs.of_rel {r : Machine σ → Machine σ → Prop} (refl : ∀ m, r m m)
    (trans : ∀ {a b c}, r a b → r b c → r a c) (frame : ∀ (m : Machine σ) frame, r m { m with frame })
    (count : ∀ (m : Machine σ) steps, m.steps ≤ steps → r m { m with steps })
    (global : ∀ (m : Machine σ) id, r m { m with host := (env.host.globalValue id m.host).2 })
    (call : ∀ decl generics args span m, r m ((env.invoke decl generics args span).run m).2) :
    Runs env fun m _ m' => r m m' :=
  ⟨refl, fun m _ => refl m, trans, frame, global, fun m n h _ => count m n h, fun m n _ h => count m n h, fun _ _ => id,
    fun _ => id, trans, trans, call⟩

/-- What the steps of an evaluation have to do with a relation, a whole evaluation has. -/
lemma Paired.runs (hr : Runs w.env r)
    (hseen : ∀ s, ∃ p, w.seen (w.env.host.program s) p) (h : Paired w d j x y) : Run r x := by
  induction h with
  | pure => exact hr.refl
  | fail | ofFail => exact fun m => hr.fails m _
  | bind _ _ ih ih' => exact hr.bind ih ih'
  | look _ ih => exact fun m => ih m m
  | change f => exact fun m => hr.frame m _
  | reads _ ih =>
    intro m
    obtain ⟨p, hp⟩ := hseen m.host
    exact ih _ p hp m
  | global id span =>
    have hread (mutable : Bool) : Run r (if mutable then Eval.fail (.notConstant "a mutable static") span
        else askHost (w.env.host.globalValue id) >>= orFail span : EvalM σ Value) := by
      cases mutable with
      | true => exact fun m => hr.fails m _
      | false =>
        refine hr.bind (hr.global · id) fun v => ?_
        cases v with
        | ok _ => exact hr.refl
        | error _ => exact fun m => hr.fails m _
    exact fun m => hread (isMutableStatic ((w.env.host.program m.host).getDef id).kind) m
  | tick span => exact hr.tick span
  | count n span => exact hr.counted n span
  | @jump _ _ _ _ x _ _ span out _ ih =>
    intro m
    have hx := ih { m with steps := m.steps + 1 }
    rw [run_bind]
    rcases tick_cases w.env.limits span m with ⟨failure, steps, hle, htick⟩ | ⟨hless, hlimit, htick⟩
    · rw [htick]
      exact hr.spent m steps failure hle
    · have hcount := hr.count m _ (UInt64.le_of_lt hless) hlimit
      rw [htick]
      dsimp only
      rw [run_bind]
      rcases hrun : x.run { m with steps := m.steps + 1 } with ⟨result, m'⟩
      rw [hrun] at hx
      cases result with
      | error _ => exact hr.trans hcount hx
      | ok a => exact hr.trans hcount (hr.jump (out a) hlimit hx)
  | call => exact hr.call _ _ _ _
  | @loopBody _ _ x _ _ ih =>
    intro m
    have h := ih m
    rw [run_loopBody]
    rcases hrun : x.run m with ⟨result, m'⟩
    rw [hrun] at h
    cases result with
    | ok _ => exact h
    | error u =>
      cases u with
      | brk => exact hr.caught (.inl rfl) h
      | cont => exact hr.caught (.inr rfl) h
      | fail _ | ret _ => exact h
  | whileTicking _ span _ ih =>
    have hstuck : Run r (Eval.fail (.stepLimit w.env.limits.steps) span : EvalM σ Unit) := fun m => hr.fails m _
    exact fun m => hr.repeatRounds ih hstuck _ m
  | block _ items _ _ ihtail ihitems =>
    refine hr.runItems ihtail _ [] (fun i hi => ?_) (List.forall_mem_nil _)
    obtain ⟨j, hj, rfl⟩ := List.mem_map.1 hi
    exact ihitems j hj
  | mono _ _ ih => exact ih

/-! ## What is read of the program -/

variable {p q : Program}

lemma intTypeOf_eq (h : q.types.isInteger type) : intTypeOf p type = intTypeOf q type := by
  obtain ⟨ty, hty⟩ : ∃ ty, q.types.shape type = .int ty := by
    unfold TypeTable.isInteger TypeTable.int? at h
    split at h
    · exact ⟨_, ‹_›⟩
    · cases h
  have hread : ∀ p : Program, p.types.shape type = .int ty → intTypeOf p type = ty := by
    intro p hshape
    have hstrip : p.types.stripViews type = type := by
      unfold TypeTable.stripViews
      rw [TypeTable.stripViewsFrom, hshape]
    unfold intTypeOf
    rw [hstrip, hshape]
  rw [hread p (shape_eq_int hty), hread q hty]

lemma resolveParam_eq (hlater : p.Later q) (h : (q.types.shape type).isParam = false) :
    resolveParam p b type = resolveParam q b type := by
  have hnone : ∀ p : Program, (p.types.shape type).isParam = false → resolveParam p b type = type := by
    intro p hparam
    unfold resolveParam
    split
    · rename_i hshape
      rw [hshape] at hparam
      cases hparam
    · rfl
  rw [hnone q h, hnone p ?_]
  by_cases hheld : p.types.Holds type
  · rw [← shape_eq_of_le hlater.types hheld]
    exact h
  · rw [shape_of_not_holds hheld]
    rfl

lemma cast_of_other {shape : TypeShape} (hint : ∀ ty, shape ≠ .int ty) (hfloat : ∀ ty, shape ≠ .float ty)
    (hchar : shape ≠ .char) (v : Value) : cast p v shape = .ok v := by
  cases shape with
  | int ty => exact absurd rfl (hint ty)
  | float ty => exact absurd rfl (hfloat ty)
  | char => exact absurd rfl hchar
  | _ => cases v <;> rfl

lemma cast_shape_eq (a b : TypeTable) (type : TypeId) (v : Value) :
    cast p v (a.shape type) = cast p v (b.shape type) := by
  by_cases hint : ∃ ty, b.shape type = .int ty
  · obtain ⟨ty, hty⟩ := hint
    rw [hty, shape_eq_int hty]
  by_cases hfloat : ∃ ty, b.shape type = .float ty
  · obtain ⟨ty, hty⟩ := hfloat
    rw [hty, shape_eq_float hty]
  by_cases hchar : b.shape type = .char
  · rw [hchar, shape_eq_char hchar]
  rw [cast_of_other (fun ty h => hint ⟨ty, h⟩) (fun ty h => hfloat ⟨ty, h⟩) hchar,
    cast_of_other (fun ty h => hint ⟨ty, shape_eq_int h⟩)
      (fun ty h => hfloat ⟨ty, shape_eq_float h⟩) fun h => hchar (shape_eq_char h)]

lemma cast_eq (hlater : p.Later q) (h : q.types.isInteger type = false ∨ q.ordinal) :
    cast p v (p.types.shape type) = cast q v (q.types.shape type) := by
  rw [cast_shape_eq p.types q.types]
  cases v with
  | variant decl index values =>
    cases hshape : q.types.shape type with
    | int ty =>
      have hordinal : q.ordinal = true := h.resolve_left (by simp [TypeTable.isInteger, TypeTable.int?, hshape])
      have hnumber : (p.discriminant? decl index).getD index = (q.discriminant? decl index).getD index := by
        have hindex : ∀ n : Option Int, (∀ k, n = some k → q.discriminant? decl index = some k) →
            n.getD index = index := by
          rintro (_ | k) hk
          · rfl
          · exact Program.discriminant?_of_ordinal hordinal (hk k rfl)
        rw [hindex _ fun _ hk => hk, hindex _ fun k hk => ?_]
        rw [Program.discriminant?_eq] at hk ⊢
        exact (hlater.kind decl).discriminant index k hk
      show Except.ok (Value.int (ty.wrap _) ty) = Except.ok (Value.int (ty.wrap _) ty)
      rw [hnumber]
    | _ => rfl
  | _ =>
    cases q.types.shape type with
    | float ty => cases ty <;> rfl
    | _ => rfl

lemma global?_of_constant? {id : DefId} (h : (q.kind id).constant? = some v) :
    isMutableStatic (q.kind id) = false ∧ (q.global? id).bind (·.value) = some v := by
  unfold DefKind.constant? at h
  rw [Program.global?_eq]
  split at h
  · cases h
  · rename_i hmut
    exact ⟨by simpa using hmut, h⟩

mutual

theorem matchPattern_eq (hlater : p.Later q) : ∀ pattern v, pattern.steady q →
    matchPattern p pattern v = matchPattern q pattern v
  | .int expected, v, h => by
    cases v with
    | variant decl index _ =>
      have hfree := Program.discriminant?_ne_of_freeNumber h decl index
      have hfree' : p.discriminant? decl index ≠ some expected := by
        intro hn
        rw [Program.discriminant?_eq] at hn hfree
        exact hfree ((hlater.kind decl).discriminant index expected hn)
      show (pure (p.discriminant? decl index == some expected) : StateM Frame Bool) =
        pure (q.discriminant? decl index == some expected)
      rw [beq_eq_false_iff_ne.2 hfree, beq_eq_false_iff_ne.2 hfree']
    | _ => rfl
  | .some inner, v, h => by
    cases v with
    | some v => exact matchPattern_eq hlater inner v h
    | _ => rfl
  | .variant decl index fields, v, h => by
    cases v with
    | variant _ actual values =>
      show (if index == actual then _ else _) = (if index == actual then _ else _)
      rw [matchPatterns_eq hlater fields values h]
    | _ => rfl
  | .wildcard, _, _ | .binding _, _, _ | .none, .none, _ => rfl
  | .bool _, v, _ | .char _, v, _ | .str _, v, _ | .none, v, _ => by cases v <;> rfl

theorem matchPatterns_eq (hlater : p.Later q) : ∀ patterns values,
    Typed.patternsSteady q patterns → matchPatterns p patterns values = matchPatterns q patterns values
  | [], _, _ => rfl
  | _ :: _, [], _ => rfl
  | pattern :: rest, v :: values, h => by
    rw [Typed.patternsSteady, Bool.and_eq_true] at h
    rw [matchPatterns, matchPatterns, matchPattern_eq hlater pattern v h.1, matchPatterns_eq hlater rest values h.2]

end

lemma matchAny_eq (hlater : p.Later q) : ∀ patterns : List Typed.Pattern,
    Typed.patternsSteady q patterns → matchAny p patterns v = matchAny q patterns v
  | [], _ => rfl
  | pattern :: rest, h => by
    rw [Typed.patternsSteady, Bool.and_eq_true] at h
    rw [matchAny, matchAny, matchPattern_eq hlater pattern v h.1, matchAny_eq hlater rest h.2]

/-! ## Trees -/

end Kite.Eval

namespace Kite.Typed

section

variable (deferred : Stmt → Prop) (calls : Callee → Prop)

mutual

/-- Whether the deferred statements of an expression and what it calls are of given kinds. -/
def Expr.Calm : Expr → Prop
  | ⟨kind, _, _⟩ => kind.Calm

def ExprKind.Calm : ExprKind → Prop
  | .int _ | .constParam _ | .float _ | .bool _ | .char _ | .str _ | .void | .none | .var _ | .global _
  | .functionRef _ _ | .range _ _ _ | .brk | .cont | .error => True
  | .some inner | .unary _ inner | .field inner _ _ | .tupleIndex inner _ | .unwrap inner | .cast inner => inner.Calm
  | .binary _ a b | .assign _ a b | .index a b | .fill a b => a.Calm ∧ b.Calm
  | .call callee args => calls callee ∧ exprsCalm args
  | .slice base start stop _ => (base.Calm ∧ start.Calm) ∧ stop.Calm
  | .tuple items | .sequence items => exprsCalm items
  | .cond cond thenBranch elseBranch => (cond.Calm ∧ thenBranch.Calm) ∧ optionalCalm elseBranch
  | .matchWith scrutinee arms => scrutinee.Calm ∧ armsCalm arms
  | .block block => block.Calm
  | .ret value => optionalCalm value

def exprsCalm : List Expr → Prop
  | [] => True
  | e :: rest => e.Calm ∧ exprsCalm rest

def optionalCalm : Option Expr → Prop
  | none => True
  | some e => e.Calm

def armsCalm : List Arm → Prop
  | [] => True
  | ⟨_, body⟩ :: rest => body.Calm ∧ armsCalm rest

def Block.Calm : Block → Prop
  | ⟨stmts, tail⟩ => stmtsCalm stmts ∧ optionalCalm tail

def stmtsCalm : List Stmt → Prop
  | [] => True
  | stmt :: rest => stmt.Calm ∧ stmtsCalm rest

def Stmt.Calm : Stmt → Prop
  | .letDecl _ init => init.Calm
  | .expr e => e.Calm
  | .whileLoop cond body => cond.Calm ∧ body.Calm
  | .loop body => body.Calm
  | .forRange _ start stop _ body => (start.Calm ∧ stop.Calm) ∧ body.Calm
  | .forEach _ iterable body => iterable.Calm ∧ body.Calm
  | .defer inner => deferred inner ∧ inner.Calm

end

end

end Kite.Typed

namespace Kite.Eval

open List TypeTable

variable {body' : EvalM Unit Value} {y : EvalM Unit α} {body : EvalM σ Value} {x : EvalM σ α} {m : Machine σ}
  {span : Span} {type : TypeId} {kind : Typed.ExprKind}

/-- Whatever function the callee stands for is one of those that are told. -/
def CallsOf (p : Program) (called : DefId → Prop) : Typed.Callee → Prop
  | .function decl _ => called decl
  | .traitMethod _ name _ => ∀ type found, p.findMethod? type name = some found → called found.1
  | .builtin _ | .builtinMethod _ | .indirect _ | .constructor _ | .variant _ _ => True

namespace Pairing

def Calls (w : Pairing σ) : Typed.Callee → Prop := CallsOf w.last w.called

/-- A part of a tree is as the pairing needs it: steady, or calm. -/
def Sure (w : Pairing σ) (steady : Bool) (calm : Prop) : Prop := (w.lax → steady) ∧ (¬ w.lax → w.strict → calm)

def SureOf (w : Pairing σ) (e : Typed.Expr) : Prop := w.Sure (e.steady w.last) (e.Calm w.deferred w.Calls)

def SureAll (w : Pairing σ) (es : List Typed.Expr) : Prop :=
  w.Sure (Typed.exprsSteady w.last es) (Typed.exprsCalm w.deferred w.Calls es)

structure Fit (w : Pairing σ) : Prop where
  seen : ∀ p p', w.seen p p' → p' = p ∨ (w.lax ∧ p.Later w.last ∧ p' = w.last)
  only : ¬ w.lax → w.strict → ∀ p p', w.seen p p' → p = w.last
  quiet : ¬ w.lax → w.strict → ∀ stmt, w.deferred stmt → Quiet (evalStmt w.env stmt)
  called : w.lax → ∀ decl, w.called decl
  counts : ∀ decl generics args span m, m.steps ≤ ((w.env.invoke decl generics args span).run m).2.steps
  reads : ∀ s, ∃ p, w.seen (w.env.host.program s) p

namespace Sure

variable {w : Pairing σ} {a b : Bool} {P Q : Prop}

lemma and (h : w.Sure (a && b) (P ∧ Q)) : w.Sure a P ∧ w.Sure b Q :=
  ⟨⟨fun hlax => (Bool.and_eq_true_iff.1 (h.1 hlax)).1, fun hlax hstrict => (h.2 hlax hstrict).1⟩,
    fun hlax => (Bool.and_eq_true_iff.1 (h.1 hlax)).2, fun hlax hstrict => (h.2 hlax hstrict).2⟩

lemma left (h : w.Sure (a && b) P) : w.Sure a P ∧ (w.lax → b) :=
  ⟨⟨fun hlax => (Bool.and_eq_true_iff.1 (h.1 hlax)).1, h.2⟩, fun hlax => (Bool.and_eq_true_iff.1 (h.1 hlax)).2⟩

lemma right (h : w.Sure (b && a) P) : (w.lax → b) ∧ w.Sure a P :=
  ⟨fun hlax => (Bool.and_eq_true_iff.1 (h.1 hlax)).1, fun hlax => (Bool.and_eq_true_iff.1 (h.1 hlax)).2, h.2⟩

end Sure

end Pairing

lemma run_ok_of_bind
    (h : ((x >>= f).run m).1 = .ok b) : ∃ a, (x.run m).1 = .ok a ∧ (x >>= f).run m = (f a).run (x.run m).2 := by
  rw [run_bind] at h ⊢
  rcases hrun : x.run m with ⟨r, m'⟩
  rw [hrun] at h
  cases r with
  | ok a => exact ⟨a, rfl, rfl⟩
  | error _ => cases h

def isJump : Typed.ExprKind → Bool
  | .ret _ | .brk | .cont => true
  | _ => false

lemma run_ne_ok_of_isJump (h : isJump kind) : ((evalExpr env ⟨kind, type, span⟩).run m).1 ≠ .ok a := by
  intro hrun
  obtain ⟨_, _, hkind⟩ := run_ok_of_bind hrun
  replace hrun := (congrArg Prod.fst hkind).symm.trans hrun
  cases kind with
  | ret value =>
    obtain ⟨_, _, hthrow⟩ := run_ok_of_bind hrun
    cases (congrArg Prod.fst hthrow).symm.trans hrun
  | brk | cont => cases hrun
  | _ => cases h

namespace Paired

variable {w : Pairing σ}

lemma left (h : Paired w d i x y) : Paired w d (i || j) x y := h.mono (by simp +contextual)

lemma right (h : Paired w d j x y) : Paired w d (i || j) x y := h.mono (by simp +contextual)

lemma ite [Decidable c] {x x' : EvalM σ α} (h : Paired w d j x y) (h' : Paired w d j x' y') :
    Paired w d j (if c then x else x') (if c then y else y') := by
  split
  · exact h
  · exact h'

lemma orFail (span : Span) (r : Except EvalError α) : Paired w d j (orFail span r) (orFail span r) := by
  cases r with
  | ok a => exact .pure a
  | error e => exact .fail e span

lemma bindLocal (id : LocalId) (v : Value) : Paired w d j (bindLocal id v) (bindLocal id v) :=
  .change fun frame => ((), frame.bind id v)

lemma modifyPlace (place : Place) (span : Span) (f : Value → Except EvalError (α × Value)) :
    Paired w d j (modifyPlace place span f) (modifyPlace place span f) := by
  refine .look fun m => ?_
  dsimp only [Machine.alone]
  split
  · exact .fail _ _
  · exact .bind (.orFail _ _) fun _ => .bind (.bindLocal _ _) fun _ => .pure _

lemma asCondition (v : Value) (span : Span) : Paired w d j (asCondition v span) (asCondition v span) := by
  cases v with
  | bool b => exact .pure b
  | _ => exact .fail _ _

lemma countUp {x : EvalM σ Value} {y : EvalM Unit Value} (h : Paired w (d + 1) j x y) (id : LocalId) (ty : IntTy) :
    ∀ n current, Paired w d j (countUp id ty x n current) (countUp id ty y n current)
  | 0, _ => .pure _
  | n + 1, current =>
    .bind (.bindLocal _ _) fun _ => .bind (.loopBody h) fun _ => .ite (countUp h id ty n (current + 1)) (.pure _)

lemma forItems {x : EvalM σ Value} {y : EvalM Unit Value} (h : Paired w (d + 1) j x y) (id : LocalId) :
    ∀ items, Paired w d j (forItems id x items) (forItems id y items)
  | [] => .pure _
  | _ :: rest => .bind (.bindLocal _ _) fun _ => .bind (.loopBody h) fun _ => .ite (forItems h id rest) (.pure _)

/-! ## Steps that read the program -/

variable (hw : w.Fit)

include hw

lemma read_eq (h : w.Sure steady P) {f : Program → β}
    (hread : steady → ∀ p : Program, p.Later w.last → f p = f w.last) (p p' : Program)
    (hseen : w.seen p p') : f p = f p' := by
  rcases hw.seen p p' hseen with rfl | ⟨hlax, hlater, rfl⟩
  · rfl
  · exact hread (h.1 hlax) p hlater

omit hw in
lemma readOrFail {read : Program → Except EvalError Value} (h : ∀ p p', w.seen p p' → read p = read p') :
    Paired w d j (w.env.program >>= fun p => Eval.orFail span (read p))
    (w.env'.program >>= fun p => Eval.orFail span (read p)) :=
  .reads fun p p' hseen => h p p' hseen ▸ .orFail _ _

omit hw in
lemma float (op : BinaryOp) (a b : Value) (type : TypeId) (span : Span) :
    Paired w d j (do Eval.orFail span (arith op a b ((← w.env.program).types.float? type)))
      (do Eval.orFail span (arith op a b ((← w.env'.program).types.float? type))) :=
  readOrFail fun p p' _ => by rw [float?_eq p.types p'.types]

lemma readConstParam (id : ParamId) (h : w.Sure (w.last.types.isInteger type) True) (span : Span) :
    Paired w d j (readConstParam w.env id type span) (readConstParam w.env' id type span) := by
  refine .reads fun p p' hseen => .look fun m => ?_
  dsimp only [Machine.alone]
  generalize m.frame.bindings.get? id = arg
  rcases hw.seen p p' hseen with rfl | ⟨hlax, hlater, rfl⟩
  · split
    · exact .pure _
    · exact .fail _ _
  cases arg with
  | none => exact .fail _ _
  | some arg =>
    rw [Option.map_some, Option.map_some]
    by_cases hconst : ∃ value, p.types.shape arg = .const value
    · obtain ⟨value, hvalue⟩ := hconst
      have hheld : p.types.Holds arg := holds_of_shape (by rw [hvalue]; exact TypeShape.noConfusion)
      rw [shape_eq_of_le hlater.types hheld, hvalue]
      dsimp only
      rw [intTypeOf_eq (h.1 hlax)]
      exact .pure _
    · split
      · rename_i value heq
        exact absurd ⟨value, Option.some.inj heq⟩ hconst
      · exact .ofFail hlax _ _ _

lemma resolveParams {generics : List TypeId}
    (h : w.Sure (generics.all fun type => !(w.last.types.shape type).isParam) P) :
    Paired w d j (resolveParams w.env generics) (resolveParams w.env' generics) := by
  refine .reads fun p p' hseen => .look fun m => ?_
  have hsame : generics.map (resolveParam p m.frame.bindings) = generics.map (resolveParam p' m.frame.bindings) := by
    refine read_eq hw h (f := fun p => generics.map (resolveParam p m.frame.bindings)) ?_ p p' hseen
    refine fun hall p hlater => map_congr_left fun type htype => resolveParam_eq hlater ?_
    simpa using all_eq_true.1 hall type htype
  show Paired w d j (Pure.pure (generics.map (resolveParam p m.frame.bindings)))
    (Pure.pure (generics.map (resolveParam p' m.frame.bindings)))
  rw [hsame]
  exact .pure _

lemma callee (span : Span) {callee : Typed.Callee} (h : w.Sure (callee.steady w.last) (w.Calls callee))
    {args' : EvalM Unit (List Value)} (hargs : Paired w d j args args') (hfirst : Paired w d j first first')
    (hmethod : ∀ m, Paired w d j (method m) (method' m)) :
    Paired w d j (Eval.call w.env span callee args first method) (Eval.call w.env' span callee args' first' method') := by
  cases callee with
  | function decl generics =>
    refine .bind (resolveParams hw h) fun _ => .bind hargs fun _ => .call (fun hstrict => ?_) _ _ _
    by_cases hlax : w.lax
    · exact hw.called hlax decl
    · exact h.2 hlax hstrict
  | traitMethod _ name type =>
    have hlax : ¬ w.lax := fun hlax => by cases h.1 hlax
    refine .reads fun p p' hseen => .look fun m => ?_
    obtain rfl := (hw.seen p p' hseen).resolve_right fun hlater => hlax hlater.1
    dsimp only [Machine.alone]
    split
    · exact .fail _ _
    · rename_i found
      refine .bind hargs fun _ => .call (fun hstrict => ?_) _ _ _
      rw [hw.only hlax hstrict p' p' hseen] at found
      exact h.2 hlax hstrict _ _ found
  | builtin fn =>
    cases fn with
    | panic =>
      refine .bind hfirst fun message => .reads fun p p' hseen => ?_
      rcases hw.seen p p' hseen with rfl | ⟨hlax, _⟩
      · exact .fail _ _
      · exact .ofFail hlax _ _ _
    | _ => exact .fail _ _
  | builtinMethod m => exact hmethod m
  | indirect _ => exact .fail _ _
  | constructor _ | variant _ _ => exact .bind hargs fun _ => .pure _

lemma counts (h : Paired w d j x y) (m : Machine σ) : m.steps ≤ (x.run m).2.steps :=
  h.runs (.of_rel (r := fun m m' => m.steps ≤ m'.steps) (fun _ => UInt64.le_refl _) UInt64.le_trans
    (fun _ _ => UInt64.le_refl _) (fun _ _ h => h) (fun _ _ => UInt64.le_refl _) hw.counts) hw.reads m

/-! ## The tree -/

lemma counts_tick (h : Paired w d j x y) (hrun : ((Eval.tick w.env.limits span >>= fun _ => x).run m).1 = .ok a) :
    m.steps < w.env.limits.steps ∧ m.steps < ((Eval.tick w.env.limits span >>= fun _ => x).run m).2.steps := by
  rw [run_bind] at hrun ⊢
  rcases tick_cases w.env.limits span m with ⟨failure, steps, _, htick⟩ | ⟨hless, hlimit, htick⟩
  · rw [htick] at hrun
    cases hrun
  · rw [htick]
    exact ⟨UInt64.lt_of_lt_of_le hless hlimit,
      UInt64.lt_of_lt_of_le hless (h.counts hw { m with steps := m.steps + 1 })⟩

lemma counting_while
    (hcond : isJump kind = false → Paired w d i (evalKind w.env type span kind) cond')
    (hbody : Paired w (d + 1) j body body') : Counting w.env.limits (do
      if ← Eval.asCondition (← evalExpr w.env ⟨kind, type, span⟩) span then Eval.loopBody body else return false) := by
  intro m hrun
  obtain ⟨v, hv, hrest⟩ := run_ok_of_bind hrun
  have hkind : isJump kind = false := Bool.eq_false_iff.2 fun hjump => run_ne_ok_of_isJump hjump hv
  obtain ⟨hlimit, hless⟩ := counts_tick hw (hcond hkind) hv
  rw [hrest]
  refine ⟨hlimit, Nat.lt_of_lt_of_le hless ?_⟩
  have hafter : Paired w d j (Eval.asCondition v span >>= fun b => if b then Eval.loopBody body else return false)
      (Eval.asCondition v span >>= fun b => if b then Eval.loopBody body' else return false) :=
    .bind (.asCondition _ _) fun _ => .ite (.loopBody hbody) (.pure _)
  exact hafter.counts hw _

lemma counting_loop (hbody : Paired w (d + 1) j body body') (span : Span) :
    Counting w.env.limits (do
      if ← Eval.loopBody body then
        Eval.tick w.env.limits span
        return true
      return false) := by
  intro m hrun
  obtain ⟨again, -, hrest⟩ := run_ok_of_bind hrun
  have hfirst := (Paired.loopBody hbody).counts hw m
  rw [hrest] at hrun ⊢
  cases again with
  | false => cases hrun
  | true =>
    obtain ⟨hlimit, hless⟩ := counts_tick hw (.pure (d := d) (j := j) true) hrun
    exact ⟨Nat.lt_of_le_of_lt hfirst hlimit, Nat.lt_of_le_of_lt hfirst hless⟩

end Paired

section

open Typed

variable {w : Pairing σ}

mutual

theorem paired_evalExpr (hw : w.Fit) : ∀ e : Typed.Expr, w.SureOf e →
    Paired w d (Jumps.expr d e) (evalExpr w.env e) (evalExpr w.env' e)
  | ⟨kind, type, span⟩, h => by
    cases hkind : isJump kind with
    | false => exact .bind (.tick span) fun _ => paired_evalKind hw type span kind h hkind
    | true => exact paired_jump hw type span kind h hkind

theorem paired_evalKind (hw : w.Fit) (type : TypeId) (span : Span) : ∀ kind : Typed.ExprKind,
    w.Sure (kind.steady w.last type) (kind.Calm w.deferred w.Calls) → isJump kind = false →
      Paired w d (Jumps.exprKind d kind) (evalKind w.env type span kind) (evalKind w.env' type span kind)
  | .int value, h, _ => Paired.readOrFail (Paired.read_eq hw h fun hint p _ => by rw [intTypeOf_eq hint])
  | .float _, _, _ | .bool _, _, _ | .char _, _, _ | .str _, _, _ | .void, _, _ | .none, _, _ => .pure _
  | .some inner, h, _ => .bind (paired_evalExpr hw inner h) fun _ => .pure _
  | .var id, _, _ => by
    refine .look fun m => ?_
    dsimp only [Machine.alone]
    split
    · exact .pure _
    · exact .fail _ _
  | .global id, _, _ => .global id span
  | .constParam id, h, _ => .readConstParam hw id h span
  | .functionRef _ _, _, _ | .range _ _ _, _, _ | .error, _, _ => .fail _ _
  | .unary _ operand, h, _ => .bind (paired_evalExpr hw operand h) fun _ => .orFail _ _
  | .binary op lhs rhs, h, _ => by
    have hl := paired_evalExpr hw (d := d) lhs h.and.1
    have hr := paired_evalExpr hw (d := d) rhs h.and.2
    unfold evalKind
    refine .ite (.bind (.bind hl.left fun _ => .asCondition _ _) fun _ => .ite (.pure _) ?_)
      (.bind hl.left fun _ => .bind hr.right fun _ => ?_)
    · exact .bind (.bind hr.right fun _ => .asCondition _ _) fun _ => .pure _
    · exact .ite (.orFail _ _) (.float _ _ _ _ _)
  | .assign op target value, h, _ => by
    refine .bind (paired_evalExpr hw value h.and.2).right fun v => .bind ?_ fun _ =>
      .bind (paired_evalPlace hw target h.and.1).left fun _ => .modifyPlace _ _ _
    cases op with
    | none => exact .pure _
    | some op => exact .bind (paired_evalExpr hw target h.and.1).left fun _ => .float _ _ _ _ _
  | .cast inner, h, _ => by
    refine .bind (paired_evalExpr hw inner h.left.1) fun v => .readOrFail fun p p' hseen => ?_
    rcases hw.seen p p' hseen with rfl | ⟨hlax, hlater, rfl⟩
    · rfl
    · exact cast_eq hlater (by simpa using h.left.2 hlax)
  | .call callee args, h, _ =>
    .left (.callee hw span h.and.1 (paired_evalExprs hw args h.and.2) (paired_evalHead hw args h.and.2) fun method =>
      paired_evalMethod hw span method args h.and.2)
  | .field base _ _, h, _ => by
    refine .bind (paired_evalExpr hw base h) fun v => ?_
    cases v with
    | struct _ _ => exact .pure _
    | _ => exact .fail _ _
  | .tupleIndex base _, h, _ => by
    refine .bind (paired_evalExpr hw base h) fun v => ?_
    cases v with
    | tuple _ => exact .pure _
    | _ => exact .fail _ _
  | .index base index, h, _ =>
    .bind (paired_evalExpr hw base h.and.1).left fun _ => .bind (paired_evalExpr hw index h.and.2).right fun _ => .orFail _ _
  | .slice base start stop _, h, _ =>
    .bind (paired_evalExpr hw base h.and.1.and.1).left.left fun _ => .bind (paired_evalExpr hw start h.and.1.and.2).right.left
      fun _ => .bind (paired_evalExpr hw stop h.and.2).right fun _ => .orFail _ _
  | .unwrap inner, h, _ => by
    refine .bind (paired_evalExpr hw inner h) fun v => ?_
    cases v with
    | none => exact .fail _ _
    | _ => exact .pure _
  | .tuple items, h, _ | .sequence items, h, _ => .bind (paired_evalExprs hw items h) fun _ => .pure _
  | .fill value count, h, _ => by
    refine .bind (paired_evalExpr hw value h.and.1).left fun v => .bind (paired_evalExpr hw count h.and.2).right fun n => ?_
    refine .ite (.fail _ _) ?_
    have hcounted (limits : EvalLimits) {τ : Type} (k : UInt64) (a : Value) :
        (do countSteps k span; tick limits span; return a : EvalM τ Value) =
          (countSteps k span >>= fun _ => tick limits span) >>= fun _ => pure a := by
      rw [bind_assoc]
    rw [hcounted, hcounted]
    exact .bind (.count _ span) fun _ => .pure _
  | .cond cond thenBranch elseBranch, h, _ =>
    .bind (paired_evalExpr hw cond h.and.1.and.1).left.left fun _ => .bind (.asCondition _ _) fun _ =>
      .ite (paired_evalExpr hw thenBranch h.and.1.and.2).right.left (paired_evalOrVoid hw elseBranch h.and.2).right
  | .matchWith scrutinee arms, h, _ =>
    .bind (paired_evalExpr hw scrutinee h.and.1).left fun v => .right (paired_evalArms hw v span arms h.and.2)
  | .block body, h, _ => paired_evalBlock hw body h

theorem paired_jump (hw : w.Fit) (type : TypeId) (span : Span) : ∀ kind : Typed.ExprKind,
    w.Sure (kind.steady w.last type) (kind.Calm w.deferred w.Calls) → isJump kind →
      Paired w d (Jumps.exprKind d kind) (evalExpr w.env ⟨kind, type, span⟩) (evalExpr w.env' ⟨kind, type, span⟩)
  | .ret value, h, _ => .jump ((paired_evalOrVoid hw value h).mono fun _ => rfl) span nofun
  | .brk, _, _ => .jump (.pure ()) (u := fun _ => .brk) span fun h _ => ne_of_beq_false h
  | .cont, _, _ => .jump (.pure ()) (u := fun _ => .cont) span fun h _ => ne_of_beq_false h

theorem paired_evalExprs (hw : w.Fit) : ∀ es : List Typed.Expr, w.SureAll es →
    Paired w d (Jumps.exprs d es) (evalExprs w.env es) (evalExprs w.env' es)
  | [], _ => .pure _
  | e :: rest, h =>
    .bind (paired_evalExpr hw e h.and.1).left fun _ => .bind (paired_evalExprs hw rest h.and.2).right fun _ => .pure _

theorem paired_evalOrVoid (hw : w.Fit) : ∀ e : Option Typed.Expr, w.Sure (Typed.optionalSteady w.last e)
    (Typed.optionalCalm w.deferred w.Calls e) → Paired w d (Jumps.exprOption d e) (evalOrVoid w.env e) (evalOrVoid w.env' e)
  | none, _ => .pure _
  | some e, h => paired_evalExpr hw e h

theorem paired_evalHead (hw : w.Fit) : ∀ es : List Typed.Expr, w.SureAll es →
    Paired w d (Jumps.exprs d es) (evalHead w.env es) (evalHead w.env' es)
  | [], _ => .pure _
  | e :: _, h => .bind (paired_evalExpr hw e h.and.1).left fun _ => .pure _

theorem paired_evalMethod (hw : w.Fit) (span : Span) (method : BuiltinMethod) : ∀ es : List Typed.Expr,
    w.SureAll es → Paired w d (Jumps.exprs d es) (evalMethod w.env span method es) (evalMethod w.env' span method es)
  | [], _ => .fail _ _
  | receiver :: args, h => by
    refine .ite ?_ (.bind (paired_evalExpr hw receiver h.and.1).left fun v => ?_)
    · exact .bind (paired_evalHead hw args h.and.2).right fun _ => .bind (paired_evalPlace hw receiver h.and.1).left fun _ =>
        .modifyPlace _ _ _
    · unfold pureMethod
      split <;> first | exact .pure _ | exact .fail _ _

theorem paired_evalPlace (hw : w.Fit) : ∀ e : Typed.Expr, w.SureOf e →
    Paired w d (Jumps.expr d e) (evalPlace w.env e) (evalPlace w.env' e)
  | ⟨kind, type, span⟩, h => paired_placeOfKind hw type span kind h

theorem paired_placeOfKind (hw : w.Fit) (type : TypeId) (span : Span) : ∀ kind : Typed.ExprKind,
    w.Sure (kind.steady w.last type) (kind.Calm w.deferred w.Calls) →
      Paired w d (Jumps.exprKind d kind) (placeOfKind w.env span kind) (placeOfKind w.env' span kind)
  | .var _, _ => .pure _
  | .unary op operand, h => by
    cases op with
    | deref => exact paired_evalPlace hw operand h
    | _ => exact .fail _ _
  | .field base _ _, h | .tupleIndex base _, h => .bind (paired_evalPlace hw base h) fun _ => .pure _
  | .index base index, h =>
    .bind (paired_evalExpr hw index h.and.2).right fun _ => .bind (paired_evalPlace hw base h.and.1).left fun _ =>
      .ite (.fail _ _) (.pure _)
  | .int _, _ | .float _, _ | .bool _, _ | .char _, _ | .str _, _ | .void, _ | .none, _ | .some _, _
  | .global _, _ | .constParam _, _ | .functionRef _ _, _ | .binary _ _ _, _ | .assign _ _ _, _
  | .range _ _ _, _ | .cast _, _ | .call _ _, _ | .slice _ _ _ _, _ | .unwrap _, _ | .tuple _, _
  | .sequence _, _ | .fill _ _, _ | .cond _ _ _, _ | .matchWith _ _, _ | .block _, _ | .ret _, _ | .brk, _
  | .cont, _ | .error, _ => .fail _ _

theorem paired_evalArms (hw : w.Fit) (v : Value) (span : Span) : ∀ arms : List Typed.Arm, w.Sure (Typed.armsSteady w.last arms)
    (Typed.armsCalm w.deferred w.Calls arms) →
      Paired w d (Jumps.arms d arms) (evalArms w.env v span arms) (evalArms w.env' v span arms)
  | [], _ => .fail _ _
  | ⟨patterns, body⟩ :: rest, h => by
    have hpatterns : w.Sure (Typed.patternsSteady w.last patterns) True := ⟨h.and.1.right.1, fun _ _ => trivial⟩
    refine .reads fun p p' hseen => .bind ?_ fun _ =>
      .ite (paired_evalExpr hw body h.and.1.right.2).left (paired_evalArms hw v span rest h.and.2).right
    have hsame : matchAny p patterns v = matchAny p' patterns v :=
      Paired.read_eq hw hpatterns (f := fun p => matchAny p patterns v)
        (fun hsteady p hlater => matchAny_eq hlater patterns hsteady) p p' hseen
    unfold matchesAny
    rw [hsame]
    exact .change fun frame => matchAny p' patterns v frame

theorem paired_evalBlock (hw : w.Fit) : ∀ block : Typed.Block, w.Sure (block.steady w.last)
    (block.Calm w.deferred w.Calls) → Paired w d (Jumps.block d block) (evalBlock w.env block) (evalBlock w.env' block)
  | ⟨stmts, tail⟩, h => by
    obtain ⟨items, hleft, hright, hitems, hquiet⟩ := paired_items hw stmts h.and.1
    rw [evalBlock_eq, evalBlock_eq, ← hleft, ← hright]
    exact .block (paired_evalOrVoid hw tail h.and.2).right items (fun i hi => (hitems i hi).left) hquiet

theorem paired_items (hw : w.Fit) : ∀ stmts : List Typed.Stmt, w.Sure (Typed.stmtsSteady w.last stmts)
    (Typed.stmtsCalm w.deferred w.Calls stmts) →
      ∃ items : List (Bool × EvalM σ Unit × EvalM Unit Unit),
        (items.map fun i => (i.1, i.2.1)) = stmts.map (blockItem w.env) ∧
        (items.map fun i => (i.1, i.2.2)) = stmts.map (blockItem w.env') ∧
        (∀ i ∈ items, Paired w d (Jumps.stmts d stmts) i.2.1 i.2.2) ∧ (w.strict → ∀ i ∈ items, i.1 → Quiet i.2.1)
  | [], _ => ⟨[], rfl, rfl, by simp, by simp⟩
  | stmt :: rest, h => by
    obtain ⟨items, hleft, hright, hitems, hquiet⟩ := paired_items hw (d := d) rest h.and.2
    have hstmt := paired_evalStmt hw (d := d) stmt h.and.1
    refine ⟨((blockItem w.env stmt).1, (blockItem w.env stmt).2, (blockItem w.env' stmt).2) :: items, ?_, ?_, ?_, ?_⟩
    · rw [map_cons, map_cons, hleft]
    · rw [map_cons, map_cons, hright]
      cases stmt <;> rfl
    · refine forall_mem_cons.2 ⟨.left ?_, fun i hi => (hitems i hi).right⟩
      cases stmt <;> exact hstmt
    · refine fun hstrict => forall_mem_cons.2 ⟨fun hdeferred => ?_, hquiet hstrict⟩
      cases stmt with
      | defer inner =>
        have hlax : ¬ w.lax := fun hlax => by cases h.and.1.1 hlax
        exact hw.quiet hlax hstrict inner (h.and.1.2 hlax hstrict).1
      | _ => cases hdeferred

theorem paired_evalStmt (hw : w.Fit) : ∀ stmt : Typed.Stmt, w.Sure (stmt.steady w.last)
    (stmt.Calm w.deferred w.Calls) → Paired w d (Jumps.stmt d stmt) (evalStmt w.env stmt) (evalStmt w.env' stmt)
  | .letDecl id init, h => .bind (paired_evalExpr hw init h) fun _ => .bindLocal _ _
  | .expr e, h => .bind (paired_evalExpr hw e h) fun _ => .pure _
  | .whileLoop ⟨kind, type, condSpan⟩ body, h => by
    have hcond := paired_evalExpr hw (d := d) ⟨kind, type, condSpan⟩ h.and.1
    have hbody := paired_evalBlock hw (d := d + 1) body h.and.2
    exact .whileTicking
      (.bind hcond.left fun _ => .bind (.asCondition _ _) fun _ => .ite (.loopBody hbody.right) (.pure _)) _
      (Paired.counting_while hw (paired_evalKind hw type condSpan kind h.and.1) hbody)
  | .loop body, h =>
    .whileTicking (.bind (.loopBody (paired_evalBlock hw body h)) fun _ =>
      .ite (.bind (.tick _) fun _ => .pure _) (.pure _)) _ (Paired.counting_loop hw (paired_evalBlock hw (d := 1) body h) _)
  | .forRange id start stop inclusive body, h => by
    refine .bind (paired_evalExpr hw start h.and.1.and.1).left.left fun first =>
      .bind (paired_evalExpr hw stop h.and.1.and.2).right.left fun last => .right ?_
    unfold rangeLoop
    split
    · exact .countUp (paired_evalBlock hw body h.and.2) _ _ _ _
    · exact .fail _ _
  | .forEach id iterable body, h => by
    refine .bind (paired_evalExpr hw iterable h.and.1).left fun items => .right ?_
    unfold eachLoop
    split
    · exact .forItems (paired_evalBlock hw body h.and.2) _ _
    · exact .fail _ _
  | .defer inner, h => paired_evalStmt hw inner ⟨fun hlax => (by cases h.1 hlax), fun hlax hstrict => (h.2 hlax hstrict).2⟩

end

end

end Kite.Eval
