/-
What the limits of an evaluation do. A watched evaluation also notes how deep its calls come and whether
one is refused. It runs as the evaluation itself, stays below the limits while it
gives values, and runs the same under greater limits as long as it does not reach them.
-/
import Kite.Proofs.Eval.Mirror

namespace Kite.Eval

variable {σ α : Type} {env : Env σ} {stuck : EvalM σ Unit} {decl : DefId} {x : EvalM Calls α} {generics : List TypeId}
  {args : List Value} {m : Machine σ} {span : Span} {stmt : Typed.Stmt} {n' : Nat}

/-! ## Steps within the limit -/

/-- A computation that ends with a value or a jump has not gone over the limit. -/
def InBudget (limits : EvalLimits) (m : Machine σ) : Option Unwind → Machine σ → Prop
  | none, m' => m.steps ≤ limits.steps → m'.steps ≤ limits.steps
  | some (.fail _), _ => True
  | some _, m' => m'.steps ≤ limits.steps

lemma runs_inBudget (h : ∀ decl generics args span, Run (InBudget env.limits) (env.invoke decl generics args span)) :
    Runs env (InBudget env.limits) where
  refl _ := id
  fails _ _ := trivial
  trans {a b c e} h h' := by
    cases e with
    | none => exact h' ∘ h
    | some u => cases u <;> exact h'
  frame _ _ := id
  global _ _ := id
  count _ _ _ h _ := h
  spent _ _ _ _ := trivial
  jump {m m'} u h h' := by
    cases u with
    | fail _ => exact trivial
    | _ => exact h' h
  caught hu h := by rcases hu with rfl | rfl <;> exact fun _ => h
  left {a b c u} h h' := by
    cases u with
    | fail _ => exact trivial
    | _ => exact h' h
  replaced {a b c u u'} _ h' := by cases u' <;> exact h'
  call := h

variable {limits : EvalLimits}

lemma inBudget_inFrame {x : EvalM σ Value} (hx : Run (InBudget limits) x) (frame : Frame)
    (span : Span) : Run (InBudget limits) (inFrame frame x >>= callResult span) := by
  intro m
  have h := hx (m.enter frame)
  rw [run_bind, run_inFrame]
  rcases hrun : x.run (m.enter frame) with ⟨result, m'⟩
  rw [hrun] at h
  cases result with
  | ok _ => exact h
  | error u =>
    cases u with
    | ret _ => exact fun _ => h
    | fail _ | brk | cont => exact trivial

/-! ## Loops -/

variable {round : EvalM σ Bool}

/-- How deep calls were at most, and whether one was refused. -/
structure Calls where
  deepest : Nat := 0
  refused : Bool := false

def Host.watched (p : Program) : Host Calls where
  program _ := p
  functionBody id c := (((Host.stored p).functionBody id ()).1, c)
  globalValue id c := (((Host.stored p).globalValue id ()).1, c)

def noteDepth : EvalM Calls Unit :=
  modify fun m => { m with host := { m.host with deepest := max m.host.deepest m.depth } }

def refuse (limits : EvalLimits) (span : Span) : EvalM Calls Value := do
  modify fun m => { m with host := { m.host with refused := true } }
  fail (.recursionLimit limits.depth) span

def calling {τ : Type} (p : Program) (decl : DefId) (span : Span) (x : FunctionDef → EvalM τ Value) : EvalM τ Value :=
  match p.function? decl with
  | none => fail (.notConstant "a call to a non-function") span
  | some f =>
    if !f.isComptime then fail (.notComptime (p.defName decl)) span
    else if f.receiver == some .mutable then fail (.notConstant "a `mut this` method") span
    else x f

def withBody {τ : Type} (f : FunctionDef) (span : Span) (x : Typed.Body → EvalM τ Value) : EvalM τ Value :=
  match f.body with
  | none => fail (.notConstant "a function without a checked body") span
  | some body => x body

def invokeWatched (p : Program) (limits : EvalLimits) :
    Nat → DefId → List TypeId → List Value → Span → EvalM Calls Value
  | n, decl, generics, args, span => calling p decl span fun f => do
    if limits.depth ≤ (← get).depth then refuse limits span
    else
      match n with
      | 0 => refuse limits span
      | n + 1 =>
        withBody f span fun body => do
          let env : Env Calls := { host := .watched p, limits, invoke := invokeWatched p limits n }
          let frame := callFrame body (Program.bindings f.generics generics) args
          callResult span (← inFrame frame (do noteDepth; evalExpr env body.expr))

def watchedEnv (p : Program) (limits : EvalLimits) (n : Nat) : Env Calls :=
  { host := .watched p, limits, invoke := invokeWatched p limits n }

def watch (p : Program) (limits : EvalLimits) (expr : Typed.Expr) (locals : Nat) :
    Except EvalFailure Value × Machine Calls :=
  let stop := (evalExpr (watchedEnv p limits limits.depth) expr).run
    { frame := .ofSize locals [], steps := 0, host := {} }
  (answer expr.span stop.1, stop.2)

/-- From one machine to another by calls that all end and are not deeper than they may be. -/
structure Within (limits : EvalLimits) (m m' : Machine Calls) : Prop where
  steps : m.steps ≤ m'.steps
  depth : m'.depth = m.depth
  deepest : m'.host.deepest ≤ max m.host.deepest limits.depth
  refused : m.host.refused → m'.host.refused

lemma Within.refl (m : Machine Calls) : Within limits m m := ⟨UInt64.le_refl _, rfl, Nat.le_max_left _ _, id⟩

variable {p : Program} {limits : EvalLimits}

lemma run_noteDepth (x : EvalM Calls Value) (m : Machine Calls) : (noteDepth >>= fun _ => x).run m =
    x.run { m with host := { m.host with deepest := max m.host.deepest m.depth } } := rfl

lemma invoke_stored : invoke (.stored p) limits n decl generics args span = calling p decl span (fun f => do
    if limits.depth ≤ (← get).depth then fail (.recursionLimit limits.depth) span
    else
      match n with
      | 0 => fail (.recursionLimit limits.depth) span
      | n + 1 =>
        withBody f span fun body =>
          inFrame (callFrame body (Program.bindings f.generics generics) args)
            (evalExpr ((Host.stored p).env limits n) body.expr) >>= callResult span) := by
  funext m
  show (invoke (.stored p) limits n decl generics args span).run m = (calling p decl span _).run m
  rw [invoke, run_get_bind, calling]
  dsimp only [Host.stored]
  cases hf : p.function? decl with
  | none => rfl
  | some f =>
    dsimp only
    split
    · rfl
    split
    · rfl
    rw [run_get_bind, run_get_bind]
    split
    · rfl
    cases n with
    | zero => rfl
    | succ n => cases f.body <;> rfl

lemma invoke_pair (limits' : EvalLimits) (m : Machine Calls)
    {P : Except Unwind Value × Machine Calls → Except Unwind Value × Machine Unit → Prop} (hle : n ≤ n')
    (hdepth : limits.depth ≤ limits'.depth) (hsame : limits = limits' → n = n')
    (hfail : ∀ error, P (.error (.fail ⟨error, span⟩), m) (.error (.fail ⟨error, span⟩), m.alone))
    (hrefused : ∀ y, (limits = limits' → y = (.error (.fail ⟨.recursionLimit limits'.depth, span⟩), m.alone)) →
      P (.error (.fail ⟨.recursionLimit limits.depth, span⟩), { m with host := { m.host with refused := true } }) y)
    (hbody : ∀ f body k k', n = k + 1 → n' = k' + 1 → p.function? decl = some f → f.body = some body →
      m.depth < limits.depth → ∀ frame,
        P ((inFrame frame (noteDepth >>= fun _ => evalExpr (watchedEnv p limits k) body.expr) >>= callResult span).run m)
          ((inFrame frame (evalExpr ((Host.stored p).env limits' k') body.expr) >>= callResult span).run m.alone)) :
    P ((invokeWatched p limits n decl generics args span).run m)
      ((invoke (.stored p) limits' n' decl generics args span).run m.alone) := by
  rw [invokeWatched, invoke_stored]
  unfold calling
  cases hf : p.function? decl with
  | none => exact hfail _
  | some f =>
    dsimp only
    split
    · exact hfail _
    split
    · exact hfail _
    rw [run_get_bind, run_get_bind, show m.alone.depth = m.depth from rfl]
    by_cases hdeep : limits.depth ≤ m.depth
    · rw [if_pos hdeep]
      refine hrefused _ fun heq => ?_
      rw [if_pos (heq ▸ hdeep)]
      rfl
    rw [if_neg hdeep, if_neg (by omega)]
    cases n with
    | zero =>
      refine hrefused _ fun heq => ?_
      rw [← hsame heq]
      rfl
    | succ k =>
      obtain ⟨k', rfl⟩ := Nat.exists_eq_add_one_of_ne_zero (by omega : n' ≠ 0)
      dsimp only
      unfold withBody
      cases hb : f.body with
      | none => exact hfail _
      | some body => exact hbody f body k k' rfl rfl hf hb (Nat.not_le.1 hdeep) _

/-- What holds of every call: it ends, goes no deeper than it may, and counts its steps. -/
def Watched (limits : EvalLimits) (x : EvalM Calls α) : Prop :=
  (∀ m, Within limits m (x.run m).2) ∧ Run (InBudget limits) x

variable {n : Nat}

lemma runs_within
    (h : ∀ decl generics args span, Watched limits (invokeWatched p limits n decl generics args span)) :
    Runs (watchedEnv p limits n) fun m _ m' => Within limits m m' := by
  refine .of_rel .refl (fun h h' => ?_) (fun m _ => ?_) (fun m k => ?_) (fun m _ => ?_)
    fun decl generics args span => (h decl generics args span).1
  · refine ⟨UInt64.le_trans h.steps h'.steps, h'.depth.trans h.depth, ?_, fun hm => h'.refused (h.refused hm)⟩
    have := h.deepest
    have := h'.deepest
    omega
  · exact ⟨UInt64.le_refl _, rfl, Nat.le_max_left _ _, id⟩
  · exact fun hle => ⟨hle, rfl, Nat.le_max_left _ _, id⟩
  · exact ⟨UInt64.le_refl _, rfl, Nat.le_max_left _ _, id⟩

lemma watched_evalExpr
    (h : ∀ decl generics args span, Watched limits (invokeWatched p limits n decl generics args span))
    (e : Typed.Expr) : Watched limits (evalExpr (watchedEnv p limits n) e) := by
  have hfit : (watchedEnv p limits n).paired.Fit :=
    Env.fit_paired fun decl generics args span m => ((h decl generics args span).1 m).steps
  have hpaired := Env.paired_evalExpr hfit e
  have hwithin := hpaired.runs (runs_within h) hfit.reads
  exact ⟨hwithin, hpaired.runs (runs_inBudget fun decl generics args span => (h decl generics args span).2) hfit.reads⟩

lemma within_inFrame {x : EvalM Calls Value} (h : Watched limits x) (frame : Frame) (span : Span) {m : Machine Calls}
    (hdepth : m.depth < limits.depth) :
    Within limits m ((inFrame frame (noteDepth >>= fun _ => x) >>= callResult span).run m).2 := by
  have hx := h.1 { m.enter frame with host := { m.host with deepest := max m.host.deepest (m.depth + 1) } }
  have hdeepest : _ ≤ max (max m.host.deepest (m.depth + 1)) limits.depth := hx.deepest
  have hback : _ = m.depth + 1 := hx.depth
  rw [run_bind, run_inFrame]
  dsimp only
  rw [run_callResult, run_noteDepth]
  refine ⟨hx.steps, ?_, ?_, hx.refused⟩
  · exact Nat.sub_eq_of_eq_add hback
  · have hmax : max (max m.host.deepest (m.depth + 1)) limits.depth = max m.host.deepest limits.depth := by omega
    exact hdeepest.trans_eq hmax

lemma watched_invoke (n : Nat) (decl : DefId) (generics : List TypeId) (args : List Value) (span : Span) :
    Watched limits (invokeWatched p limits n decl generics args span) := by
  suffices h : ∀ m, let stop := (invokeWatched p limits n decl generics args span).run m
      Within limits m stop.2 ∧ InBudget limits m (ending stop.1) stop.2 from ⟨fun m => (h m).1, fun m => (h m).2⟩
  intro m
  refine invoke_pair limits m (P := fun stop _ => Within limits m stop.2 ∧ InBudget limits m (ending stop.1) stop.2)
    (Nat.le_refl n) (Nat.le_refl _) (fun _ => rfl) (fun _ => ⟨.refl m, trivial⟩) (fun _ _ => ⟨?_, trivial⟩)
    fun f body k _ hk _ _ _ hdepth frame => ?_
  · exact ⟨UInt64.le_refl _, rfl, Nat.le_max_left _ _, fun _ => rfl⟩
  · subst hk
    have hbody := watched_evalExpr (watched_invoke k) body.expr
    have hnoted : Run (InBudget limits) (noteDepth >>= fun _ => evalExpr (watchedEnv p limits k) body.expr) :=
      fun m => hbody.2 _
    exact ⟨within_inFrame hbody frame span hdepth, inBudget_inFrame hnoted frame span m⟩
termination_by n
decreasing_by omega

/-! ## Greater limits -/

/-- A watched evaluation beside a plain one with other limits. -/
def watchedPairing (p : Program) (limits limits' : EvalLimits) (strict : Prop) (deferred : Typed.Stmt → Prop)
    (called : DefId → Prop) (n n' : Nat) : Pairing Calls where
  env := watchedEnv p limits n
  env' := (Host.stored p).env limits' n'
  seen a b := a = p ∧ b = p
  lax := False
  last := p
  strict
  deferred
  called

/-- A limit was reached where the other evaluation may go on; if nothing hides a failure, it fails. -/
def Missed (limits limits' : EvalLimits) (strict : Prop) (m : Machine Calls) (e : Option Unwind) : Prop :=
  limits ≠ limits' ∧ (m.host.refused ∨ limits.steps < m.steps) ∧ (strict → Fails e)

variable {limits' : EvalLimits}

lemma Missed.later {m m' : Machine Calls}
    (h : Missed limits limits' strict m e) (hm : Within limits m m') (hfails : strict → Fails e → Fails e') :
    Missed limits limits' strict m' e' :=
  ⟨h.1, h.2.1.imp hm.refused fun hover => UInt64.lt_of_lt_of_le hover hm.steps, fun hs => hfails hs (h.2.2 hs)⟩

/-- What is asked of a program when a failure at a limit shall not be hidden. -/
structure Greater (p : Program) (limits limits' : EvalLimits) (strict : Prop) (deferred : Typed.Stmt → Prop)
    (called : DefId → Prop) : Prop where
  steps : limits.steps ≤ limits'.steps
  depth : limits.depth ≤ limits'.depth
  quiet : strict → ∀ n stmt, deferred stmt → Quiet (evalStmt (watchedEnv p limits n) stmt)
  closed : strict → ∀ decl, called decl → ∀ f body, p.function? decl = some f → f.body = some body →
    body.expr.Calm deferred (CallsOf p called)

variable {limits' : EvalLimits} {strict : Prop} {deferred : Typed.Stmt → Prop} {called : DefId → Prop}
  (h : Greater p limits limits' strict deferred called)

include h

lemma Greater.fit (n n' : Nat) : (watchedPairing p limits limits' strict deferred called n n').Fit where
  seen _ _ hseen := .inl (hseen.2.trans hseen.1.symm)
  only _ _ _ _ hseen := hseen.1
  quiet _ hstrict := h.quiet hstrict n
  called := False.elim
  counts decl generics args span m := ((watched_invoke n decl generics args span).1 m).steps
  reads _ := ⟨p, rfl, rfl⟩

lemma Greater.law (n n' : Nat) (hcall : ∀ decl, (strict → called decl) → ∀ generics args span,
      (watchedPairing p limits limits' strict deferred called n n').Mirrored (fun _ => True) (Missed limits limits' strict)
        (invokeWatched p limits n decl generics args span) (invoke (.stored p) limits' n' decl generics args span)) :
    (watchedPairing p limits limits' strict deferred called n n').Law (fun _ => True) (Within limits)
      (Missed limits limits' strict) where
  steps := runs_within (watched_invoke n)
  host _ _ := ⟨trivial, .refl _⟩
  readable _ := ⟨p, rfl, rfl⟩
  reads _ _ _ := ⟨rfl, rfl⟩
  limits := h.steps
  fails := False.elim
  spent m failure hover := by
    by_cases hsame : limits = limits'
    · exact .inl (congrArg EvalLimits.steps hsame)
    · exact .inr ⟨hsame, .inr hover, fun _ => ⟨failure, rfl⟩⟩
  goesOn hbad hm := hbad.later hm fun _ ⟨_, hnone⟩ => by cases hnone
  caught hu hbad := hbad.later (.refl _) fun _ ⟨failure, hfails⟩ => absurd (Option.some.inj hfails) (hu failure)
  isFail hstrict hbad := by
    obtain ⟨failure, hfails⟩ := hbad.2.2 hstrict
    exact ⟨failure, Option.some.inj hfails⟩
  replaced hbad hm hfails := hbad.later hm fun hstrict _ => by
    obtain ⟨failure, rfl⟩ := hfails hstrict
    exact ⟨failure, rfl⟩
  returns _ hbad := hbad
  global id span := by
    refine fun m _ _ => .inr ?_
    have hwatched : (readGlobal (watchedEnv p limits n) id span).run m = (if isMutableStatic (p.kind id) then
      fail (.notConstant "a mutable static") span else orFail span ((Host.stored p).globalValue id ()).1 :
        EvalM Calls Value).run m := rfl
    show (if isMutableStatic (p.kind id) then fail _ span else orFail span ((Host.stored p).globalValue id ()).1 :
      EvalM Unit Value).run m.alone = (((readGlobal (watchedEnv p limits n) id span).run m).1,
        ((readGlobal (watchedEnv p limits n) id span).run m).2.alone)
    rw [hwatched]
    split
    · rfl
    · cases ((Host.stored p).globalValue id ()).1 <;> rfl
  call := hcall

lemma Greater.invoke (n n' : Nat) (hle : n ≤ n') (hsame : limits = limits' → n = n') (decl : DefId)
    (hdecl : strict → called decl) (generics : List TypeId) (args : List Value) (span : Span) :
    (watchedPairing p limits limits' strict deferred called n n').Mirrored (fun _ => True) (Missed limits limits' strict)
      (invokeWatched p limits n decl generics args span) (invoke (.stored p) limits' n' decl generics args span) := by
  intro m _ _
  refine invoke_pair limits' m (P := fun stop y => Missed limits limits' strict stop.2 (ending stop.1) ∨
    y = (stop.1, stop.2.alone)) hle h.depth hsame (fun _ => .inr rfl) (fun y hy => ?_)
    fun f body k k' hk hk' hf hbody _ frame => ?_
  · by_cases hlimits : limits = limits'
    · rw [hy hlimits, hlimits]
      exact .inr rfl
    · exact .inl ⟨hlimits, .inl rfl, fun _ => ⟨_, rfl⟩⟩
  · have hlaw := h.law k k' (Greater.invoke k k' (by omega) fun heq => by have := hsame heq; omega)
    have hpaired := paired_evalExpr (d := 0) (h.fit k k') body.expr
      ⟨False.elim, fun _ hstrict => h.closed hstrict decl (hdecl hstrict) f body hf hbody⟩
    -- Noting the depth changes nothing that the plain evaluation has.
    have hnoted : (watchedPairing p limits limits' strict deferred called k k').Mirrored (fun _ => True)
        (Missed limits limits' strict) (noteDepth >>= fun _ => evalExpr (watchedEnv p limits k) body.expr)
        (evalExpr ((Host.stored p).env limits' k') body.expr) := fun m _ => hpaired.mirrored hlaw _ trivial
    exact hlaw.inFrame hnoted frame span m trivial (.refl _)
termination_by n
decreasing_by omega

lemma Greater.mirrored (hle : n ≤ n') (hsame : limits = limits' → n = n')
    (hx : Paired (watchedPairing p limits limits' strict deferred called n n') d j x y)
    (m : Machine Calls) :
    Missed limits limits' strict (x.run m).2 (ending (x.run m).1) ∨ y.run m.alone = ((x.run m).1, (x.run m).2.alone) :=
  hx.mirrored (h.law n n' (h.invoke n n' hle hsame)) m trivial (.refl _)

omit h

lemma greater_self (p : Program) (limits : EvalLimits) : Greater p limits limits False (fun _ => True) fun _ => True :=
  ⟨UInt64.le_refl _, Nat.le_refl _, False.elim, False.elim⟩

lemma run_watched (hx : Paired (watchedPairing p limits limits False (fun _ => True) (fun _ => True) n n) d j x y)
    (m : Machine Calls) : y.run m.alone = ((x.run m).1, (x.run m).2.alone) :=
  ((greater_self p limits).mirrored (Nat.le_refl n) (fun _ => rfl) hx m).resolve_left fun hmissed => hmissed.1 rfl

/-- The statement does not jump out of itself, whatever the limits are. -/
def Stays (p : Program) (stmt : Typed.Stmt) : Prop := ∀ limits n, Quiet (evalStmt ((Host.stored p).env limits n) stmt)

lemma Stays.watched (h : Stays p stmt) (n : Nat) : Quiet (evalStmt (watchedEnv p limits n) stmt) := by
  intro m u hrun
  refine h limits n m.alone u ?_
  have hsame := run_watched (paired_evalStmt (d := 0) ((greater_self p limits).fit n n) stmt ⟨False.elim, fun _ => False.elim⟩) m
  exact (congrArg Prod.fst hsame).trans hrun

/-! ## The bounds of an evaluation -/

section

variable (p : Program) (limits : EvalLimits) (expr : Typed.Expr) (locals : Nat)

lemma evaluate_eq_watch :
    (evaluate (.stored p) limits expr locals ()).1 = (watch p limits expr locals).1 := by
  have hrun := run_watched (paired_evalExpr (d := 0) ((greater_self p limits).fit limits.depth limits.depth) expr
    ⟨False.elim, fun _ => False.elim⟩) { frame := .ofSize locals [], steps := 0, host := {} }
  exact congrArg (fun stop : Except Unwind Value × Machine Unit => answer expr.span stop.1) hrun

end

lemma evaluate_eq_or_missed (h : Greater p limits limits' strict deferred called) (hdepth : limits.depth ≤ limits'.depth)
    {expr : Typed.Expr} (hexpr : strict → expr.Calm deferred (CallsOf p called)) (locals : Nat) :
    (evaluate (.stored p) limits' expr locals ()).1 = (watch p limits expr locals).1 ∨
      ((watch p limits expr locals).2.host.refused ∨ limits.steps < (watch p limits expr locals).2.steps) ∧
        (strict → ∀ v, (watch p limits expr locals).1 ≠ .ok v) := by
  have hpaired := paired_evalExpr (d := 0) (h.fit limits.depth limits'.depth) expr ⟨False.elim, fun _ => hexpr⟩
  rcases h.mirrored hdepth (congrArg EvalLimits.depth) hpaired { frame := .ofSize locals [], steps := 0, host := {} } with
    ⟨_, hhit, hfails⟩ | hsame
  · refine .inr ⟨hhit, fun hstrict v hv => ?_⟩
    obtain ⟨failure, hfails⟩ := hfails hstrict
    cases (answer_of_ending hfails).symm.trans hv
  · exact .inl (congrArg (fun stop : Except Unwind Value × Machine Unit => answer expr.span stop.1) hsame)

/-- Greater limits never change the value of a constant, if no deferred statement that is reached jumps
out of itself, nor a failure before any limit. -/
theorem evaluate_of_greater_limits (p : Program) {limits limits' : EvalLimits} (hdepth : limits.depth ≤ limits'.depth)
    (hsteps : limits.steps ≤ limits'.steps) (expr : Typed.Expr) (locals : Nat) :
    (∀ called : DefId → Prop, (∀ decl, called decl → ∀ f body, p.function? decl = some f → f.body = some body →
        body.expr.Calm (Stays p) (CallsOf p called)) → expr.Calm (Stays p) (CallsOf p called) →
      ∀ v, (evaluate (.stored p) limits expr locals ()).1 = .ok v →
        (evaluate (.stored p) limits' expr locals ()).1 = .ok v) ∧
    ∀ failure, (evaluate (.stored p) limits expr locals ()).1 = .error failure →
      (watch p limits expr locals).2.host.refused = false → (watch p limits expr locals).2.steps ≤ limits.steps →
        (evaluate (.stored p) limits' expr locals ()).1 = .error failure := by
  rw [evaluate_eq_watch p limits]
  refine ⟨fun called hclosed hexpr v hv => ?_, fun failure hfails hrefused hcounted => ?_⟩
  · have h : Greater p limits limits' True (Stays p) called :=
      ⟨hsteps, hdepth, fun _ n _ hstmt => hstmt.watched n, fun _ => hclosed⟩
    have hsame := (evaluate_eq_or_missed h hdepth (fun _ => hexpr) locals).resolve_right
      fun hmissed => hmissed.2 trivial v hv
    rw [hsame, hv]
  · have h : Greater p limits limits' False (fun _ => True) fun _ => True :=
      ⟨hsteps, hdepth, False.elim, False.elim⟩
    have hsame := (evaluate_eq_or_missed h hdepth False.elim locals).resolve_right fun hmissed => by
      rcases hmissed.1 with hrefuse | hover
      · rw [hrefused] at hrefuse
        cases hrefuse
      · exact UInt64.not_lt.2 hcounted hover
    rw [hsame, hfails]

/-- `{ defer (); some () }` -/
def deferring : Typed.Expr :=
  let unit : Typed.Expr := ⟨.void, .void, {}⟩
  ⟨.block ⟨[.defer (.expr unit)], some ⟨.some unit, .void, {}⟩⟩, .void, {}⟩

lemma quiet_void : Quiet (evalStmt env (.expr ⟨.void, .void, {}⟩)) := by
  exact (quiet_tick.bind fun _ => quiet_pure).bind fun _ => quiet_pure

theorem evaluate_of_greater_limits_deferring :
    deferring.Calm (Stays {}) (CallsOf {} fun _ => False) ∧
      (evaluate (.stored {}) { depth := 0, steps := 4 } deferring 0 ()).1 = .ok (.some .void) ∧
      (evaluate (.stored {}) {} deferring 0 ()).1 = .ok (.some .void) := by
  have hstays : Stays {} (.expr ⟨.void, .void, {}⟩) := fun _ _ => quiet_void
  have hcalm : deferring.Calm (Stays {}) (CallsOf {} fun _ => False) := ⟨⟨⟨hstays, trivial⟩, trivial⟩, trivial⟩
  have hsmall : (evaluate (.stored {}) { depth := 0, steps := 4 } deferring 0 ()).1 = .ok (.some .void) := rfl
  exact ⟨hcalm, hsmall, (evaluate_of_greater_limits {} (by decide) (by decide) deferring 0).1 (fun _ => False)
    (fun _ => False.elim) hcalm _ hsmall⟩

end Kite.Eval
