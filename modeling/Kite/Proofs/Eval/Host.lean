/-
What evaluation does to its host. It goes from state to state only by asking for function bodies
and for values of globals, so what these preserve, a whole evaluation preserves.
-/
import Kite.Proofs.Eval.Paired

namespace Kite.Eval

variable {σ : Type} {host : Host σ} {r : Machine σ → Machine σ → Prop} {limits : EvalLimits} {m : Machine σ}

/-- A reflexive and transitive relation of machines to which the steps of the evaluator and the
answers of the host keep. -/
structure Host.Steps (host : Host σ) (r : Machine σ → Machine σ → Prop) : Prop where
  refl : ∀ m, r m m
  trans : ∀ {a b c}, r a b → r b c → r a c
  frame : ∀ (m : Machine σ) frame, r m { m with frame }
  depth : ∀ (m : Machine σ) depth, r m { m with depth }
  count : ∀ (m : Machine σ) steps, m.steps ≤ steps → r m { m with steps }
  global : ∀ (m : Machine σ) id, r m { m with host := (host.globalValue id m.host).2 }
  body : ∀ (m : Machine σ) id, r m { m with host := (host.functionBody id m.host).2 }

lemma Host.steps_count (host : Host σ) : host.Steps fun m m' => m.steps ≤ m'.steps :=
  ⟨fun _ => UInt64.le_refl _, UInt64.le_trans, fun _ _ => UInt64.le_refl _, fun _ _ => UInt64.le_refl _, fun _ _ => id,
    fun _ _ => UInt64.le_refl _, fun _ _ => UInt64.le_refl _⟩

/-- The environment of an evaluation in which `n` more calls may be inside one another. -/
def Host.env (host : Host σ) (limits : EvalLimits) (n : Nat) : Env σ := { host, limits, invoke := invoke host limits n }

def Env.paired (env : Env σ) : Pairing σ where
  env
  env' := { host := .stored {}, limits := {}, invoke := fun _ _ _ _ => fail .poisoned {} }
  seen p p' := p' = p
  lax := False
  last := {}
  strict := False
  deferred _ := True
  called _ := True

lemma Env.fit_paired {env : Env σ}
    (h : ∀ decl generics args span m, m.steps ≤ ((env.invoke decl generics args span).run m).2.steps) :
    env.paired.Fit :=
  ⟨fun _ _ => .inl, fun _ => False.elim, fun _ => False.elim, False.elim, h, fun _ => ⟨_, rfl⟩⟩

lemma Env.paired_evalExpr {env : Env σ} (h : env.paired.Fit) (e : Typed.Expr) :
    Paired env.paired 0 e.escapes (evalExpr env e) (evalExpr env.paired.env' e) :=
  Eval.paired_evalExpr h e ⟨False.elim, fun _ => False.elim⟩

/-- A machine as the body of a call starts with it. -/
def Machine.enter (m : Machine σ) (frame : Frame) : Machine σ := { m with frame, depth := m.depth + 1 }

/-- A machine as a call gives it back to the frame that has called. -/
def Machine.leave (m : Machine σ) (frame : Frame) : Machine σ := { m with frame, depth := m.depth - 1 }

lemma run_inFrame : (inFrame frame x).run m =
    (.ok (x.run (m.enter frame)).1, (x.run (m.enter frame)).2.leave m.frame) := rfl

lemma run_callResult : ((callResult span result).run m).2 = m := by
  cases result with
  | ok _ => rfl
  | error u => cases u <;> rfl

lemma Host.Steps.inFrame (hr : host.Steps r) {x : EvalM σ Value} (hx : ∀ m, r m (x.run m).2) (frame : Frame)
    (span : Span) (m : Machine σ) : r m ((Eval.inFrame frame x >>= callResult span).run m).2 := by
  rw [run_bind, run_inFrame]
  rw [run_callResult]
  have henter : r m (m.enter frame) := hr.trans (hr.frame m frame) (hr.depth _ _)
  have hleave (m' : Machine σ) : r m' (m'.leave m.frame) := hr.trans (hr.frame m' m.frame) (hr.depth _ _)
  exact hr.trans henter (hr.trans (hx (m.enter frame)) (hleave _))

lemma steps_invoke : ∀ n {r},
    host.Steps r → ∀ decl generics args span m, r m ((invoke host limits n decl generics args span).run m).2
  | n, r, hr, decl, generics, args, span, m => by
    have hfails (error : EvalError) (m : Machine σ) : r m ((fail error span : EvalM σ Value).run m).2 := hr.refl m
    unfold invoke
    rw [run_bind, show (get : EvalM σ (Machine σ)).run m = (.ok m, m) from rfl]
    dsimp only
    split
    · exact hfails _ m
    split
    · exact hfails _ m
    split
    · exact hfails _ m
    rw [run_bind, show (get : EvalM σ (Machine σ)).run m = (.ok m, m) from rfl]
    dsimp only
    split
    · exact hfails _ m
    cases n with
    | zero => exact hfails _ m
    | succ n =>
      refine hr.trans (hr.body m decl) ?_
      rw [run_bind, show (askHost (host.functionBody decl)).run m =
        (.ok (host.functionBody decl m.host).1, { m with host := (host.functionBody decl m.host).2 }) from rfl]
      dsimp only
      split
      · exact hfails _ _
      · rename_i body _
        have hcalls : Runs (host.env limits n) fun m _ m' => r m m' :=
          .of_rel hr.refl hr.trans hr.frame hr.count hr.global (steps_invoke n hr)
        have hfit : (host.env limits n).paired.Fit := Env.fit_paired (steps_invoke n host.steps_count)
        have hbody := (Env.paired_evalExpr hfit body.expr).runs hcalls hfit.reads
        exact hr.inFrame hbody _ span _

lemma Host.fit_env (host : Host σ) {n : Nat} : (host.env limits n).paired.Fit :=
  Env.fit_paired (steps_invoke n host.steps_count)

lemma Host.Steps.env (hr : host.Steps r) (limits : EvalLimits) (n : Nat) :
    Runs (host.env limits n) fun m _ m' => r m m' :=
  .of_rel hr.refl hr.trans hr.frame hr.count hr.global (steps_invoke n hr)

lemma Host.Steps.evalExpr (hr : host.Steps r) (limits : EvalLimits) (n : Nat) (e : Typed.Expr)
    (m : Machine σ) : r m ((Eval.evalExpr (host.env limits n) e).run m).2 :=
  (Env.paired_evalExpr host.fit_env e).runs (hr.env limits n) host.fit_env.reads m

inductive Host.Asked (host : Host σ) : σ → σ → Prop where
  | refl (s : σ) : Asked host s s
  | trans (h : Asked host a b) (h' : Asked host b c) : Asked host a c
  | functionBody (id : DefId) (s : σ) : Asked host s (host.functionBody id s).2
  | globalValue (id : DefId) (s : σ) : Asked host s (host.globalValue id s).2

lemma Host.steps_asked (host : Host σ) : host.Steps fun m m' => host.Asked m.host m'.host :=
  ⟨fun m => .refl m.host, .trans, fun m _ => .refl m.host, fun m _ => .refl m.host, fun m _ _ => .refl m.host,
    fun m id => .globalValue id m.host,
    fun m id => .functionBody id m.host⟩

lemma asked_evaluate (limits : EvalLimits) (expr : Typed.Expr) (locals : Nat) (s : σ) :
    host.Asked s (evaluate host limits expr locals s).2 :=
  host.steps_asked.evalExpr limits limits.depth expr { frame := .ofSize locals [], steps := 0, host := s }

end Kite.Eval
