/-
Failures are not lost. A step that fails ends the evaluation it is part of, through all calls, loops
and blocks around it. Only a deferred statement that jumps puts another ending in its place.
-/
import Kite.Proofs.Eval.Limits

namespace Kite.Eval

variable {σ : Type}

/-- Some step fails while the computation runs from a machine. Where it fails in the statements or the
tail of a block, none of the statements deferred so far may jump; they are steps of the block as well,
which follow on how it ends. -/
inductive Raises : {α : Type} → EvalM σ α → Machine σ → Prop where
  | here {x : EvalM σ α} {failure : EvalFailure} (h : (x.run m).1 = .error (.fail failure)) : Raises x m
  | first {x : EvalM σ α} {f : α → EvalM σ β} (h : Raises x m) : Raises (x >>= f) m
  | next {x : EvalM σ α} {f : α → EvalM σ β} (hx : x.run m = (.ok a, m')) (h : Raises (f a) m') : Raises (x >>= f) m
  | round (h : Raises x m) : Raises (loopBody x) m
  | call (h : Raises x (m.enter frame)) (span : Span) : Raises (inFrame frame x >>= callResult span) m
  | stmt (hquiet : ∀ d ∈ deferred, Quiet d) (h : Raises x m) (rest : List (Bool × EvalM σ Unit))
    (tail : EvalM σ Value) : Raises (runItems tail ((false, x) :: rest) deferred) m
  | tail (hquiet : ∀ d ∈ deferred, Quiet d) (h : Raises x m) : Raises (runItems x [] deferred) m

lemma leaveBlock_fails (hquiet : ∀ d ∈ deferred, Quiet d) {failure : EvalFailure} : ∃ failure',
    ((leaveBlock (.error (.fail failure)) deferred).run m).1 = .error (.fail failure') := by
  rw [run_leaveBlock]
  rcases hrun : (deferred.forM id).run m with ⟨r, m'⟩
  cases r with
  | ok _ => exact ⟨failure, rfl⟩
  | error u =>
    obtain ⟨failure', rfl⟩ := quiet_forM hquiet m u (by rw [hrun])
    exact ⟨failure', rfl⟩

lemma Raises.fails {x : EvalM σ α} (h : Raises x m) : ∃ failure, (x.run m).1 = .error (.fail failure) := by
  induction h with
  | here h => exact ⟨_, h⟩
  | first _ ih =>
    obtain ⟨failure, hx⟩ := ih
    refine ⟨failure, ?_⟩
    rw [run_bind]
    split
    · rename_i hrun
      rw [hrun] at hx
      cases hx
    · rename_i hrun
      rw [hrun] at hx
      cases hx
      rfl
  | next hx _ ih => rwa [run_bind, hx]
  | round _ ih =>
    obtain ⟨failure, hx⟩ := ih
    exact ⟨failure, by rw [run_loopBody, hx]⟩
  | call _ _ ih =>
    obtain ⟨failure, hx⟩ := ih
    exact ⟨failure, by rw [run_bind, run_inFrame, hx]; rfl⟩
  | stmt hquiet _ _ _ ih | tail hquiet _ ih =>
    obtain ⟨failure, hx⟩ := ih
    rw [runItems, run_bind, run_attempt, hx]
    exact leaveBlock_fails hquiet

/-- Whatever fails has a derivation. -/
lemma raises_iff {x : EvalM σ α} : Raises x m ↔ ∃ failure, (x.run m).1 = .error (.fail failure) :=
  ⟨Raises.fails, fun ⟨_, h⟩ => .here h⟩

/-- An evaluation during which some step fails gives a failure, if no statement jumps that is deferred
in a block around the step. -/
theorem evaluate_fails (host : Host σ) (limits : EvalLimits) (expr : Typed.Expr) (locals : Nat) (s : σ)
    (h : Raises (evalExpr (host.env limits limits.depth) expr) { frame := .ofSize locals [], steps := 0, host := s }) :
    ∃ failure, (evaluate host limits expr locals s).1 = .error failure := by
  obtain ⟨failure, hfails⟩ := raises_iff.1 h
  rw [evaluate_eq, hfails]
  exact ⟨failure, rfl⟩

/-- `{ defer d; none! }` -/
def unwrapping (d : Typed.Expr) : Typed.Expr :=
  ⟨.block ⟨[.defer (.expr d)], some ⟨.unwrap ⟨.none, .void, {}⟩, .void, {}⟩⟩, .void, {}⟩

theorem evaluate_fails_unwrapping :
    ∃ failure, (evaluate (.stored {}) {} (unwrapping ⟨.void, .void, {}⟩) 0 ()).1 = .error failure := by
  refine evaluate_fails (.stored {}) {} _ 0 () ?_
  rw [unwrapping, evalExpr]
  refine .next rfl ?_
  rw [evalKind, evalBlock_eq]
  exact .tail (List.forall_mem_singleton.2 quiet_void) (.here rfl)

/-- A deferred `return` puts its value in the place of a failure. -/
theorem deferred_return_hides_failure :
    (evaluate (.stored {}) {} (unwrapping ⟨.ret none, .void, {}⟩) 0 ()).1 = .ok .void := rfl

end Kite.Eval
