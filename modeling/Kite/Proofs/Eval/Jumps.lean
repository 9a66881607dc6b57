/-
The analysis of jumps is sound: where an expression, a statement or a block is left by a `return`,
`break` or `continue`, the analysis says that it may be.
-/
import Kite.Proofs.Eval.Mirror

namespace Kite.Eval

variable {σ α : Type} {x : EvalM σ α} {j : Bool}

instance : Fallible (Unwind.Inside d) := ⟨fun _ => trivial⟩

/-- Control remains within `d` loops around the computation. -/
def Remains (d : Nat) (x : EvalM σ α) : Prop := Keeps (fun _ => True) x (fun _ => True) (Unwind.Inside d)

lemma Quiet.remains (h : Quiet x) : Remains d x := by
  intro m _
  split
  · exact ⟨trivial, trivial⟩
  · rename_i hrun
    obtain ⟨failure, rfl⟩ := h m _ (by rw [hrun])
    exact ⟨trivial, trivial⟩

lemma remains_runItems {tail : EvalM σ Value} (htail : Remains d tail) : ∀ items deferred,
    (∀ i ∈ items, Remains d i.2) → (∀ x ∈ deferred, Remains d x) → Remains d (runItems tail items deferred)
  | [], deferred, _, hdeferred => htail.attempt.bind fun r hr => remains_leave r deferred hr hdeferred
  | (true, x) :: rest, deferred, hitems, hdeferred =>
    remains_runItems htail rest (x :: deferred) (fun i hi => hitems i (.tail _ hi))
      (List.forall_mem_cons.2 ⟨hitems _ (.head _), hdeferred⟩)
  | (false, x) :: rest, deferred, hitems, hdeferred => by
    refine (hitems _ (.head _)).attempt.bind fun r hr => ?_
    cases r with
    | ok _ => exact remains_runItems htail rest deferred (fun i hi => hitems i (.tail _ hi)) hdeferred
    | error u => exact remains_leave (.error u) deferred hr hdeferred
where
  remains_leave (r : Except Unwind Value) (deferred : List (EvalM σ Unit)) (hr : EndsIn (fun _ => True) (Unwind.Inside d) r)
      (hdeferred : ∀ x ∈ deferred, Remains d x) : Remains d (leaveBlock r deferred) := by
    refine (Keeps.deferred deferred hdeferred).bind fun _ _ => ?_
    cases r with
    | ok _ => exact .pure trivial
    | error u => exact .throw hr

lemma Paired.remains (hcalls : ∀ decl generics args span, Quiet (w.env.invoke decl generics args span))
    (hseen : ∀ s, ∃ p, w.seen (w.env.host.program s) p) (h : Paired w d j x y) : j = false → Remains d x := by
  induction h with
  | pure => exact fun _ => .pure trivial
  | fail | ofFail => exact fun _ => .fail _ _
  | bind _ _ ih ih' => exact fun hj => (ih hj).bind fun a _ => ih' a hj
  | look _ ih => exact fun hj => .get_bind fun m _ => ih m hj
  | change => exact fun _ _ _ => ⟨trivial, trivial⟩
  | reads _ ih =>
    refine fun hj => .program_bind fun s => ?_
    obtain ⟨p, hp⟩ := hseen s
    exact ih _ p hp hj
  | global id span =>
    refine fun _ => .program_bind fun s => ?_
    split
    · exact .fail _ _
    · exact Keeps.bind (P := fun _ => True) (.askHost fun _ => trivial) fun _ _ => .orFail _ fun _ _ => trivial
  | tick => exact fun _ => .tick _ _
  | count => exact fun _ => (Keeps.countSteps _ _).bind fun _ _ => .tick _ _
  | jump _ _ hout ih => exact fun hj => (Keeps.tick _ _).bind fun _ _ => (ih hj).bind fun a _ => .throw (hout hj a)
  | call => exact fun _ => (hcalls _ _ _ _).remains
  | loopBody _ ih =>
    refine fun hj => ((ih hj).loopBody fun u hu hbrk hcont => ?_).weaken fun _ _ => trivial
    cases u with
    | fail _ => trivial
    | ret _ => exact hu
    | brk => exact absurd rfl hbrk
    | cont => exact absurd rfl hcont
  | whileTicking _ _ _ ih => exact fun hj => (ih hj).whileTicking _ _
  | block _ items _ _ ihtail ihitems =>
    refine fun hj => remains_runItems (ihtail hj) _ [] (fun i hi => ?_) (List.forall_mem_nil _)
    obtain ⟨item, hitem, rfl⟩ := List.mem_map.1 hi
    exact ihitems item hitem hj
  | mono _ hij ih => exact fun hj => ih (Bool.eq_false_iff.2 fun hi => by cases hj.symm.trans (hij hi))

/-- A call fails or returns, however its body is left. -/
lemma quiet_invoke (host : Host σ) (limits : EvalLimits) (n : Nat) (decl : DefId) (generics : List TypeId)
    (args : List Value) (span : Span) : Quiet (invoke host limits n decl generics args span) := by
  have hfails {α : Type} (error : EvalError) : Quiet (fail error span : EvalM σ α) := fun _ _ h => ⟨_, (Except.error.inj h).symm⟩
  intro m
  unfold invoke
  rw [run_get_bind]
  dsimp only
  split
  · exact hfails _ m
  split
  · exact hfails _ m
  split
  · exact hfails _ m
  rw [run_get_bind]
  split
  · exact hfails _ m
  cases n with
  | zero => exact hfails _ m
  | succ n =>
    refine Quiet.bind (x := askHost (host.functionBody decl)) (fun _ _ h => by cases h) (fun body => ?_) m
    cases body with
    | none => exact hfails _
    | some body =>
      refine Quiet.bind (fun _ _ h => by cases h) fun r => ?_
      rcases r with u | v
      · cases u with
        | fail failure => exact fun _ _ h => ⟨failure, (Except.error.inj h).symm⟩
        | ret v => exact quiet_pure
        | brk | cont => exact hfails _
      · exact quiet_pure

lemma Paired.jumps {host : Host σ} (h : Paired (host.env limits n).paired 0 j x y) (hu : ∀ failure, u ≠ .fail failure)
    (hrun : (x.run m).1 = .error u) : j = true := by
  by_contra hj
  have hends := (h.remains (quiet_invoke host limits n) host.fit_env.reads (Bool.eq_false_iff.2 hj)).ends (m := m) trivial
  rw [hrun] at hends
  cases u with
  | fail failure => exact hu failure rfl
  | ret _ => exact hends
  | brk | cont => exact hends rfl

/-- Whatever the machine and the limits: what is left by a jump may jump, as the analysis has it. -/
theorem jumps_of_unwinds (host : Host σ) (limits : EvalLimits) (calls : Nat) (m : Machine σ) (u : Unwind)
    (hu : ∀ failure, u ≠ .fail failure) :
    (∀ e, ((evalExpr (host.env limits calls) e).run m).1 = .error u → e.escapes) ∧
      (∀ s, ((evalStmt (host.env limits calls) s).run m).1 = .error u → Typed.Jumps.stmt 0 s) ∧
      ∀ b, ((evalBlock (host.env limits calls) b).run m).1 = .error u → Typed.Jumps.block 0 b :=
  ⟨fun e => (Env.paired_evalExpr host.fit_env e).jumps hu,
    fun s => (paired_evalStmt host.fit_env s ⟨False.elim, fun _ => False.elim⟩).jumps hu,
    fun b => (paired_evalBlock host.fit_env b ⟨False.elim, fun _ => False.elim⟩).jumps hu⟩

/-- A `break` leaves a block, though not the loop around it. -/
theorem jumps_of_unwinds_break : let b : Typed.Block := ⟨[], some ⟨.brk, .void, {}⟩⟩
    Typed.Jumps.block 0 b ∧ Typed.Jumps.stmt 0 (.loop b) = false :=
  ⟨(jumps_of_unwinds (.stored {}) {} 0 { frame := .ofSize 0 [], steps := 0, host := () } .brk (nofun)).2.2 _ rfl, rfl⟩

end Kite.Eval
