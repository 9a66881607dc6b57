/-
Reasoning about evaluation. A computation keeps an invariant of the frame when it holds again
however the computation ends; what it gives and how it may be left are told along with it. The
rules follow the steps of the evaluator, so that a proof follows the tree.
-/
import Kite.Eval.Run
import Mathlib.Tactic.Lemma

namespace Kite.Eval

open Eval

variable {σ α β : Type} {x : EvalM σ α} {m : Machine σ}

/-- Started in a frame in `I`, the computation ends in one, with a result in `P` or left by an
unwinding in `U`. -/
def Keeps (I : Frame → Prop) (x : EvalM σ α) (P : α → Prop) (U : Unwind → Prop) : Prop :=
  ∀ m : Machine σ, I m.frame → match x.run m with
    | (.ok a, m') => I m'.frame ∧ P a
    | (.error u, m') => I m'.frame ∧ U u

def EndsIn (P : α → Prop) (U : Unwind → Prop) : Except Unwind α → Prop
  | .ok a => P a
  | .error u => U u

/-- Failures are always allowed for. -/
class Fallible (U : Unwind → Prop) : Prop where
  fail : ∀ failure, U (.fail failure)

lemma run_bind (x : EvalM σ α) (f : α → EvalM σ β) (m : Machine σ) :
    (x >>= f).run m = match x.run m with
      | (.ok a, m') => (f a).run m'
      | (.error u, m') => (.error u, m') := by
  rw [ExceptT.run_bind]
  show StateT.bind x.run _ m = _
  simp only [StateT.bind]
  rcases x.run m with ⟨r, m'⟩
  cases r <;> rfl

lemma run_attempt : (attempt x).run m = (.ok (x.run m).1, (x.run m).2) := rfl

namespace Keeps

variable {I : Frame → Prop} {P : α → Prop} {U : Unwind → Prop}

/-! ## Composition -/

lemma pure {a : α} (h : P a) : Keeps I (Pure.pure a : EvalM σ α) P U := fun _ hm => ⟨hm, h⟩

lemma bind {f : α → EvalM σ β} (hx : Keeps I x P U) (hf : ∀ a, P a → Keeps I (f a) Q U) : Keeps I (x >>= f) Q U := by
  intro m hm
  have h := hx m hm
  rw [run_bind]
  rcases hr : x.run m with ⟨r, m'⟩
  rw [hr] at h
  cases r with
  | ok a => exact hf a h.2 m' h.1
  | error u => exact h

lemma get_bind {f : Machine σ → EvalM σ β} (h : ∀ m, I m.frame → Keeps I (f m) Q U) : Keeps I (get >>= f) Q U :=
  fun m hm => h m hm m hm

lemma program_bind {env : Env σ} (h : ∀ s, Keeps I (f (env.host.program s)) Q U) : Keeps I (env.program >>= f) Q U :=
  fun m hm => h m.host m hm

lemma ends (h : Keeps I x P U) (hm : I m.frame) : EndsIn P U (x.run m).1 := by
  have h := h m hm
  rcases hr : x.run m with ⟨r, m'⟩
  rw [hr] at h
  cases r <;> exact h.2

lemma mono (h : Keeps I x P U) (hP : ∀ a, P a → P' a) (hU : ∀ u, U u → V u) : Keeps I x P' V := by
  intro m hm
  have h := h m hm
  rcases hr : x.run m with ⟨r, m'⟩
  rw [hr] at h
  cases r with
  | ok a => exact ⟨h.1, hP a h.2⟩
  | error u => exact ⟨h.1, hU u h.2⟩

lemma weaken (h : Keeps I x P U) (hP : ∀ a, P a → P' a) : Keeps I x P' U := h.mono hP fun _ hu => hu

lemma throw (h : U u) : Keeps I (throw u : EvalM σ α) P U := fun _ hm => ⟨hm, h⟩

lemma fail [Fallible U] (error : EvalError) (span : Span) : Keeps I (fail error span : EvalM σ α) P U :=
  throw (Fallible.fail _)

lemma orFail [Fallible U] (span : Span) (h : ∀ a, r = .ok a → P a) :
    Keeps I (orFail span r : EvalM σ α) P U := by
  cases r with
  | ok a => exact pure (h a rfl)
  | error e => exact fail e span

lemma attempt (h : Keeps I x P U) : Keeps I (attempt x) (EndsIn P U) V := by
  intro m hm
  have h := h m hm
  rw [run_attempt]
  rcases hr : x.run m with ⟨r, m'⟩
  rw [hr] at h
  cases r <;> exact h

/-! ## Steps -/

lemma setSteps (f : UInt64 → UInt64) :
    Keeps I (modify fun m => { m with steps := f m.steps } : EvalM σ Unit) (fun _ => True) U :=
  fun _ hm => ⟨hm, trivial⟩

lemma countSteps [Fallible U] (n : UInt64) (span : Span) : Keeps I (countSteps n span : EvalM σ Unit) (fun _ => True) U := by
  refine get_bind fun m _ => ?_
  dsimp only
  split
  · exact (setSteps fun _ => _).bind fun _ _ => fail _ _
  · exact setSteps (· + n)

lemma tick [Fallible U] (limits : EvalLimits) (span : Span) :
    Keeps I (tick limits span : EvalM σ Unit) (fun _ => True) U := by
  refine (countSteps 1 span).bind fun _ _ => get_bind fun m _ => ?_
  split
  · exact fail _ _
  · exact pure trivial

lemma askHost (h : ∀ s, P (f s).1) : Keeps I (askHost f : EvalM σ α) P U := fun m hm => ⟨hm, h m.host⟩

lemma bindLocal {id : LocalId} (h : ∀ frame, I frame → I (frame.bind id v)) :
    Keeps I (bindLocal id v : EvalM σ Unit) (fun _ => True) U :=
  fun m hm => ⟨h m.frame hm, trivial⟩

lemma asCondition [Fallible U] (v : Value) (span : Span) :
    Keeps I (asCondition v span : EvalM σ Bool) (fun _ => True) U := by
  unfold Eval.asCondition
  split
  · exact pure trivial
  · exact fail _ _

variable {P : Value → Prop}

lemma logical (h : ∀ b, P (.bool b)) (hleft : Keeps I left (fun _ => True) U)
    (hright : Keeps I right (fun _ => True) U) : Keeps I (logical op left right) P U := by
  have htest (b c : Bool) : Keeps I (if c then return .bool b else do return .bool (← right)) P U := by
    split
    · exact pure (h b)
    · exact hright.bind fun c _ => pure (h c)
  exact hleft.bind fun b _ => htest b _

lemma inFrame {x : EvalM σ Value} (h : Keeps J x P U)
    (hframe : J frame) : Keeps I (inFrame frame x) (EndsIn P U) V :=
  fun m hm => ⟨hm, h.ends (m := { m with frame, depth := m.depth + 1 }) hframe⟩

/-! ## Loops -/

lemma loopBody (h : Keeps I body P V) (hout : ∀ u, V u → u ≠ .brk → u ≠ .cont → U u) :
    Keeps I (loopBody body) (fun again => again = false → V .brk) U := by
  refine h.attempt.bind fun r hr => ?_
  cases r with
  | ok a => exact pure (by simp)
  | error u =>
    cases u with
    | cont => exact pure (by simp)
    | brk => exact pure fun _ => hr
    | fail failure | ret v => exact throw (hout _ hr (by simp) (by simp))

variable {round : EvalM σ Bool}

lemma repeatRounds {stuck : EvalM σ Unit} (hround : Keeps I round R U)
    (hstuck : Keeps I stuck (fun _ => R false) U) :
    ∀ n, Keeps I (repeatRounds round stuck n) (fun _ => R false) U
  | 0 => hstuck
  | n + 1 => by
    refine hround.bind fun again h => ?_
    cases again with
    | true => exact repeatRounds hround hstuck n
    | false => exact pure h

lemma whileTicking [Fallible U] (limits : EvalLimits) (span : Span) (hround : Keeps I round R U) :
    Keeps I (whileTicking limits span round) (fun _ => R false) U :=
  get_bind fun _ _ => repeatRounds hround (fail _ _) _

lemma countUp {id : LocalId} (hid : ∀ n frame, I frame → I (frame.bind id (.int n ty)))
    (hbody : Keeps I (Eval.loopBody body) R U) :
    ∀ n current, Keeps I (Eval.countUp id ty body n current) (fun _ => True) U
  | 0, _ => pure trivial
  | n + 1, current => by
    refine (bindLocal (hid current)).bind fun _ _ => hbody.bind fun again _ => ?_
    cases again with
    | true => exact countUp hid hbody n (current + 1)
    | false => exact pure trivial

lemma forItems {id : LocalId} (hbody : Keeps I (Eval.loopBody body) R U) :
    ∀ items : List Value, (∀ v ∈ items, ∀ frame, I frame → I (frame.bind id v)) →
      Keeps I (Eval.forItems id body items) (fun _ => True) U
  | [], _ => pure trivial
  | v :: rest, hid => by
    refine (bindLocal (hid v (.head _))).bind fun _ _ => hbody.bind fun again _ => ?_
    cases again with
    | true => exact forItems hbody rest fun w hw => hid w (.tail _ hw)
    | false => exact pure trivial

lemma deferred : ∀ ds : List (EvalM σ Unit), (∀ d ∈ ds, Keeps I d (fun _ => True) U) →
    Keeps I (ds.forM id) (fun _ => True) U
  | [], _ => pure trivial
  | d :: ds, h => by exact (h d (.head _)).bind fun _ _ => deferred ds fun e he => h e (.tail _ he)

end Keeps

end Kite.Eval
