/-
Integer arithmetic while compiling. An operator computes in the type of its left operand: it gives
the exact result if that type holds it, and reports an overflow otherwise, although products are cut
at a greatest number and bits are combined in words of a fixed width.
-/
import Kite.Proofs.Eval.Paired
import Mathlib.Data.Int.Bitwise

namespace Kite.Eval

variable {r : Except EvalError Value} {n : Int}

/-- The operators on integers that compute, other than shifts. -/
def arithmetic : List BinaryOp := [.add, .sub, .mul, .div, .rem, .bitAnd, .bitOr, .bitXor]

/-- The exact result of an operator; there is none for a division by zero. -/
def exactInt? (op : BinaryOp) (a b : Int) : Option Int :=
  match op with
  | .add => some (a + b)
  | .sub => some (a - b)
  | .mul => some (a * b)
  | .div => if b = 0 then none else some (a.tdiv b)
  | .rem => if b = 0 then none else some (a.tmod b)
  | .bitAnd => some (a.land b)
  | .bitOr => some (a.lor b)
  | .bitXor => some (Int.xor a b)
  | _ => none

/-! ## Words -/

lemma pow2_wideBits : pow2 wideBits = 2 ^ 128 := rfl

lemma wideMax_eq : wideMax = 2 ^ 127 - 1 := rfl

/-- A number that a word stands for: its bits from the highest of the word on are equal. -/
def Wide (n : Int) : Prop := ∃ k < 2 ^ 127, n = .ofNat k ∨ n = .negSucc k

lemma testBit_low (hk : k < 2 ^ 127) (i : Nat) : k.testBit (min i 127) = k.testBit i := by
  rcases Nat.le_total i 127 with hi | hi
  · rw [Nat.min_eq_left hi]
  · rw [Nat.min_eq_right hi, Nat.testBit_lt_two_pow hk,
      Nat.testBit_lt_two_pow (Nat.lt_of_lt_of_le hk (Nat.pow_le_pow_right (by decide) hi))]

lemma Wide.testBit_low (hn : Wide n) (i : Nat) : n.testBit (min i 127) = n.testBit i := by
  obtain ⟨k, hk, rfl | rfl⟩ := hn
  · exact Eval.testBit_low hk i
  · exact congrArg (!·) (Eval.testBit_low hk i)

lemma testBit_word (hn : Wide n) (hi : i < 128) : (n % pow2 wideBits).toNat.testBit i = n.testBit i := by
  rw [pow2_wideBits]
  obtain ⟨k, hk, rfl | rfl⟩ := hn
  · rw [show (Int.ofNat k % (2 ^ 128 : Nat)).toNat = k by rw [Int.ofNat_eq_natCast]; omega]
    rfl
  · rw [show (Int.negSucc k % (2 ^ 128 : Nat)).toNat = 2 ^ 128 - (k + 1) by rw [Int.negSucc_eq]; omega,
      Nat.testBit_two_pow_sub_succ (by omega), decide_eq_true hi, Bool.true_and]
    rfl

lemma testBit_number {x : Nat} (hx : x < 2 ^ 128) :
    (if wideMax < (x : Int) then (x : Int) - pow2 wideBits else x).testBit i = x.testBit (min i 127) := by
  rw [wideMax_eq, pow2_wideBits]
  by_cases hlow : x < 2 ^ 127
  · rw [if_neg (by omega), testBit_low hlow]
    rfl
  · obtain ⟨k, hk⟩ : ∃ k, k = 2 ^ 128 - (x + 1) := ⟨_, rfl⟩
    rw [if_pos (by omega), show (x : Int) - (2 ^ 128 : Nat) = .negSucc k by rw [Int.negSucc_eq]; omega,
      show x = 2 ^ 128 - (k + 1) by omega, Nat.testBit_two_pow_sub_succ (by omega),
      decide_eq_true (by omega), Bool.true_and, testBit_low (by omega)]
    rfl

variable {a b : Int}

lemma eq_of_testBit (h : ∀ i, a.testBit i = b.testBit i) : a = b := by
  -- far enough to the left the bits of a number are those of its sign
  have hsign : ∀ (m n : Nat), ¬ ∀ i, m.testBit i = !n.testBit i := by
    intro m n h
    have hi := h (m + n)
    rw [Nat.testBit_lt_two_pow (Nat.lt_of_le_of_lt (by omega) Nat.lt_two_pow_self),
      Nat.testBit_lt_two_pow (Nat.lt_of_le_of_lt (by omega) Nat.lt_two_pow_self)] at hi
    cases hi
  cases a <;> cases b
  · exact congrArg _ (Nat.eq_of_testBit_eq h)
  · exact absurd h (hsign _ _)
  · exact absurd (fun i => (h i).symm) (hsign _ _)
  · exact congrArg _ (Nat.eq_of_testBit_eq fun i => Bool.not_inj (h i))

lemma bitwise_eq {F : Int → Int → Int} (g : Bool → Bool → Bool)
    (hf : ∀ x y i, (f x y).testBit i = g (x.testBit i) (y.testBit i)) (hg : g false false = false)
    (hF : ∀ a b i, (F a b).testBit i = g (a.testBit i) (b.testBit i)) (ha : Wide a)
    (hb : Wide b) : bitwise f a b = F a b := by
  have hword : ∀ (n : Int) (j : Nat), 128 ≤ j → (n % pow2 wideBits).toNat.testBit j = false := by
    intro n j hj
    refine Nat.testBit_lt_two_pow (Nat.lt_of_lt_of_le ?_ (Nat.pow_le_pow_right (by decide) hj))
    rw [pow2_wideBits]
    omega
  have hresult : f (a % pow2 wideBits).toNat (b % pow2 wideBits).toNat < 2 ^ 128 :=
    Nat.lt_pow_two_of_testBit _ fun j hj => by rw [hf, hword a j hj, hword b j hj, hg]
  refine eq_of_testBit fun i => (testBit_number hresult).trans ?_
  rw [hf, testBit_word ha (by omega), testBit_word hb (by omega), ha.testBit_low, hb.testBit_low, hF]

/-! ## Results -/

variable {t : IntTy}

lemma fits_iff : t.fits n ↔ t.min ≤ n ∧ n ≤ t.max := by simp [IntTy.fits]

lemma IntTy.bounds (t : IntTy) : -2 ^ 63 ≤ t.min ∧ t.max < 2 ^ 64 := by cases t <;> decide

lemma wide_of_bounds (hmin : -2 ^ 127 ≤ n) (hmax : n < 2 ^ 127) : Wide n := by
  cases n with
  | ofNat k => exact ⟨k, by rw [Int.ofNat_eq_natCast] at hmax; omega, .inl rfl⟩
  | negSucc k => exact ⟨k, by rw [Int.negSucc_eq] at hmin; omega, .inr rfl⟩

lemma wide_of_fits (h : t.fits n) : Wide n := by
  have := IntTy.bounds t
  rw [fits_iff] at h
  exact wide_of_bounds (by omega) (by omega)

/-- What an operator gives that computes a number, or none, in a type. -/
def Computes (t : IntTy) (exact : Option Int) (r : Except EvalError Value) : Prop :=
  match exact with
  | none => r = .error .divisionByZero
  | some n => if t.fits n then r = .ok (.int n t) else ∃ k, r = .error (.overflow k t.name)

lemma computes_intValue {v n : Int} (h : v = n) : Computes t (some n) (intValue v t) := by
  subst h
  unfold Computes intValue
  dsimp only
  split
  · rfl
  · exact ⟨v, rfl⟩

lemma computes_wideMul : Computes t (some (a * b)) (intValue (wideMul a b) t) := by
  have := IntTy.bounds t
  unfold wideMul
  dsimp only
  split
  · rename_i hcut
    rw [wideMax_eq, Bool.or_eq_true, decide_eq_true_iff, decide_eq_true_iff] at hcut
    have hproduct : ¬ t.fits (a * b) = true := by rw [fits_iff]; omega
    have hmax : ¬ t.fits wideMax = true := by rw [fits_iff, wideMax_eq]; omega
    rw [Computes, if_neg hproduct, intValue, if_neg hmax]
    exact ⟨wideMax, rfl⟩
  · exact computes_intValue rfl

lemma computes_intArith (ha : Wide a) (hb : Wide b)
    (hop : op ∈ arithmetic) : Computes t (exactInt? op a b) (intArith op a b t) := by
  cases op with
  | add | sub => exact computes_intValue rfl
  | mul => exact computes_wideMul
  | div | rem =>
    unfold exactInt? intArith
    dsimp only
    split
    · rfl
    · exact computes_intValue rfl
  | bitAnd => exact computes_intValue (bitwise_eq (· && ·) Nat.testBit_and rfl Int.testBit_land ha hb)
  | bitOr => exact computes_intValue (bitwise_eq (· || ·) Nat.testBit_or rfl Int.testBit_lor ha hb)
  | bitXor => exact computes_intValue (bitwise_eq xor Nat.testBit_xor rfl Int.testBit_lxor ha hb)
  | shl | shr | eq | ne | lt | le | gt | ge | and | or => simp [arithmetic] at hop

lemma intArith_comm (hop : op ∈ [.add, .mul, .bitAnd, .bitOr, .bitXor]) (a b : Int)
    (t : IntTy) : intArith op a b t = intArith op b a t := by
  simp only [List.mem_cons, List.not_mem_nil, or_false] at hop
  rcases hop with rfl | rfl | rfl | rfl | rfl
  · simp only [intArith, Int.add_comm]
  · simp only [intArith, wideMul, Int.mul_comm]
  · simp only [intArith, bitwise, Nat.and_comm]
  · simp only [intArith, bitwise, Nat.or_comm]
  · simp only [intArith, bitwise, Nat.xor_comm]

/-! ## Evaluation -/

section

variable {σ : Type} {env : Env σ} {op : BinaryOp} {lhs rhs : Typed.Expr} {m m₁ m₂ : Machine σ}
  {a b : Int} {t u : IntTy} (type : TypeId) (span : Span)

lemma run_kind {kind : Typed.ExprKind} (hsteps : m.steps < env.limits.steps) :
    (evalExpr env ⟨kind, type, span⟩).run m = (evalKind env type span kind).run { m with steps := m.steps + 1 } := by
  rw [evalExpr, run_bind, run_tick_of_lt hsteps]

lemma run_orFail : (orFail span r : EvalM σ Value).run m = (r.mapError fun e => .fail ⟨e, span⟩, m) := by
  cases r <;> rfl

lemma run_operands {a b : Value} (hop : op.isLogical = false) (hsteps : m.steps < env.limits.steps)
    (hlhs : (evalExpr env lhs).run { m with steps := m.steps + 1 } = (.ok a, m₁))
    (hrhs : (evalExpr env rhs).run m₁ = (.ok b, m₂)) :
    (evalExpr env ⟨.binary op lhs rhs, type, span⟩).run m = (binary env op a b type span).run m₂ := by
  rw [run_kind type span hsteps, evalKind, hop]
  simp only [Bool.false_eq_true, if_false, run_bind, hlhs, hrhs]

lemma run_binary (hop : op ∈ arithmetic) (hsteps : m.steps < env.limits.steps)
    (hlhs : (evalExpr env lhs).run { m with steps := m.steps + 1 } = (.ok (.int a t), m₁))
    (hrhs : (evalExpr env rhs).run m₁ = (.ok (.int b u), m₂)) :
    (evalExpr env ⟨.binary op lhs rhs, type, span⟩).run m
      = ((intArith op a b t).mapError fun e => .fail ⟨e, span⟩, m₂) := by
  obtain ⟨hlogical, hcomparison⟩ : op.isLogical = false ∧ op.isComparison = false := by
    cases op <;> simp [arithmetic, BinaryOp.isLogical, BinaryOp.isComparison] at hop ⊢
  rw [run_operands type span hlogical hsteps hlhs hrhs, binary, hcomparison, ← run_orFail]
  rfl

lemma Computes.ends {out : Except Unwind Value} (h : Computes t exact r)
    (hout : out = r.mapError fun e => .fail ⟨e, span⟩) :
    (∀ v, out = .ok v ↔ ∃ n, exact = some n ∧ t.fits n ∧ v = .int n t) ∧
    (out = .error (.fail ⟨.divisionByZero, span⟩) ↔ exact = none) ∧
    ((∃ k, out = .error (.fail ⟨.overflow k t.name, span⟩)) ↔ ∃ n, exact = some n ∧ t.fits n = false) := by
  cases exact with
  | none => cases h; subst hout; simp [Except.mapError]
  | some n =>
    unfold Computes at h
    dsimp only at h
    split at h
    · rename_i hfits
      subst h hout
      simp [Except.mapError, hfits]
      exact fun v => eq_comm
    · rename_i hfits
      obtain ⟨k, rfl⟩ := h
      subst hout
      simp [Except.mapError, hfits]

lemma exactInt?_eq_none (hop : op ∈ arithmetic) : exactInt? op a b = none ↔ (op = .div ∨ op = .rem) ∧ b = 0 := by
  cases op <;> simp_all [exactInt?, arithmetic]

/-- An operator on integers computes in the type of its left operand, whatever the type of the
expression is. It gives the exact result if that type holds it and reports an overflow if it does not;
a division by zero is reported as such. Operands of one type may be exchanged where the operator
allows it. -/
theorem arithmetic_exact (hop : op ∈ arithmetic) (hsteps : m.steps < env.limits.steps)
    (hlhs : (evalExpr env lhs).run { m with steps := m.steps + 1 } = (.ok (.int a t), m₁))
    (hrhs : (evalExpr env rhs).run m₁ = (.ok (.int b u), m₂)) (ha : t.fits a = true)
    (hb : u.fits b = true) :
    ∃ out, (evalExpr env ⟨.binary op lhs rhs, type, span⟩).run m = (out, m₂) ∧
      (∀ v, out = .ok v ↔ ∃ n, exactInt? op a b = some n ∧ t.fits n = true ∧ v = .int n t) ∧
      (out = .error (.fail ⟨.divisionByZero, span⟩) ↔ (op = .div ∨ op = .rem) ∧ b = 0) ∧
      ((∃ k, out = .error (.fail ⟨.overflow k t.name, span⟩)) ↔ ∃ n, exactInt? op a b = some n ∧ t.fits n = false) ∧
      (u = t → op ∈ [.add, .mul, .bitAnd, .bitOr, .bitXor] → ∀ {n n₁ n₂ : Machine σ},
        n.steps < env.limits.steps →
        (evalExpr env rhs).run { n with steps := n.steps + 1 } = (.ok (.int b t), n₁) →
        (evalExpr env lhs).run n₁ = (.ok (.int a t), n₂) →
        (evalExpr env ⟨.binary op rhs lhs, type, span⟩).run n = (out, n₂)) := by
  refine ⟨_, run_binary type span hop hsteps hlhs hrhs, ?_⟩
  rw [← exactInt?_eq_none (a := a) hop]
  obtain ⟨hok, hzero, hoverflow⟩ := (computes_intArith (wide_of_fits ha) (wide_of_fits hb) hop).ends span rfl
  refine ⟨hok, hzero, hoverflow, ?_⟩
  rintro rfl hcomm n n₁ n₂ hn hfirst hsecond
  rw [intArith_comm hcomm]
  exact run_binary type span hop hn hfirst hsecond

end

def ofLiterals (op : BinaryOp) (a : Int) (t : IntTy) (b : Int) (u type : IntTy) : Typed.Expr :=
  ⟨.binary op ⟨.int a, .ofInt t, default⟩ ⟨.int b, .ofInt u, default⟩, .ofInt type, default⟩

def emptyEnv : Env Unit := { host := .stored {}, limits := {}, invoke := invoke (.stored {}) {} 0 }

def start : Machine Unit := { frame := .ofSize 0 [], steps := 0, host := () }

lemma run_literal (n : Int) (t : IntTy) (k : UInt64) (h : t.fits n) (hk : k < 1000000) :
    (evalExpr emptyEnv ⟨.int n, .ofInt t, default⟩).run { start with steps := k }
      = (.ok (.int n t), { start with steps := k + 1 }) := by
  have htype : intTypeOf {} (.ofInt t) = t := by cases t <;> rfl
  rw [run_kind _ _ hk, evalKind, run_bind]
  show (orFail default (intValue n (intTypeOf {} (.ofInt t)))).run _ = _
  rw [htype, intValue, if_pos h]
  rfl

theorem arithmetic_exact_bytes :
    IntTy.fits .u8 20 = true ∧ IntTy.fits .u8 13 = true ∧
      ∃ k, ((evalExpr emptyEnv (ofLiterals .mul 20 .u8 13 .u8 .u8)).run start).1
        = .error (.fail ⟨.overflow k "u8", default⟩) := by
  have hop : BinaryOp.mul ∈ arithmetic := by decide
  obtain ⟨out, hrun, -, -, hoverflow, -⟩ := arithmetic_exact (.ofInt .u8) default hop (by decide)
    (run_literal 20 .u8 1 rfl (by decide)) (run_literal 13 .u8 2 rfl (by decide)) (m := start) rfl rfl
  exact ⟨rfl, rfl, (congrArg Prod.fst hrun) ▸ hoverflow.2 ⟨260, rfl, rfl⟩⟩

/-- A left operand of a narrower type than the expression holds the sum to that type, and exchanging
the operands changes the outcome. -/
theorem narrow_left_operand_overflows :
    ((evalExpr emptyEnv (ofLiterals .add 100 .i8 100 .i64 .i64)).run start).1
        = .error (.fail ⟨.overflow 200 "i8", default⟩) ∧
      ((evalExpr emptyEnv (ofLiterals .add 100 .i64 100 .i8 .i64)).run start).1 = .ok (.int 200 .i64) :=
  ⟨rfl, rfl⟩

end Kite.Eval
