/-
The greatest common divisor of the library, within the limits of evaluation. The number of rounds is that
of the algorithm of Euclid, which the Fibonacci numbers bound: 64 bits allow for fewer than a hundred.
-/
import Kite.Check.Unit
import Kite.Grammar.Unit
import Kite.Library.Basic
import Kite.Proofs.Eval.Arithmetic
import Kite.Proofs.Eval.Limits
import Mathlib.Data.Nat.Fib.Basic

namespace Kite.Eval

/-! ## Rounds -/

/-- The algorithm of Euclid ends within so many rounds. -/
def Euclid : Nat → Int → Int → Prop
  | 0, _, b => b = 0
  | k + 1, a, b => b = 0 ∨ Euclid k b (a.tmod b)

lemma natAbs_tmod_lt {a b : Int} (hb : b ≠ 0) : (a.tmod b).natAbs < b.natAbs := by
  rw [Int.natAbs_tmod]
  exact Nat.mod_lt _ (Int.natAbs_pos.2 hb)

lemma euclid_of_lt_fib : ∀ k (a b : Int), b.natAbs < a.natAbs →
    b.natAbs < (k + 2).fib ∨ a.natAbs < (k + 3).fib → Euclid k a b
  | 0, a, b, hlt, h => by
    have h : b.natAbs < 1 ∨ a.natAbs < 2 := h
    exact Int.natAbs_eq_zero.1 (by omega)
  | k + 1, a, b, hlt, h => by
    by_cases hb : b = 0
    · exact .inl hb
    have hpos : 0 < b.natAbs := Int.natAbs_pos.2 hb
    have hrem : (a.tmod b).natAbs ≤ a.natAbs - b.natAbs := by
      rw [Int.natAbs_tmod, Nat.mod_eq_sub_mod hlt.le]
      exact Nat.mod_le _ _
    have hfib : (k + 4).fib = (k + 2).fib + (k + 3).fib := Nat.fib_add_two
    refine .inr (euclid_of_lt_fib k b (a.tmod b) (natAbs_tmod_lt hb) ?_)
    show _ ∨ b.natAbs < (k + 3).fib
    have h : b.natAbs < (k + 3).fib ∨ a.natAbs < (k + 4).fib := h
    omega

lemma euclid_of_fits (hb : b.natAbs ≤ 2 ^ 63) : Euclid 91 a b := by
  by_cases hzero : b = 0
  · exact .inl hzero
  exact .inr (euclid_of_lt_fib 90 b _ (natAbs_tmod_lt hzero) (.inr (Nat.lt_of_le_of_lt hb (by decide +kernel))))

lemma gcd_tmod : Int.gcd b (a.tmod b) = Int.gcd a b := by
  rw [Int.gcd_comm a]
  show Nat.gcd _ _ = Nat.gcd _ _
  rw [Int.natAbs_tmod, Nat.gcd_comm, ← Nat.gcd_rec]

/-! ## The checked functions -/

/-- `if x < 0 { -x } else { x }`, with types and places left open. -/
def isAbs (p : Program) : Typed.Body → Bool
  | ⟨locals, [param], ⟨.block ⟨[], some ⟨.cond ⟨.binary op ⟨.var x, _, _⟩ ⟨.int zero, type, _⟩, _, _⟩
      ⟨.block ⟨[], some ⟨.unary sign ⟨.var y, _, _⟩, _, _⟩⟩, _, _⟩
      (some ⟨.block ⟨[], some ⟨.var z, _, _⟩⟩, _, _⟩), _, _⟩⟩, _, _⟩⟩ =>
    locals.size == 1 && [param, x, y, z] == [⟨0⟩, ⟨0⟩, ⟨0⟩, ⟨0⟩] && op == .lt && sign == .neg && zero == 0 &&
      intTypeOf p type == .i64
  | _ => false

/-- `if b == 0 { abs(a) } else { gcd(b, a % b) }` -/
def isGcd (p : Program) (abs gcd : DefId) : Typed.Body → Bool
  | ⟨locals, [first, second], ⟨.block ⟨[], some ⟨.cond ⟨.binary op ⟨.var x, _, _⟩ ⟨.int zero, type, _⟩, _, _⟩
      ⟨.block ⟨[], some ⟨.call (.function f []) [⟨.var a, _, _⟩], _, _⟩⟩, _, _⟩
      (some ⟨.block ⟨[], some ⟨.call (.function g []) [⟨.var b, _, _⟩,
        ⟨.binary op' ⟨.var a', _, _⟩ ⟨.var b', _, _⟩, _, _⟩], _, _⟩⟩, _, _⟩), _, _⟩⟩, _, _⟩⟩ =>
    locals.size == 2 && [first, second, x, a, b, a', b'] == [⟨0⟩, ⟨1⟩, ⟨1⟩, ⟨0⟩, ⟨1⟩, ⟨0⟩, ⟨1⟩] &&
      op == .eq && op' == .rem && zero == 0 && intTypeOf p type == .i64 && f == abs && g == gcd
  | _ => false

/-- The functions are there, and both may be called while checking. -/
def hasMath (p : Program) (abs gcd : DefId) : Bool :=
  let called decl is := (p.function? decl).any fun f => f.isComptime && f.receiver.isNone && f.body.any is
  called abs (isAbs p) && called gcd (isGcd p abs gcd)

/-! ## Running them -/

variable {p : Program} {n d : Nat} {m : Machine Unit} {type : TypeId} {span : Span}

def i64 (n : Int) : Value := .int n .i64

/-- A number, if it is not too large. -/
def divisor (g : Nat) (span : Span) : Except EvalFailure Value :=
  if g = 2 ^ 63 then .error ⟨.overflow (2 ^ 63) "i64", span⟩ else .ok (i64 g)

def Divisor (g : Nat) (r : Except Unwind Value) : Prop := ∃ span, r = (divisor g span).mapError .fail

/-- In a call at depth `d`, after `k` steps. -/
def inCall (frame : Frame) (k d : Nat) : Machine Unit := ⟨frame, .ofNat k, (), d⟩

abbrev mathEnv (p : Program) (n : Nat) : Env Unit := (Host.stored p).env {} n

section

variable (hsteps : k < 1000000)

include hsteps

lemma run_evalExpr : (evalExpr (mathEnv p n) ⟨kind, type, span⟩).run (inCall frame k d) =
    (evalKind (mathEnv p n) type span kind).run (inCall frame (k + 1) d) := by
  have hlt : (inCall frame k d).steps < (mathEnv p n).limits.steps := by
    show UInt64.ofNat k < 1000000
    rw [UInt64.lt_iff_toNat_lt, UInt64.toNat_ofNat_of_lt' (by show k < 2 ^ 64; omega)]
    exact hsteps
  have hnext : inCall frame (k + 1) d = { inCall frame k d with steps := (inCall frame k d).steps + 1 } := by
    rw [inCall, UInt64.ofNat_add]
    rfl
  rw [evalExpr, run_bind, run_tick_of_lt hlt, hnext]

lemma run_var {id : LocalId} (h : frame.locals[id.index]?.join = some v) :
    (evalExpr (mathEnv p n) ⟨.var id, type, span⟩).run (inCall frame k d) = (.ok v, (inCall frame (k + 1) d)) := by
  have h : (inCall frame (k + 1) d).frame.locals[id.index]?.join = some v := h
  rw [run_evalExpr hsteps, evalKind, readLocal, run_get_bind, h]
  rfl

lemma run_int (htype : intTypeOf p type = .i64) (h : IntTy.i64.fits x) :
    (evalExpr (mathEnv p n) ⟨.int x, type, span⟩).run (inCall frame k d) = (.ok (i64 x), (inCall frame (k + 1) d)) := by
  rw [run_evalExpr hsteps, evalKind]
  show (orFail span (intValue x (intTypeOf p type))).run _ = _
  rw [htype, intValue, if_pos h]
  rfl

lemma run_tail : (evalExpr (mathEnv p n) ⟨.block ⟨[], some e⟩, type, span⟩).run (inCall frame k d) =
    (evalExpr (mathEnv p n) e).run (inCall frame (k + 1) d) := by
  rw [run_evalExpr hsteps, evalKind, evalBlock_eq, List.map_nil, runItems, run_bind, run_attempt]
  dsimp only
  rw [run_leaveBlock]
  rfl

lemma run_operation (hop : op.isLogical = false)
    (ha : (evalExpr (mathEnv p n) a).run (inCall frame (k + 1) d) = (.ok v, m))
    (hb : (evalExpr (mathEnv p n) b).run m = (.ok w, m')) :
    (evalExpr (mathEnv p n) ⟨.binary op a b, type, span⟩).run (inCall frame k d) =
      (binary (mathEnv p n) op v w type span).run m' := by
  rw [run_evalExpr hsteps, evalKind, if_neg (by simp [hop]), run_bind, ha]
  dsimp only
  rw [run_bind, hb]

lemma run_cond (hc : (evalExpr (mathEnv p n) c).run (inCall frame (k + 1) d) = (.ok (.bool q), m)) :
    (evalExpr (mathEnv p n) ⟨.cond c t (some e), type, span⟩).run (inCall frame k d) =
      (evalExpr (mathEnv p n) (if q then t else e)).run m := by
  rw [run_evalExpr hsteps, evalKind, run_bind, hc]
  cases q <;> rfl

end

lemma run_less : (binary (mathEnv p n) .lt (i64 x) (i64 0) type span).run m = (.ok (.bool (x < 0)), m) := by
  have hless : (compare x 0 == .lt) = decide (x < 0) := by
    rw [Bool.eq_iff_iff, beq_iff_eq, compare_lt_iff_lt, decide_eq_true_iff]
  rw [← hless]
  rfl

lemma run_same : (binary (mathEnv p n) .eq (i64 x) (i64 0) type span).run m = (.ok (.bool (x = 0)), m) := by
  show (Except.ok (Value.bool (x == 0 && true)), m) = _
  rw [Bool.and_true]
  rfl

lemma fits_i64 : IntTy.i64.fits x ↔ -2 ^ 63 ≤ x ∧ x < 2 ^ 63 := by
  rw [fits_iff, show IntTy.i64.min = -2 ^ 63 by decide, show IntTy.i64.max = 2 ^ 63 - 1 by decide]
  omega

lemma negated (hx : IntTy.i64.fits x) (hneg : x < 0) :
    ((orFail span (intValue (-x) .i64) : EvalM Unit Value).run m).1 = (divisor x.natAbs span).mapError .fail := by
  rw [fits_i64] at hx
  rw [intValue, divisor]
  by_cases hlarge : x.natAbs = 2 ^ 63
  · rw [if_pos hlarge, if_neg (by rw [fits_i64]; omega), show -x = 2 ^ 63 by omega]
    rfl
  · rw [if_neg hlarge, if_pos (by rw [fits_i64]; omega), ← Int.ofNat_natAbs_of_nonpos (by omega)]
    rfl

lemma abs_divides (h : isAbs p body) (hx : IntTy.i64.fits x) (hsteps : k + 8 ≤ 1000000) :
    Divisor x.natAbs ((evalExpr (mathEnv p n) body.expr).run (inCall (callFrame body bindings [i64 x]) k d)).1 := by
  unfold isAbs at h
  split at h
  · simp only [Bool.and_eq_true, beq_iff_eq, List.cons.injEq] at h
    obtain ⟨⟨⟨⟨⟨hsize, rfl, rfl, rfl, rfl, -⟩, rfl⟩, rfl⟩, rfl⟩, htype⟩ := h
    dsimp only
    generalize hframe : callFrame _ bindings [i64 x] = frame
    have hlocal : frame.locals[0]?.join = some (i64 x) := by simp [← hframe, callFrame, Frame.ofSize, Frame.bind, hsize]
    rw [run_tail (by omega), run_cond (by omega) ((run_operation (by omega) rfl (run_var (by omega) hlocal)
      (run_int (by omega) htype rfl)).trans run_less)]
    by_cases hneg : x < 0
    · rw [if_pos (by simpa using hneg), run_tail (by omega), run_evalExpr (by omega), evalKind, run_bind,
        run_var (by omega) hlocal]
      exact ⟨_, negated hx hneg⟩
    · rw [if_neg (by simpa using hneg), run_tail (by omega), run_var (by omega) hlocal]
      rw [fits_i64] at hx
      refine ⟨{}, ?_⟩
      rw [divisor, if_neg (by omega), Int.natAbs_of_nonneg (by omega)]
      rfl
  · cases h

lemma run_call (hsteps : k < 1000000) (hargs : (evalExprs (mathEnv p n) args).run (inCall frame (k + 1) d) = (.ok l, m)) :
    (evalExpr (mathEnv p n) ⟨.call (.function decl []) args, type, span⟩).run (inCall frame k d) =
      (invoke (.stored p) {} n decl [] l span).run m := by
  rw [run_evalExpr hsteps]
  show ((evalExprs (mathEnv p n) args >>= fun l => invoke (.stored p) {} n decl [] l span)).run _ = _
  rw [run_bind, hargs]

/-- What a body gives, a call of the function gives. -/
lemma Divisor.invoke {is : Typed.Body → Bool}
    (hf : (p.function? decl).any fun f => f.isComptime && f.receiver.isNone && f.body.any is)
    (hd : d < 128) (h : ∀ body bindings, is body →
      Divisor g ((evalExpr (mathEnv p n) body.expr).run (inCall (callFrame body bindings args) k (d + 1))).1) :
    Divisor g ((invoke (.stored p) {} (n + 1) decl [] args span).run (inCall frame k d)).1 := by
  obtain ⟨f, hf, hcalled⟩ := (Option.any_eq_true _ _).1 hf
  simp only [Bool.and_eq_true, Option.any_eq_true, Option.isNone_iff_eq_none] at hcalled
  obtain ⟨⟨hcomptime, hreceiver⟩, body, hbody, his⟩ := hcalled
  rw [invoke_stored, calling, hf]
  dsimp only
  rw [if_neg (by simp [hcomptime]), if_neg (by simp [hreceiver]), withBody, hbody, run_get_bind]
  dsimp only
  rw [if_neg (by show ¬ 128 ≤ d; omega), run_bind, run_inFrame]
  obtain ⟨place, h⟩ := h body (Program.bindings f.generics []) his
  refine ⟨place, ?_⟩
  rw [show (inCall frame k d).enter _ = inCall _ k (d + 1) from rfl]
  dsimp only
  rw [h]
  cases divisor g place <;> rfl

lemma run_rem (hb : b ≠ 0) (h : IntTy.i64.fits (a.tmod b)) :
    (binary (mathEnv p n) .rem (i64 a) (i64 b) type span).run m = (.ok (i64 (a.tmod b)), m) := by
  show (orFail span (if b = 0 then _ else if IntTy.i64.fits (a.tmod b) then _ else _)).run m = _
  rw [if_neg hb, if_pos h]
  rfl

/-- By induction on the calls that are left: each round goes one call deeper and takes eleven steps. -/
lemma gcd_divides {abs gcd : DefId} (hmath : hasMath p abs gcd) : ∀ n r {a b k d}, Euclid r a b → IntTy.i64.fits a →
    IntTy.i64.fits b → r + 2 ≤ n → d + r + 2 ≤ 128 → k + 11 * r + 16 ≤ 1000000 → ∀ frame span,
      Divisor (Int.gcd a b) ((invoke (.stored p) {} n gcd [] [i64 a, i64 b] span).run (inCall frame k d)).1
  | 0, _, _, _, _, _, _, _, _, hn, _, _, _, _ => by omega
  | n + 1, r, a, b, k, d, hr, ha, hb, hn, hd, hk, frame, span => by
    obtain ⟨habs, hgcd⟩ := Bool.and_eq_true_iff.1 hmath
    refine .invoke hgcd (by omega) fun body bindings h => ?_
    unfold isGcd at h
    split at h
    · simp only [Bool.and_eq_true, beq_iff_eq, List.cons.injEq] at h
      obtain ⟨⟨⟨⟨⟨⟨⟨hsize, rfl, rfl, rfl, rfl, rfl, rfl, rfl, -⟩, rfl⟩, rfl⟩, rfl⟩, htype⟩, rfl⟩, rfl⟩ := h
      dsimp only
      generalize hframe : callFrame _ bindings [i64 a, i64 b] = frame
      have hlocals : frame.locals = #[some (i64 a), some (i64 b)] := by
        simp [← hframe, callFrame, Frame.ofSize, Frame.bind, hsize, Array.replicate]
      have hfirst : frame.locals[0]?.join = some (i64 a) := by rw [hlocals]; rfl
      have hsecond : frame.locals[1]?.join = some (i64 b) := by rw [hlocals]; rfl
      rw [run_tail (by omega), run_cond (by omega) ((run_operation (by omega) rfl (run_var (by omega) hsecond)
        (run_int (by omega) htype rfl)).trans run_same)]
      by_cases hzero : b = 0
      · subst hzero
        rw [if_pos (by simp), run_tail (by omega), run_call (by omega) (l := [i64 a]) (by
          rw [evalExprs, run_bind, run_var (by omega) hfirst]
          rfl), Int.gcd_zero_right]
        obtain ⟨n, rfl⟩ := Nat.exists_eq_add_one_of_ne_zero (by omega : n ≠ 0)
        exact .invoke habs (by omega) fun body bindings h => abs_divides h ha (by omega)
      · have hrem : IntTy.i64.fits (a.tmod b) := by
          have hle := Nat.mod_le a.natAbs b.natAbs
          rw [← Int.natAbs_tmod] at hle
          rw [fits_i64] at *
          have hlt := natAbs_tmod_lt (a := a) hzero
          omega
        obtain ⟨r, rfl⟩ := Nat.exists_eq_add_one_of_ne_zero (show r ≠ 0 by rintro rfl; exact hzero hr)
        rw [if_neg (by simpa using hzero), run_tail (by omega), run_call (by omega) (l := [i64 b, i64 (a.tmod b)]) (by
          rw [evalExprs, run_bind, run_var (by omega) hsecond]
          dsimp only
          rw [evalExprs, bind_assoc, run_bind, run_operation (by omega) rfl (run_var (by omega) hfirst)
            (run_var (by omega) hsecond), run_rem hzero hrem]
          rfl), ← gcd_tmod]
        exact gcd_divides hmath n r (hr.resolve_left hzero) hb hrem (by omega) (by omega) (by omega) _ _
    · cases h

/-! ## The library -/

/-- The program of the library unit alone. -/
def checkedMath (unit : ParsedUnit) : Program := (Check.checkUnit "math" unit.module true {}).2.program

def mathProgram : Program := checkedMath (parseUnit ⟨0⟩ Library.mathText defaultMaxDepth)

def declared (p : Program) (name : String) : DefId := ⟨p.defs.toList.findIdx (·.name == name)⟩

def parsedFrom (lexed : Lexical.Tokens) : ParsedUnit :=
  let start := Grammar.startState lexed.tokens.toList defaultMaxDepth
  let (result, stop) := (Grammar.moduleItems (Grammar.productions (Grammar.recursionBound start))).run.run start
  { file := ⟨0⟩
    tokens := lexed.tokens
    module := { file := ⟨0⟩, items := result.toOption.getD [], span := start.current.span.through stop.current.span }
    diagnostics := lexed.diagnostics.toList ++ stop.diagnostics.toList }

lemma parseUnit_eq (source : String) :
    parseUnit ⟨0⟩ source defaultMaxDepth = parsedFrom (Lexical.tokensFrom ⟨0⟩ {} false {} source.toList) := rfl

def declaresMath (p : Program) : Bool := hasMath p (declared p "abs") (declared p "gcd")

set_option maxRecDepth 100000

lemma declaresMath_checkedMath :
    declaresMath (checkedMath (parsedFrom (Lexical.tokensFrom ⟨0⟩ {} false {} Library.mathText.toList))) := by
  -- joined, the lines would have to be taken apart again byte by byte
  rw [Library.mathText, String.toList_append, String.toList_intercalate]
  decide +kernel

lemma declaresMath_mathProgram : declaresMath mathProgram := by
  rw [mathProgram, parseUnit_eq]
  exact declaresMath_checkedMath

/-- A call of the function on two numbers. -/
def gcdCall (a b : Int) : Typed.Expr :=
  ⟨.call (.function (declared mathProgram "gcd") []) [⟨.int a, .i64, {}⟩, ⟨.int b, .i64, {}⟩], .i64, {}⟩

/-- Within the limits that hold by default, the library gives the greatest common divisor of any two numbers, except
where it is too large. -/
theorem gcd_correct (a b : Int) (ha : IntTy.i64.fits a) (hb : IntTy.i64.fits b) :
    ∃ span, (evaluate (.stored mathProgram) {} (gcdCall a b) 0 ()).1 =
      if Int.gcd a b = 2 ^ 63 then .error ⟨.overflow (2 ^ 63) "i64", span⟩ else .ok (.int (Int.gcd a b) .i64) := by
  obtain ⟨span, h⟩ := gcd_divides declaresMath_mathProgram 128 91 (k := 3) (d := 0) (euclid_of_fits (a := a)
    (by rw [fits_i64] at hb; omega)) ha hb (by decide) (by decide) (by decide) (.ofSize 0 []) {}
  have htype : intTypeOf mathProgram .i64 = .i64 := intTypeOf_eq (q := {}) rfl
  have hrun : (evalExpr (mathEnv mathProgram 128) (gcdCall a b)).run (inCall (.ofSize 0 []) 0 0) = _ :=
    run_call (by decide) (l := [i64 a, i64 b]) (m := inCall (.ofSize 0 []) 3 0) (by
      rw [evalExprs, run_bind, run_int (by decide) htype ha]
      dsimp only
      rw [evalExprs, bind_assoc, run_bind, run_int (by decide) htype hb]
      rfl)
  refine ⟨span, (congrArg (answer {}) ((congrArg Prod.fst hrun).trans h)).trans ?_⟩
  show answer {} ((divisor _ span).mapError .fail) = divisor _ span
  cases divisor (Int.gcd a b) span <;> rfl

theorem gcd_correct_twelve : (evaluate (.stored mathProgram) {} (gcdCall (-12) 18) 0 ()).1 = .ok (.int 6 .i64) :=
  (gcd_correct (-12) 18 rfl rfl).elim fun _ h => h

end Kite.Eval
