/-
Comparisons and slices while compiling. Values that are no integers of different types are ordered
and told apart alike: exactly one of `<`, `==` and `>` is true of them. A slice gives exactly the part
between its ends, as long as the end is a number that a machine word holds.
-/
import Kite.Proofs.Eval.Arithmetic
import Kite.Proofs.Token.Tiling
import Kite.Proofs.Typing.Rules

namespace Kite.Eval

open List Typed.Exact

variable {σ : Type} {env : Env σ} {m m₁ m₂ m₃ : Machine σ} (type : TypeId) (span : Span) {n : Nat}

/-! ## Comparisons -/

/-- The values can be ordered; they stand for the same number, character, truth value or bytes if the
proposition holds. -/
inductive Comparable : Value → Value → Prop → Prop where
  | int (a b : Int) (t u : IntTy) : Comparable (.int a t) (.int b u) (a = b)
  | char (a b : Char) : Comparable (.char a) (.char b) (a = b)
  | bool (a b : Bool) : Comparable (.bool a) (.bool b) (a = b)
  | str (a b : String) : Comparable (.str a) (.str b) (a.toUTF8 = b.toUTF8)

/-- Whether the values are not integers of different types. -/
def alike : Value → Value → Bool
  | .int _ t, .int _ u => t == u
  | _, _ => true

variable {a b : Value} {same : Prop}

lemma Comparable.order (h : Comparable a b same) : ∃ o, order? a b = some o ∧ (o = .eq ↔ same) := by
  cases h with
  | str a b => exact ⟨compare a b, rfl, Std.compare_eq_iff_eq.trans String.toByteArray_inj.symm⟩
  | _ => exact ⟨_, rfl, Std.compare_eq_iff_eq⟩

lemma Comparable.same_iff (h : Comparable a b same) : a.same b ↔ same ∧ alike a b := by
  cases h with
  | str a b => simp [Value.same, alike, String.toByteArray_inj]
  | _ => simp [Value.same, alike]

/-- The comparisons of two values agree with each other. Integers of different types are ordered by
their numbers, but are never equal. -/
theorem comparisons_consistent {lhs rhs : Typed.Expr} (h : Comparable a b same)
    (hsteps : m.steps < env.limits.steps)
    (hlhs : (evalExpr env lhs).run { m with steps := m.steps + 1 } = (.ok a, m₁))
    (hrhs : (evalExpr env rhs).run m₁ = (.ok b, m₂)) :
    ∃ r : BinaryOp → Bool,
      (∀ op, op.isComparison = true →
        (evalExpr env ⟨.binary op lhs rhs, type, span⟩).run m = (.ok (.bool (r op)), m₂)) ∧
      r .ne = (!r .eq) ∧ r .le = (!r .gt) ∧ r .ge = (!r .lt) ∧
      (same ↔ r .lt = false ∧ r .gt = false) ∧ (r .eq = true ↔ same ∧ alike a b = true) ∧
      (alike a b = true → [r .lt, r .eq, r .gt].count true = 1) := by
  obtain ⟨o, ho, hsame⟩ := h.order
  have heq := h.same_iff
  refine ⟨fun op => if op = .eq then a.same b else if op = .ne then !a.same b else holds op o,
    fun op hop => ?_, by simp, by cases o <;> rfl, by cases o <;> rfl, ?_, by simpa using heq, fun halike => ?_⟩
  · have hlogical : op.isLogical = false := by cases op <;> first | rfl | cases hop
    rw [run_operands type span hlogical hsteps hlhs hrhs, binary, if_pos hop, run_orFail]
    cases op with
    | eq | ne => rfl
    | lt | le | gt | ge => rw [compareValues, ho] <;> simp [Except.mapError]
    | _ => cases hop
  · rw [← hsame]
    cases o <;> simp [holds]
  · rw [halike, ← hsame] at heq
    cases o <;> cases hb : a.same b <;> simp_all [holds]

theorem comparisons_consistent_bytes :
    Comparable (.int 20 .u8) (.int 13 .u8) ((20 : Int) = 13) ∧
      ∃ r : BinaryOp → Bool, [r .lt, r .eq, r .gt].count true = 1 ∧ ∀ op, op.isComparison = true →
        ((evalExpr emptyEnv (ofLiterals op 20 .u8 13 .u8 .u8)).run start).1 = .ok (.bool (r op)) := by
  have hvalues := Comparable.int 20 13 .u8 .u8
  obtain ⟨r, hrun, -, -, -, -, -, hone⟩ := comparisons_consistent (.ofInt .u8) default hvalues (by decide)
    (run_literal 20 .u8 1 rfl (by decide)) (run_literal 13 .u8 2 rfl (by decide)) (m := start)
  exact ⟨hvalues, r, hone rfl, fun op hop => congrArg Prod.fst (hrun op hop)⟩

/-- The same number in two types is neither less nor greater, and not equal either. -/
theorem mixed_types_unequal :
    [BinaryOp.lt, .eq, .gt].map (fun op => ((evalExpr emptyEnv (ofLiterals op 5 .i8 5 .i64 .i64)).run start).1)
      = List.replicate 3 (.ok (.bool false)) :=
  rfl

/-! ## Slices -/

lemma dropBytes_eq_some (h : dropBytes n cs = some rest) : ∃ before, cs = before ++ rest ∧ byteLength before = n := by
  fun_induction dropBytes n cs with
  | case1 cs => exact ⟨[], by simpa using h, rfl⟩
  | case2 | case4 => cases h
  | case3 n c cs hsize ih =>
    obtain ⟨before, rfl, hlength⟩ := ih h
    exact ⟨c :: before, rfl, by rw [byteLength_cons]; omega⟩

lemma takeBytes_eq_some (h : takeBytes n cs = some part) : ∃ after, cs = part ++ after ∧ byteLength part = n := by
  fun_induction takeBytes n cs generalizing part with
  | case1 cs => cases h; exact ⟨cs, rfl, rfl⟩
  | case2 | case4 => cases h
  | case3 n c cs hsize ih =>
    obtain ⟨part, hpart, rfl⟩ := Option.map_eq_some_iff.1 h
    obtain ⟨after, rfl, hlength⟩ := ih hpart
    exact ⟨after, rfl, by rw [byteLength_cons]; omega⟩

lemma sliceBytes_eq_some : sliceBytes cs i j = some part ↔
    ∃ before after, cs = before ++ (part ++ after) ∧ byteLength before = i ∧ byteLength before + byteLength part = j := by
  constructor
  · intro h
    unfold sliceBytes at h
    split at h
    · obtain ⟨rest, hrest, hpart⟩ := Option.bind_eq_some_iff.1 h
      obtain ⟨before, rfl, hbefore⟩ := dropBytes_eq_some hrest
      obtain ⟨after, rfl, hlength⟩ := takeBytes_eq_some hpart
      exact ⟨before, after, rfl, hbefore, by omega⟩
    · cases h
  · rintro ⟨before, after, rfl, rfl, rfl⟩
    exact sliceBytes_append

/-- The last value is what the first one holds between two offsets: bytes of a text that are whole
characters, or elements of a sequence. -/
def Cut (v : Value) (s e : Int) (w : Value) : Prop :=
  match v with
  | .str text => ∃ before part after, text.toList = before ++ (part ++ after) ∧ byteLength before = s ∧
    byteLength before + byteLength part = e ∧ w = .str (String.ofList part)
  | .sequence items => ∃ before part after, items = before ++ (part ++ after) ∧ before.length = s ∧
    before.length + part.length = e ∧ w = .sequence part
  | _ => False

lemma utf8ByteSize_eq {text : String} : text.utf8ByteSize = byteLength text.toList := by
  rw [← size_utf8Encode, ← String.toByteArray_ofList, String.ofList_toList, String.size_toByteArray]

lemma inside_iff {s e : Int} (he : e < pow2 64) (length : Nat) :
    ¬(s < 0 || e < s || length < (e % pow2 64).toNat) ↔ ∃ i j : Nat, s = i ∧ e = j ∧ i ≤ j ∧ j ≤ length := by
  simp only [Bool.or_eq_true, decide_eq_true_eq]
  constructor
  · intro h
    rw [Int.emod_eq_of_lt (by omega) he] at h
    exact ⟨s.toNat, e.toNat, by omega, by omega, by omega, by omega⟩
  · rintro ⟨i, j, rfl, rfl, hle, hlength⟩
    rw [Int.emod_eq_of_lt (by omega) he]
    omega

lemma word_natCast (h : (n : Int) < pow2 64) : ((n : Int) % pow2 64).toNat = n := by
  rw [Int.emod_eq_of_lt (by omega) h, Int.toNat_natCast]

lemma slice_eq_ok {s e : Int} (he : e < pow2 64) : slice v s e = .ok w ↔ Cut v s e w := by
  cases v with
  | str text =>
    have hin := inside_iff (s := s) he text.utf8ByteSize
    unfold slice Cut
    dsimp only
    split
    · rename_i hout
      refine ⟨nofun, ?_⟩
      rintro ⟨before, part, after, htext, rfl, rfl, -⟩
      refine absurd hout (hin.2 ⟨_, _, rfl, rfl, Nat.le_add_right _ _, ?_⟩)
      rw [utf8ByteSize_eq, htext, byteLength_append, byteLength_append]
      omega
    · rename_i hout
      obtain ⟨i, j, rfl, rfl, hle, -⟩ := hin.1 hout
      rw [word_natCast (by omega), word_natCast he]
      constructor
      · intro h
        split at h
        · rename_i part hpart
          cases h
          obtain ⟨before, after, htext, hi, hj⟩ := sliceBytes_eq_some.1 hpart
          exact ⟨before, part, after, htext, by omega, by omega, rfl⟩
        · cases h
      · rintro ⟨before, part, after, htext, hi, hj, rfl⟩
        rw [sliceBytes_eq_some.2 ⟨before, after, htext, by omega, by omega⟩]
  | sequence items =>
    have hin := inside_iff (s := s) he items.length
    unfold slice Cut
    dsimp only
    split
    · rename_i hout
      refine ⟨nofun, ?_⟩
      rintro ⟨before, part, after, rfl, rfl, rfl, -⟩
      exact absurd hout (hin.2 ⟨_, _, rfl, rfl, Nat.le_add_right _ _, by simp⟩)
    · rename_i hout
      obtain ⟨i, j, rfl, rfl, hle, hlength⟩ := hin.1 hout
      simp only [word_natCast (n := i) (by omega), word_natCast he, if_neg (Nat.not_lt.2 hle)]
      constructor
      · rintro ⟨⟩
        refine ⟨items.take i, (items.take j).drop i, items.drop j, ?_, by simp; omega, by simp; omega, rfl⟩
        rw [← append_assoc, show items.take i = (items.take j).take i by
          rw [take_take, Nat.min_eq_left hle], take_append_drop, take_append_drop]
      · rintro ⟨before, part, after, rfl, hi, hj, rfl⟩
        rw [← append_assoc, take_left' (by simp; omega), drop_left' (by omega)]
  | _ => exact ⟨nofun, nofun⟩

/-- A slice gives exactly what lies between its ends, and fails if there is no such part. -/
theorem slice_exact {base first last : Typed.Expr} {inclusive : Bool} {v : Value} {s e : Int} {t u : IntTy}
    (hwide : e + (if inclusive then 1 else 0) < pow2 64) (hsteps : m.steps < env.limits.steps)
    (hbase : (evalExpr env base).run { m with steps := m.steps + 1 } = (.ok v, m₁))
    (hfirst : (evalExpr env first).run m₁ = (.ok (.int s t), m₂))
    (hlast : (evalExpr env last).run m₂ = (.ok (.int e u), m₃)) :
    ∃ out, (evalExpr env ⟨.slice base first last inclusive, type, span⟩).run m = (out, m₃) ∧
      (∀ w, out = .ok w ↔ Cut v s (e + if inclusive then 1 else 0) w) ∧
      ((¬ ∃ w, Cut v s (e + if inclusive then 1 else 0) w) → ∃ error, out = .error (.fail ⟨error, span⟩)) := by
  refine ⟨(slice v s (e + if inclusive then 1 else 0)).mapError fun error => .fail ⟨error, span⟩, ?_, fun w => ?_,
    fun hnone => ?_⟩
  · rw [run_kind type span hsteps, evalKind]
    simp only [run_bind, hbase, hfirst, hlast]
    exact run_orFail span
  · rw [← slice_eq_ok hwide]
    cases slice v s (e + if inclusive then 1 else 0) <;> simp [Except.mapError]
  · cases hslice : slice v s (e + if inclusive then 1 else 0) with
    | ok w => exact absurd ⟨w, (slice_eq_ok hwide).1 hslice⟩ hnone
    | error error => exact ⟨error, rfl⟩

/-- `text[first..=last]` -/
def sliceOf (text : String) (first last : Int) (t : IntTy) : Typed.Expr :=
  ⟨.slice ⟨.str text, .string, default⟩ ⟨.int first, .ofInt t, default⟩ ⟨.int last, .ofInt t, default⟩ true, .string,
    default⟩

theorem slice_exact_inner :
    (2 : Int) + (if true then 1 else 0) < pow2 64 ∧
      ((evalExpr emptyEnv (sliceOf "abcd" 1 2 .u8)).run start).1 = .ok (.str "bc") := by
  have hwide : (2 : Int) + (if true then 1 else 0) < pow2 64 := by decide
  have hbase : (evalExpr emptyEnv ⟨.str "abcd", .string, default⟩).run { start with steps := 1 }
      = (.ok (.str "abcd"), { start with steps := 2 }) := rfl
  obtain ⟨out, hrun, hcut, -⟩ := slice_exact .string default hwide (by decide) hbase
    (run_literal 1 .u8 2 rfl (by decide)) (run_literal 2 .u8 3 rfl (by decide)) (m := start)
  exact ⟨hwide, (congrArg Prod.fst hrun).trans ((hcut _).2 ⟨['a'], ['b', 'c'], ['d'], rfl, rfl, rfl, rfl⟩)⟩

/-- Where the number after the last index is no machine word, the slice ends before it begins. -/
theorem greatest_index_cuts_nothing : (¬ ∃ w, Cut (.str "abc") 0 (18446744073709551615 + 1) w) ∧
    ((evalExpr emptyEnv (sliceOf "abc" 0 18446744073709551615 .u64)).run start).1 = .ok (.str "") := by
  refine ⟨?_, rfl⟩
  rintro ⟨w, before, part, after, htext, -, hend, -⟩
  have hlength := congrArg byteLength htext
  rw [byteLength_append, byteLength_append] at hlength
  have habc : byteLength "abc".toList = 3 := rfl
  omega

/-! ## Stores -/

/-- The counter of a loop has the type of the first end, though the last one is too large for it. -/
theorem counter_out_of_range :
    let var (i : Nat) : Typed.Expr := ⟨.var ⟨i⟩, default, default⟩
    let loop : Typed.Stmt := .forRange ⟨1⟩ ⟨.int 127, .ofInt .i8, default⟩ ⟨.int 129, .ofInt .i64, default⟩ false
      ⟨[.expr ⟨.assign none (var 0) (var 1), default, default⟩], none⟩
    (evaluate (.stored {}) {} ⟨.block ⟨[.letDecl ⟨0⟩ ⟨.void, default, default⟩, loop], some (var 0)⟩, default, default⟩ 2 ()).1
      = .ok (.int 128 .i8) ∧ IntTy.fits .i8 128 = false :=
  ⟨rfl, rfl⟩

/-- A variable keeps its value though another one was stored through a view of it. -/
theorem viewed_variable_keeps_value :
    let var (i : Nat) : Typed.Expr := ⟨.var ⟨i⟩, .ofInt .i64, default⟩
    let literal (n : Int) : Typed.Expr := ⟨.int n, .ofInt .i64, default⟩
    (evaluate (.stored {}) {} ⟨.block ⟨[.letDecl ⟨0⟩ (literal 1), .letDecl ⟨1⟩ ⟨.unary .mutView (var 0), default, default⟩,
      .expr ⟨.assign none ⟨.unary .deref (var 1), default, default⟩ (literal 5), .void, default⟩], some (var 0)⟩,
      .ofInt .i64, default⟩ 2 ()).1 = .ok (.int 1 .i64) :=
  rfl

end Kite.Eval
