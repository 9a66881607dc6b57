/-
Evaluating again. While a program is checked, an expression is evaluated over what is known so far,
and a host gets what is missing on the way. A later program knows more. Where the tree is steady,
which excludes what a later program may see in another way, the value is the same when it is worked
out again over the later program alone.
-/
import Kite.Proofs.Eval.Keeps
import Kite.Proofs.Types.Growth

namespace Kite

open List

variable {p : Program}

/-! ## Types without parts -/

namespace TypeTable

variable {a b : TypeTable} {id : TypeId}

lemma shape_eq_of_mem_fixed (hfixed : a.shape id ∈ TypeShape.fixed) (hne : a.shape id ≠ .error) :
    b.shape id = a.shape id := by
  obtain ⟨i, hi, hshape⟩ := getElem_of_mem hfixed
  have hthere : a.shape ⟨i⟩ = a.shape id := (shape_fixed hi).trans hshape
  have hid : (⟨i⟩ : TypeId) = id := eq_of_shape_eq (holds_of_shape (hthere ▸ hne)) (holds_of_shape hne) hthere
  rw [← hid, shape_fixed hi, shape_fixed hi]

lemma shape_eq_int {ty : IntTy} (h : a.shape id = .int ty) : b.shape id = .int ty := by
  rw [← h]
  refine shape_eq_of_mem_fixed ?_ (by rw [h]; nofun)
  rw [h]
  cases ty <;> decide

lemma shape_eq_float {ty : FloatTy} (h : a.shape id = .float ty) : b.shape id = .float ty := by
  rw [← h]
  refine shape_eq_of_mem_fixed ?_ (by rw [h]; nofun)
  rw [h]
  cases ty <;> decide

lemma shape_eq_char (h : a.shape id = .char) : b.shape id = .char := by
  rw [← h]
  refine shape_eq_of_mem_fixed ?_ (by rw [h]; nofun)
  rw [h]
  decide

lemma float?_eq_some {ty : FloatTy} : a.float? id = some ty ↔ a.shape id = .float ty := by
  unfold float?
  split <;> simp_all

lemma float?_eq (a b : TypeTable) (id : TypeId) : a.float? id = b.float? id :=
  Option.ext fun _ => float?_eq_some.trans (Iff.trans ⟨shape_eq_float, shape_eq_float⟩ float?_eq_some.symm)

end TypeTable

/-! ## Later programs -/

def DefKind.global? : DefKind → Option GlobalDef
  | .const g | .static g => some g
  | _ => none

def DefKind.init? (kind : DefKind) : Option Typed.Body := kind.global?.bind (·.init)

def DefKind.value? (kind : DefKind) : Option Value := kind.global?.bind (·.value)

/-- The value of a global that is never assigned. -/
def DefKind.constant? (kind : DefKind) : Option Value := if Eval.isMutableStatic kind then none else kind.value?

/-- What a call reads of the signature of a function that may run while compiling. -/
def DefKind.comptime? : DefKind → Option (Option Receiver × List Generic)
  | .function f => if f.isComptime then some (f.receiver, f.generics) else none
  | _ => none

def DefKind.body? : DefKind → Option Typed.Body
  | .function f => f.body
  | _ => none

def DefKind.discriminant? (kind : DefKind) (index : Nat) : Option Int :=
  match kind with
  | .enum e => e.variants[index]?.bind (·.discriminant)
  | _ => none

variable {id : DefId} {index : Nat}

namespace Program

def kind (p : Program) (id : DefId) : DefKind := (p.getDef id).kind

lemma global?_eq : p.global? id = (p.kind id).global? := by cases (p.getDef id).kind <;> rfl

lemma body?_eq (p : Program) (id : DefId) : (p.function? id).bind (·.body) = (p.kind id).body? := by
  unfold function? DefKind.body? kind
  cases (p.getDef id).kind <;> rfl

lemma discriminant?_eq : p.discriminant? id index = (p.kind id).discriminant? index := by
  unfold discriminant? enum? DefKind.discriminant? kind
  cases (p.getDef id).kind <;> rfl

end Program

/-- What an evaluation can have met of a declaration is the same later. -/
structure DefKind.Later (k l : DefKind) : Prop where
  comptime : ∀ s, k.comptime? = some s → l.comptime? = some s
  body : ∀ s body, k.comptime? = some s → k.body? = some body → l.body? = some body
  constant : ∀ v, k.constant? = some v → l.constant? = some v
  discriminant : ∀ index n, k.discriminant? index = some n → l.discriminant? index = some n

namespace DefKind.Later

lemma refl (k : DefKind) : k.Later k := ⟨fun _ h => h, fun _ _ _ h => h, fun _ h => h, fun _ _ h => h⟩

lemma trans {k l m : DefKind} (h : k.Later l) (h' : l.Later m) : k.Later m where
  comptime s hs := h'.comptime s (h.comptime s hs)
  body s body hs hbody := h'.body s body (h.comptime s hs) (h.body s body hs hbody)
  constant v hv := h'.constant v (h.constant v hv)
  discriminant index n hn := h'.discriminant index n (h.discriminant index n hn)

end DefKind.Later

/-- What an evaluation over one program can have met is the same in a later one. -/
structure Program.Later (p q : Program) : Prop where
  types : p.types ≤ q.types
  kind : ∀ id, (p.kind id).Later (q.kind id)

namespace Program.Later

variable {q r : Program}

lemma refl (p : Program) : p.Later p := ⟨le_rfl, fun id => .refl (p.kind id)⟩

lemma trans (h : p.Later q) (h' : q.Later r) : p.Later r :=
  ⟨h.types.trans h'.types, fun id => (h.kind id).trans (h'.kind id)⟩

end Program.Later

/-! ## Steady trees -/

namespace Program

def enums (p : Program) : List EnumDef :=
  p.defs.toList.filterMap fun d => match d.kind with
    | .enum e => some e
    | _ => none

/-- Whether variants have the numbers of their places, if they have any. -/
def ordinal (p : Program) : Bool :=
  p.enums.all fun e => e.variants.zipIdx.all fun (v, index) => v.discriminant.all (· == (index : Int))

def freeNumber (p : Program) (n : Int) : Bool := p.enums.all fun e => e.variants.all (·.discriminant != some n)

lemma mem_enums (h : p.kind id = .enum e) : e ∈ p.enums := by
  unfold kind getDef at h
  rw [Array.getD_eq_getD_getElem?] at h
  cases hdef : p.defs[id.index]? with
  | none =>
    rw [hdef] at h
    cases h
  | some d =>
    rw [hdef] at h
    have hkind : d.kind = .enum e := h
    refine mem_filterMap.2 ⟨d, Array.mem_toList_iff.2 (Array.mem_of_getElem? hdef), ?_⟩
    rw [hkind]

lemma exists_variant (h : p.discriminant? id index = some n) :
    ∃ e ∈ p.enums, ∃ v, e.variants[index]? = some v ∧ v.discriminant = some n := by
  rw [discriminant?_eq] at h
  unfold DefKind.discriminant? at h
  split at h
  · rename_i e hkind
    obtain ⟨v, hv, hn⟩ := Option.bind_eq_some_iff.1 h
    exact ⟨e, mem_enums hkind, v, hv, hn⟩
  · cases h

lemma discriminant?_of_ordinal (h : p.ordinal) (hn : p.discriminant? id index = some n) : n = index := by
  obtain ⟨e, he, v, hv, hnumber⟩ := exists_variant hn
  have hall : v.discriminant.all (· == (index : Int)) :=
    all_eq_true.1 (all_eq_true.1 h e he) (v, index) (mem_zipIdx_iff_getElem?.2 hv)
  rw [hnumber] at hall
  simpa using hall

lemma discriminant?_ne_of_freeNumber (h : p.freeNumber n) (id : DefId)
    (index : Nat) : p.discriminant? id index ≠ some n := by
  intro hn
  obtain ⟨e, he, v, hv, hnumber⟩ := exists_variant hn
  have hall := all_eq_true.1 (all_eq_true.1 h e he) v (mem_of_getElem? hv)
  rw [hnumber] at hall
  simp at hall

end Program

namespace Typed

mutual

/-- Whether no number of a variant decides if the pattern accepts a value. -/
def Pattern.steady (q : Program) : Pattern → Bool
  | .int n => q.freeNumber n
  | .some inner => inner.steady q
  | .variant _ _ fields => patternsSteady q fields
  | .wildcard | .binding _ | .bool _ | .char _ | .str _ | .none => true

def patternsSteady (q : Program) : List Pattern → Bool
  | [] => true
  | pattern :: rest => pattern.steady q && patternsSteady q rest

end

/-- Whether a call finds the same function with the same arguments later: none through a bound, and
none with a parameter of the caller as an argument. -/
def Callee.steady (q : Program) : Callee → Bool
  | .function _ args => args.all fun arg => !(q.types.shape arg).isParam
  | .traitMethod .. => false
  | .builtin _ | .builtinMethod _ | .indirect _ | .constructor _ | .variant _ _ => true

mutual

/-- Whether an evaluation of the expression sees the same in earlier programs. -/
def Expr.steady (q : Program) : Expr → Bool
  | ⟨kind, type, _⟩ => kind.steady q type

def ExprKind.steady (q : Program) (type : TypeId) : ExprKind → Bool
  | .int _ | .constParam _ => q.types.isInteger type
  | .float _ | .bool _ | .char _ | .str _ | .void | .none | .var _ | .global _ | .functionRef _ _
  | .range _ _ _ | .brk | .cont | .error => true
  | .some inner | .unary _ inner | .field inner _ _ | .tupleIndex inner _ | .unwrap inner => inner.steady q
  | .binary _ lhs rhs => lhs.steady q && rhs.steady q
  | .assign _ target value => target.steady q && value.steady q
  | .cast inner => inner.steady q && (!q.types.isInteger type || q.ordinal)
  | .call callee args => callee.steady q && exprsSteady q args
  | .index base index => base.steady q && index.steady q
  | .slice base start stop _ => base.steady q && start.steady q && stop.steady q
  | .tuple items | .sequence items => exprsSteady q items
  | .fill value count => value.steady q && count.steady q
  | .cond cond thenBranch elseBranch => cond.steady q && thenBranch.steady q && optionalSteady q elseBranch
  | .matchWith scrutinee arms => scrutinee.steady q && armsSteady q arms
  | .block block => block.steady q
  | .ret value => optionalSteady q value

def exprsSteady (q : Program) : List Expr → Bool
  | [] => true
  | e :: rest => e.steady q && exprsSteady q rest

def optionalSteady (q : Program) : Option Expr → Bool
  | none => true
  | some e => e.steady q

def armsSteady (q : Program) : List Arm → Bool
  | [] => true
  | ⟨patterns, body⟩ :: rest => patternsSteady q patterns && body.steady q && armsSteady q rest

def Block.steady (q : Program) : Block → Bool
  | ⟨stmts, tail⟩ => stmtsSteady q stmts && optionalSteady q tail

def stmtsSteady (q : Program) : List Stmt → Bool
  | [] => true
  | stmt :: rest => stmt.steady q && stmtsSteady q rest

/-- A deferred statement may hide a failure. -/
def Stmt.steady (q : Program) : Stmt → Bool
  | .letDecl _ init => init.steady q
  | .expr e => e.steady q
  | .whileLoop cond body => cond.steady q && body.steady q
  | .loop body => body.steady q
  | .forRange _ start stop _ body => start.steady q && stop.steady q && body.steady q
  | .forEach _ iterable body => iterable.steady q && body.steady q
  | .defer _ => false

end

end Typed

/-- Whether the bodies of all functions that may run while compiling are steady. -/
def Program.steadyCalls (q : Program) : Bool :=
  q.defs.toList.all fun d => match d.kind with
    | .function f => !f.isComptime || f.body.all (·.expr.steady q)
    | _ => true

end Kite
