/-
What the steps of evaluation give. Each rule is about one kind of node: if the operands give values
of their types, the node gives a value of its own type, and every local still holds a value of the
type it was declared with. `r` has the types that stand for the parameters of the running call.
-/
import Kite.Proofs.Eval.Keeps
import Kite.Proofs.Typing.Exact

namespace Kite.Typed.Exact

open Eval List Option Ty

variable {v w : Value} {p : Program} {type : TypeId} {α : Type} {ty : IntTy} {parts : List Ty}
  {f : Value → Except EvalError (α × Value)} {value : Int} {id : LocalId} {i : Nat} {a : Value} {start count : Int}

/-- Every local that is bound holds a value of its declared type. -/
def FrameFits (cx : Context) (r : ParamId → Ty) (frame : Eval.Frame) : Prop :=
  ∀ (i : Nat) (v : Value), frame.locals[i]? = some (some v) → v.fits cx.program ((cx.localTy ⟨i⟩).subst r)

/-- How an expression may be left: a returned value has the result type, and a `break` has a loop
around it. -/
def Leaves (cx : Context) (r : ParamId → Ty) : Unwind → Prop
  | .fail _ | .cont => True
  | .ret v => ∃ t, cx.result = some t ∧ v.fits cx.program (t.subst r)
  | .brk => cx.breaks

instance (cx : Context) (r : ParamId → Ty) : Fallible (Leaves cx r) := ⟨fun _ => trivial⟩

/-- A computation over fitting frames that gives values of a type. -/
def Gives (cx : Context) (r : ParamId → Ty) (x : EvalM Unit Value) (t : Ty) : Prop :=
  Keeps (FrameFits cx r) x (fun v => v.fits cx.program (t.subst r)) (Leaves cx r)

/-- The same for what gives no value. -/
def Runs (cx : Context) (r : ParamId → Ty) (x : EvalM Unit Unit) : Prop :=
  Keeps (FrameFits cx r) x (fun _ => True) (Leaves cx r)

variable {cx : Context} {r : ParamId → Ty} {x : EvalM Unit Value} {s t u : Ty} {span : Span}

lemma FrameFits.bind (h : FrameFits cx r frame)
    (hv : v.fits cx.program ((cx.localTy id).subst r)) : FrameFits cx r (frame.bind id v) := by
  intro i w hw
  unfold Frame.bind at hw
  rw [Array.getElem?_setIfInBounds] at hw
  split at hw
  · rename_i hid
    subst hid
    split at hw
    · cases hw; exact hv
    · cases hw
  · exact h i w hw

lemma fits_of_flows (h : flows s t) (hv : v.fits p (s.subst r)) : v.fits p (t.subst r) := by
  simp only [flows, Bool.or_eq_true, beq_iff_eq] at h
  rcases h with rfl | rfl
  · rw [subst_never, Value.not_fits_never] at hv
    cases hv
  · exact hv

lemma Gives.flow (hx : Gives cx r x s) (h : flows s t) : Gives cx r x t := hx.weaken fun _ hv => fits_of_flows h hv

lemma Gives.never (hx : Gives cx r x .never) : Keeps (FrameFits cx r) x P (Leaves cx r) :=
  hx.weaken fun v hv => by rw [subst_never, Value.not_fits_never] at hv; cases hv

/-! ## Leaves of the tree -/

section

variable {env : Env Unit}

lemma intTypeOf_eq (h : p.types.ty type = .node (.int ty) parts) : intTypeOf p type = ty := by
  unfold intTypeOf
  rw [TypeTable.shape_stripViews_of_ty_int h]

lemma isInt_iff : isInt t ↔ ∃ ty parts, t = .node (.int ty) parts := by
  unfold isInt
  split <;> simp_all

lemma isFloat_iff : isFloat t ↔ ∃ ty parts, t = .node (.float ty) parts := by
  unfold isFloat
  split <;> simp_all

lemma intValue_ok (h : intValue value ty = .ok v) : v = .int value ty ∧ ty.fits value := by
  unfold intValue at h
  split at h <;> cases h
  exact ⟨rfl, ‹_›⟩

lemma gives_int (hhost : ∀ s, env.host.program s = cx.program) (h : isInt (cx.ty type)) :
    Gives cx r (do orFail span (intValue value (intTypeOf (← env.program) type))) (cx.ty type) := by
  obtain ⟨ty, parts, hty⟩ := isInt_iff.1 h
  refine .program_bind fun s => .orFail span fun v hv => ?_
  rw [hhost, intTypeOf_eq hty] at hv
  rw [hty, (intValue_ok hv).1]
  simp

lemma gives_float {value : Double} (h : isFloat (cx.ty type)) : Gives cx r (return .float value) (cx.ty type) := by
  obtain ⟨ty, parts, hty⟩ := isFloat_iff.1 h
  refine .pure ?_
  rw [hty]
  simp

lemma gives_local : Gives cx r (readLocal id span) (cx.localTy id) := by
  refine .get_bind fun m hm => ?_
  split
  · rename_i v hv
    refine .pure (hm id.index v ?_)
    rwa [join_eq_some_iff] at hv
  · exact .fail _ _

lemma gives_constParam {id : ParamId} (hhost : ∀ s, env.host.program s = cx.program) (h : isInt (cx.ty type)) :
    Gives cx r (readConstParam env id type span) (cx.ty type) := by
  obtain ⟨ty, parts, hty⟩ := isInt_iff.1 h
  refine .program_bind fun s => .get_bind fun m _ => ?_
  rw [hhost]
  split
  · refine .pure ?_
    rw [intTypeOf_eq hty, hty]
    simp
  · exact .fail _ _

end

/-! ## Operators -/

lemma unary_fits {op : UnaryOp} (h : unaryFits op s t) (hv : v.fits cx.program (s.subst r))
    (hw : unary op v = .ok w) : w.fits cx.program (t.subst r) := by
  cases op with
  | not =>
    simp only [unaryFits, BEq.rfl, if_true, beq_iff_eq] at h
    subst h
    cases v <;> simp [unary] at hw
    subst hw
    simp [Ty.bool]
  | view | mutView | deref =>
    cases hw
    exact fits_of_flows (by simpa [unaryFits] using h) hv
  | neg =>
    have hvt := fits_of_flows (by simpa [unaryFits] using h) hv
    cases v <;> simp [unary] at hw
    · rwa [(intValue_ok hw).1, Value.fits_int_value]
    · subst hw; rwa [Value.fits_float_value]
  | bitNot =>
    have hvt := fits_of_flows (by simpa [unaryFits] using h) hv
    cases v <;> simp [unary] at hw
    subst hw
    rwa [Value.fits_int_value]

lemma compareValues_ok (h : compareValues op a b = .ok v) : ∃ b, v = .bool b := by
  unfold compareValues at h
  split at h
  · cases h; exact ⟨_, rfl⟩
  · cases h; exact ⟨_, rfl⟩
  · split at h <;> cases h
    exact ⟨_, rfl⟩

lemma fits_wrap {t : IntTy} : t.fits (t.wrap n) := by
  unfold IntTy.wrap IntTy.fits
  dsimp only
  split <;> cases t <;> simp_all [IntTy.min, IntTy.max, IntTy.isSigned, IntTy.bits, pow2] <;> omega

lemma intArith_ok {a b : Int} (h : intArith op a b ty = .ok v) : ∃ n, v = .int n ty ∧ ty.fits n := by
  cases op with
  | shl | shr =>
    simp only [intArith, shift] at h
    split at h
    · cases h
    · split at h
      · cases h; exact ⟨_, rfl, fits_wrap⟩
      · exact ⟨_, intValue_ok h⟩
  | div | rem =>
    simp only [intArith] at h
    split at h
    · cases h
    · exact ⟨_, intValue_ok h⟩
  | add | sub | mul | bitAnd | bitOr | bitXor => exact ⟨_, intValue_ok h⟩
  | _ => cases h

lemma floatArith_ok {a b : Double} {ty : Option FloatTy} (h : floatArith op a b ty = .ok v) : ∃ x, v = .float x := by
  cases op <;> simp only [floatArith, Except.ok.injEq, reduceCtorEq] at h
  all_goals exact ⟨_, h.symm⟩

lemma arith_fits {ty : Option FloatTy} (ha : a.fits p t) (h : arith op a b ty = .ok v) : v.fits p t := by
  unfold arith at h
  split at h
  · obtain ⟨n, rfl, -⟩ := intArith_ok h
    rwa [Value.fits_int_value]
  · obtain ⟨x, rfl⟩ := floatArith_ok h
    rwa [Value.fits_float_value]
  · split at h <;> cases h
    rwa [Value.fits_str_value]
  · cases h

lemma gives_binary (hop : op.isLogical = false) (h : binaryFits op s t)
    (ha : a.fits cx.program (s.subst r)) : Gives cx r (binary env op a b type span) t := by
  unfold binary
  simp only [binaryFits, hop, Bool.false_or] at h
  split
  · rename_i hcmp
    rw [if_pos hcmp, beq_iff_eq] at h
    subst h
    refine .orFail span fun v hv => ?_
    obtain ⟨b, rfl⟩ := compareValues_ok hv
    simp [Ty.bool]
  · rename_i hcmp
    rw [if_neg hcmp] at h
    refine .program_bind fun s => .orFail span fun v hv => ?_
    exact arith_fits (fits_of_flows h ha) hv

/-! ## Conversions -/

lemma not_flows_of_fits {head : TyHead} (wanted : TyHead) (hv : v.fits p ((node head parts).subst r))
    (hhead : head ≠ wanted) : flows (.node head parts) (.node wanted []) = false := by
  rw [Bool.eq_false_iff]
  intro h
  simp only [flows, never, Bool.or_eq_true, beq_iff_eq, node.injEq, hhead, false_and, or_false] at h
  obtain ⟨rfl, rfl⟩ := h
  simp at hv

lemma not_flows_param {id : ParamId} {head : TyHead} : ¬ flows (.param id) (.node head []) := by simp [flows, never]

lemma cast_int_ok (h : castFits p (.int ty) s (.node (.int ty) [])) (hv : v.fits p (s.subst r))
    (hw : Eval.cast p v (.int ty) = .ok w) : ∃ n, w = .int n ty := by
  cases s with
  | param id => exact absurd h not_flows_param
  | node head parts =>
    have hother := not_flows_of_fits (.int ty) hv
    rw [subst_node] at hv
    cases head with
    | int k => obtain ⟨n, rfl⟩ := Value.fits_int.1 hv; cases hw; exact ⟨_, rfl⟩
    | float k => obtain ⟨n, rfl⟩ := Value.fits_float.1 hv; cases hw; exact ⟨_, rfl⟩
    | bool => obtain ⟨n, rfl⟩ := Value.fits_bool.1 hv; cases hw; exact ⟨_, rfl⟩
    | char => obtain ⟨n, rfl⟩ := Value.fits_char.1 hv; cases hw; exact ⟨_, rfl⟩
    | named decl =>
      rcases Value.fits_named.1 hv with ⟨_, _, rfl, hfields, _⟩ | ⟨_, _, _, rfl, _⟩
      · simp [Program.fieldTys?, isNone_iff_eq_none.1 h] at hfields
      · cases hw; exact ⟨_, rfl⟩
    | _ => cases (hother (by simp)).symm.trans h

lemma cast_float_ok {ty : FloatTy} (h : castFits p (.float ty) s (.node (.float ty) []))
    (hv : v.fits p (s.subst r)) (hw : Eval.cast p v (.float ty) = .ok w) : ∃ x, w = .float x := by
  cases s with
  | param id => exact absurd h not_flows_param
  | node head parts =>
    have hother := not_flows_of_fits (.float ty) hv
    rw [subst_node] at hv
    cases head with
    | int k => obtain ⟨n, rfl⟩ := Value.fits_int.1 hv; cases hw; exact ⟨_, rfl⟩
    | float k =>
      obtain ⟨n, rfl⟩ := Value.fits_float.1 hv
      cases ty <;> cases hw <;> exact ⟨_, rfl⟩
    | _ => cases (hother (by simp)).symm.trans h

lemma cast_char_ok (h : castFits p .char s (.node .char []))
    (hv : v.fits p (s.subst r)) (hw : Eval.cast p v .char = .ok w) : ∃ c, w = .char c := by
  cases s with
  | param id => exact absurd h not_flows_param
  | node head parts =>
    have hother := not_flows_of_fits .char hv
    rw [subst_node] at hv
    cases head with
    | int k =>
      obtain ⟨n, rfl⟩ := Value.fits_int.1 hv
      simp only [Eval.cast] at hw
      split at hw <;> cases hw
      exact ⟨_, rfl⟩
    | char => obtain ⟨n, rfl⟩ := Value.fits_char.1 hv; cases hw; exact ⟨_, rfl⟩
    | _ => cases (hother (by simp)).symm.trans h

lemma cast_fits (h : castFits p (p.types.shape type) s (p.types.ty type)) (hv : v.fits p (s.subst r))
    (hw : Eval.cast p v (p.types.shape type) = .ok w) : w.fits p ((p.types.ty type).subst r) := by
  have hty := p.types.ty_eq type
  cases hshape : p.types.shape type <;> rw [hshape] at h hw hty
  case int ty =>
    rw [show p.types.ty type = .node (.int ty) [] from hty] at h ⊢
    obtain ⟨n, rfl⟩ := cast_int_ok h hv hw
    simp
  case float ty =>
    rw [show p.types.ty type = .node (.float ty) [] from hty] at h ⊢
    obtain ⟨x, rfl⟩ := cast_float_ok h hv hw
    simp
  case char =>
    rw [show p.types.ty type = .node .char [] from hty] at h ⊢
    obtain ⟨c, rfl⟩ := cast_char_ok h hv hw
    simp
  all_goals
    have hwv : w = v := by cases v <;> cases hw <;> rfl
    rw [hwv]
    exact fits_of_flows h hv

/-! ## Parts of values -/

lemma element?_eq_some : element? t = some u ↔
    ∃ rest, t = .node .vector (u :: rest) ∨ t = .node .array (u :: rest) := by
  unfold element?
  split <;> simp_all

lemma fits_of_element? (h : element? t = some u) (hv : v.fits p (t.subst r)) :
    ∃ items, v = .sequence items ∧ ∀ w ∈ items, w.fits p (u.subst r) := by
  obtain ⟨rest, rfl | rfl⟩ := element?_eq_some.1 h
  · exact Value.fits_vector.1 (by simpa using hv)
  · exact Value.fits_array.1 (by simpa using hv)

lemma sequence_fits (h : element? t = some u) (hitems : ∀ w ∈ items, w.fits p (u.subst r)) :
    (Value.sequence items).fits p (t.subst r) := by
  obtain ⟨rest, rfl | rfl⟩ := element?_eq_some.1 h
  · simpa [Value.fitEach_iff] using hitems
  · simpa [Value.fitEach_iff] using hitems

lemma element_fits {index : Int} (h : indexFits t u) (hv : v.fits p (t.subst r))
    (hw : element v index = .ok w) : w.fits p (u.subst r) := by
  unfold indexFits at h
  split at h
  · obtain ⟨text, rfl⟩ := Value.fits_string.1 (by simpa using hv)
    rw [beq_iff_eq] at h
    subst h
    simp only [element] at hw
    split at hw <;> cases hw
    simp [int]
  · obtain ⟨items, rfl, hitems⟩ := fits_of_element? (beq_iff_eq.1 h) hv
    simp only [element] at hw
    split at hw
    · rename_i item hitem
      cases hw
      split at hitem
      · exact hitems _ (mem_of_getElem? hitem)
      · cases hitem
    · cases hw

lemma slice_fits (h : sliceFits t u) (hv : v.fits p (t.subst r))
    (hw : slice v start stop = .ok w) : w.fits p (u.subst r) := by
  unfold sliceFits at h
  split at h
  · obtain ⟨text, rfl⟩ := Value.fits_string.1 (by simpa using hv)
    rw [beq_iff_eq] at h
    subst h
    simp only [slice] at hw
    split at hw
    · cases hw
    · split at hw <;> cases hw
      simp [string]
  · simp only [Option.any_eq_true, beq_iff_eq] at h
    obtain ⟨element, helement, rfl⟩ := h
    obtain ⟨items, rfl, hitems⟩ := fits_of_element? helement hv
    simp only [slice] at hw
    split at hw
    · cases hw
    split at hw
    · cases hw
    · cases hw
      refine sequence_fits (u := element) rfl fun w hw => ?_
      exact hitems w (mem_of_mem_take (mem_of_mem_drop hw))

lemma fieldFits_subst (h : fieldFits p index t u) : ∃ decl args types, t.subst r = .node (.named decl) args ∧
    p.fieldTys? decl args = some types ∧ types[index]? = some (u.subst r) := by
  unfold fieldFits at h
  split at h
  · rename_i decl args
    simp only [Option.any_eq_true, beq_iff_eq] at h
    obtain ⟨types, htypes, hindex⟩ := h
    refine ⟨decl, args.map (.subst r), types.map (.subst r), by simp, ?_, ?_⟩
    · rw [Program.fieldTys?_subst, htypes, map_some]
    · rw [getElem?_map, hindex, map_some]
  · cases h

lemma itemFits_subst (h : itemFits index t u) :
    ∃ types, t.subst r = .node .tuple types ∧ types[index]? = some (u.subst r) := by
  unfold itemFits at h
  split at h
  · rename_i types
    rw [beq_iff_eq] at h
    exact ⟨types.map (.subst r), by simp, by rw [getElem?_map, h, map_some]⟩
  · cases h

lemma fitAll_getD (h : Value.fitAll p vs ts) (ht : ts[index]? = some t) : (vs.getD index .void).fits p t := by
  obtain ⟨hlen, hall⟩ := Value.fitAll_iff.1 h
  have hlt : index < vs.length := by
    rw [hlen]
    exact (List.getElem?_eq_some_iff.1 ht).1
  rw [getD_eq_getElem?_getD, getElem?_eq_getElem hlt, getD_some]
  exact hall index _ t (getElem?_eq_getElem hlt) ht

lemma gives_fieldOf (h : fieldFits cx.program index s t)
    (hv : v.fits cx.program (s.subst r)) : Gives cx r (fieldOf v index span) t := by
  obtain ⟨decl, args, types, hs, htypes, hindex⟩ := fieldFits_subst (r := r) h
  rw [hs] at hv
  unfold fieldOf
  split
  · rename_i fields
    rcases Value.fits_named.1 hv with ⟨_, types', heq, htypes', hfit⟩ | ⟨_, _, _, heq, _⟩
    · cases heq
      rw [htypes] at htypes'
      cases htypes'
      exact .pure (fitAll_getD hfit hindex)
    · cases heq
  · exact .fail _ _

lemma gives_itemOf (h : itemFits index s t) (hv : v.fits cx.program (s.subst r)) :
    Gives cx r (itemOf v index span) t := by
  obtain ⟨types, hs, hindex⟩ := itemFits_subst (r := r) h
  rw [hs] at hv
  obtain ⟨items, rfl, hfit⟩ := Value.fits_tuple.1 hv
  exact .pure (fitAll_getD hfit hindex)

lemma gives_unwrapped (hv : v.fits cx.program ((node .optional (t :: parts)).subst r)) :
    Gives cx r (unwrapped v span) t := by
  rcases Value.fits_optional.1 (by simpa using hv) with rfl | ⟨w, rfl, hw⟩
  · exact .fail _ _
  · exact .pure hw

lemma gives_filled (h : element? t = some u)
    (hv : v.fits cx.program (u.subst r)) : Gives cx r (filled env v count span) t := by
  unfold filled
  split
  · exact .fail _ _
  · refine (Keeps.countSteps _ _).bind fun _ _ => (Keeps.tick _ _).bind fun _ _ => ?_
    refine Keeps.pure (sequence_fits h fun w hw => ?_)
    rw [eq_of_mem_replicate hw]
    exact hv

/-! ## Places -/

/-- A change of values of a type into values of the same type, with an answer in `P`. -/
def Changes {α : Type} (p : Program) (t : Ty) (P : α → Prop) (f : Value → Except EvalError (α × Value)) : Prop :=
  ∀ v a w, v.fits p t → f v = .ok (a, w) → w.fits p t ∧ P a

/-- A path leads from values of one type to parts of another: what changes the part changes the
whole. -/
def Leads (p : Program) (t : Ty) (path : List Projection) (u : Ty) : Prop :=
  ∀ {α : Type} (P : α → Prop) (f : Value → Except EvalError (α × Value)),
    Changes p u P f → Changes p t P (modifyPart f path)

lemma modifyPart_append (f : Value → Except EvalError (α × Value)) :
    ∀ path v,
    modifyPart f (path ++ rest) v = modifyPart (modifyPart f rest) path v
  | [], _ => rfl
  | .field i :: path, v | .element i :: path, v => by
    have ih : modifyPart f (path ++ rest) = modifyPart (modifyPart f rest) path := funext (modifyPart_append f path)
    cases v <;> simp only [cons_append, modifyPart, ih]

lemma Leads.refl (p : Program) (t : Ty) : Leads p t [] t := fun _ _ hf => hf

lemma Leads.snoc (h : Leads p s path t) (hstep : Leads p t [projection] u) : Leads p s (path ++ [projection]) u := by
  intro α P f hf
  have heq : modifyPart f (path ++ [projection]) = modifyPart (modifyPart f [projection]) path :=
    funext (modifyPart_append f path)
  rw [heq]
  exact h P _ (hstep P f hf)

lemma bind_eq_ok {β ε : Type} {x : Except ε α} {f : α → Except ε β} {b : β} (h : x >>= f = .ok b) :
    ∃ a, x = .ok a ∧ f a = .ok b := by
  cases x with
  | error e => cases h
  | ok a => exact ⟨a, rfl, h⟩

lemma modifyItem_ok {a : α} (h : modifyItem f items i missing = .ok (a, items')) :
    ∃ item item', items[i]? = some item ∧ f item = .ok (a, item') ∧ items' = items.set i item' := by
  unfold modifyItem at h
  split at h
  · cases h
  · rename_i item hitem
    obtain ⟨result, hf, h⟩ := bind_eq_ok h
    cases h
    exact ⟨item, result.2, hitem, hf, rfl⟩

lemma fitAll_modifyItem {P : α → Prop} {a : α} (hf : Changes p u P f)
    (hfit : Value.fitAll p items types) (hi : types[i]? = some u)
    (h : modifyItem f items i missing = .ok (a, items')) : Value.fitAll p items' types ∧ P a := by
  obtain ⟨item, item', hitem, hchange, rfl⟩ := modifyItem_ok h
  obtain ⟨hfit', hP⟩ := hf item a item' ((Value.fitAll_iff.1 hfit).2 i item u hitem hi) hchange
  exact ⟨Value.fitAll_set hfit hi hfit', hP⟩

lemma leads_field (h : fieldFits p index t u) : Leads p (t.subst r) [.field index] (u.subst r) := by
  obtain ⟨decl, args, types, hs, htypes, hindex⟩ := fieldFits_subst (r := r) h
  intro α P f hf v a w hv hw
  rw [hs] at hv ⊢
  rcases Value.fits_named.1 hv with ⟨fields, types', rfl, htypes', hfit⟩ | ⟨_, _, _, rfl, _⟩
  · rw [htypes] at htypes'
    cases htypes'
    obtain ⟨result, hm, hw⟩ := bind_eq_ok hw
    cases hw
    obtain ⟨hfit', hP⟩ := fitAll_modifyItem hf hfit hindex hm
    exact ⟨Value.fits_named.2 (.inl ⟨_, types, rfl, htypes, hfit'⟩), hP⟩
  · cases hw

lemma leads_item (h : itemFits index t u) : Leads p (t.subst r) [.field index] (u.subst r) := by
  obtain ⟨types, hs, hindex⟩ := itemFits_subst (r := r) h
  intro α P f hf v a w hv hw
  rw [hs] at hv ⊢
  obtain ⟨items, rfl, hfit⟩ := Value.fits_tuple.1 hv
  obtain ⟨result, hm, hw⟩ := bind_eq_ok hw
  cases hw
  obtain ⟨hfit', hP⟩ := fitAll_modifyItem hf hfit hindex hm
  exact ⟨Value.fits_tuple.2 ⟨_, rfl, hfit'⟩, hP⟩

lemma leads_element (h : indexFits t u) : Leads p (t.subst r) [.element index] (u.subst r) := by
  intro α P f hf v a w hv hw
  unfold indexFits at h
  split at h
  · obtain ⟨text, rfl⟩ := Value.fits_string.1 (by simpa using hv)
    cases hw
  · rw [beq_iff_eq] at h
    obtain ⟨items, rfl, hitems⟩ := fits_of_element? h hv
    obtain ⟨result, hm, hw⟩ := bind_eq_ok hw
    cases hw
    obtain ⟨item, item', hitem, hchange, hset⟩ := modifyItem_ok hm
    obtain ⟨hfit', hP⟩ := hf item _ item' (hitems item (mem_of_getElem? hitem)) hchange
    refine ⟨sequence_fits h fun x hx => ?_, hP⟩
    rw [hset] at hx
    rcases mem_or_eq_of_mem_set hx with hx | rfl
    · exact hitems x hx
    · exact hfit'

def PlaceFits (cx : Context) (r : ParamId → Ty) (t : Ty) (place : Place) : Prop :=
  Leads cx.program ((cx.localTy place.root).subst r) place.path (t.subst r)

lemma gives_modifyPlace (hplace : PlaceFits cx r t place) (hf : Changes cx.program (t.subst r) P f) :
    Keeps (FrameFits cx r) (modifyPlace place span f : EvalM Unit α) P (Leaves cx r) := by
  refine .get_bind fun m hm => ?_
  split
  · exact .fail _ _
  · rename_i v hv
    have hfit := hm place.root.index v (by rwa [join_eq_some_iff] at hv)
    have hpart : ∀ result, modifyPart f place.path v = .ok result →
        result.2.fits cx.program ((cx.localTy place.root).subst r) ∧ P result.1 :=
      fun result hresult => hplace P f hf v result.1 result.2 hfit hresult
    refine (Keeps.orFail span hpart).bind fun result hresult => ?_
    exact (Keeps.bindLocal fun _ hframe => hframe.bind hresult.1).bind fun _ _ => Keeps.pure hresult.2

end Kite.Typed.Exact
