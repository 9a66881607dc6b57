/-
The rules of emission for every judgement that sequences of rules keep. A judgement may go by the table of types from
which a rule runs, by the braces that are open before and behind it, and by whether it may write. Each rule is treated
once, given that its operands are judged.
-/
import Kite.Emission.Output
import Kite.Proofs.Types.Growth

namespace Kite.Emission

variable {type other : TypeId}

/-! ## Rules in sequence -/

/-- A property that sequences of rules keep, and that rules have which look at the program or make the
types of an instance. -/
structure Closed (P : ∀ {α : Type}, EmitM α → Prop) : Prop where
  pure : ∀ {α : Type} {a : α}, P (Pure.pure a)
  bind : ∀ {α β : Type} {x : EmitM α} {f : α → EmitM β}, P x → (∀ {a}, P (f a)) → P (x >>= f)
  context : P (read : EmitM Context)
  program : P program
  types : P types
  concrete : ∀ id, P (concrete id)

section Closed

variable {P : ∀ {α}, EmitM α → Prop} (h : Closed P) {a b c : Lowered} {items : List Lowered} {args : List Arg}
  {id : TypeId}

include h

lemma closed_mapM {α β : Type} {f : α → EmitM β} : ∀ {l : List α}, (∀ a ∈ l, P (f a)) → P (l.mapM f)
  | [], _ => h.pure
  | a :: l, hl => by
    rw [List.mapM_cons]
    exact h.bind (hl a (by simp)) <| h.bind (closed_mapM fun b hb => hl b (by simp [hb])) h.pure

lemma closed_typeName : P (typeName id) := h.bind h.context <| h.bind h.program h.pure

lemma closed_baseName : P (baseName decl) := h.bind h.context <| h.bind h.program h.pure

lemma closed_functionName {args : List TypeId} : P (functionName decl args) :=
  h.bind h.context <| h.bind h.program h.pure

lemma closed_localName {id : LocalId} : P (localName id) := h.bind h.context h.pure

lemma closed_isVoidLike : P (isVoidLike id) := h.bind h.program h.pure

lemma closed_isShared : P (isShared id) := h.bind h.program h.pure

lemma closed_intText : P (intText type value) := h.bind (h.concrete type) <| h.bind h.types h.pure

lemma closed_floatText : P (floatText type value) := h.bind (h.concrete type) <| h.bind h.types h.pure

lemma closed_functionText {args : List TypeId} : P (functionText decl args) :=
  h.bind (closed_mapM h fun id _ => h.concrete id) <| closed_functionName h

lemma closed_narrow : P (narrow type text) := by
  refine h.bind h.types fun {_} => ?_
  split <;> exact h.pure

lemma closed_bare (ha : P a.value) : P a.bare := h.bind ha h.pure

lemma closed_unaryText (ha : P a.value) : P (unaryText op type other a) := by
  refine h.bind (h.concrete _) <| h.bind (h.concrete _) <| h.bind ha ?_
  cases op with
  | neg | bitNot => exact closed_narrow h
  | not | view | mutView => exact h.pure
  | deref =>
    refine h.bind h.types fun {_} => ?_
    split <;> exact h.pure

lemma closed_binaryText (ha : P a.value) (hb : P b.value) : P (binaryText op type other a b) := by
  refine h.bind (h.concrete _) <| h.bind (h.concrete _) <| h.bind ha <| h.bind hb <| h.bind h.types fun {_} => ?_
  split
  · exact h.pure
  · split
    · exact h.pure
    · exact closed_narrow h

lemma closed_assignText (ha : P a.place) (hb : P b.value) : P (assignText op a b) :=
  h.bind ha <| h.bind (closed_bare h hb) h.pure

lemma closed_fieldText (ha : P a.value) : P (fieldText type name a) :=
  h.bind (h.concrete _) <| h.bind (closed_isShared h) <| h.bind ha h.pure

lemma closed_elementPlace (ha : P a.place) (hb : P b.value) : P (elementPlace a b) :=
  h.bind ha <| h.bind (closed_bare h hb) h.pure

lemma closed_elementValue (type : TypeId) (ha : P a.place) (hb : P b.value) : P (elementValue type a b) :=
  h.bind (h.concrete _) <| h.bind (closed_elementPlace h ha hb) <| h.bind h.types h.pure

lemma closed_sliceText (ha : P a.value) (hb : P b.value) (hc : P c.value) : P (sliceText a b c inclusive) :=
  h.bind (closed_bare h ha) <| h.bind (closed_bare h hb) <| h.bind hc h.pure

lemma closed_bareAll (hitems : ∀ l ∈ items, P l.value) : P (bareAll items) :=
  closed_mapM h fun l hl => closed_bare h (hitems l hl)

lemma closed_isChoice {thenBranch : Typed.Expr} : P (isChoice type thenBranch elseBranch) := by
  unfold isChoice
  split
  · exact h.bind (h.concrete _) <| h.bind (closed_isVoidLike h) <| h.bind (h.concrete _) <| h.bind (h.concrete _) h.pure
  · exact h.pure

lemma closed_structText : P (structText id fields) := h.bind (closed_typeName h) <| h.bind (closed_isShared h) h.pure

lemma closed_variantText : P (variantText id decl index payload) := by
  refine h.bind (closed_typeName h) <| h.bind h.program fun {_} => ?_
  split <;> exact h.pure

lemma closed_shownText (harg : P arg.2.value) : P (shownText arg) := by
  refine h.bind (h.concrete _) <| h.bind (closed_bare h harg) <| h.bind h.program fun {_} => ?_
  split <;> exact h.pure

section

variable (hargs : ∀ arg ∈ args, P arg.2.value)

include hargs

omit h in
lemma closed_operands : ∀ l ∈ args.map (·.2), P l.value := by
  intro l hl
  obtain ⟨arg, harg, rfl⟩ := List.mem_map.1 hl
  exact hargs arg harg

lemma closed_argTexts : P (argTexts args) := h.bind (closed_bareAll h (closed_operands hargs)) h.pure

lemma closed_callFunction : P (callFunction decl ids args) :=
  h.bind (closed_argTexts h hargs) <| h.bind (closed_functionText h) h.pure

lemma closed_callValue (ha : P a.value) : P (callValue a args) := h.bind (closed_argTexts h hargs) <| h.bind ha h.pure

lemma closed_callConstructor : P (callConstructor type args) :=
  h.bind (h.concrete type) <| h.bind (closed_bareAll h (closed_operands hargs)) <| closed_structText h

lemma closed_callVariant : P (callVariant type decl index args) :=
  h.bind (h.concrete type) <| h.bind (closed_bareAll h (closed_operands hargs)) <| closed_variantText h

lemma closed_callBuiltin {fn : BuiltinFn} : P (callBuiltin fn args) := by
  unfold callBuiltin
  split
  · exact h.pure
  · exact h.bind (closed_bare h (hargs _ (by simp))) h.pure
  · exact h.pure
  · rename_i format rest _
    refine h.bind (hargs format (by simp)) ?_
    exact h.bind (closed_mapM h fun arg harg => closed_shownText h (hargs arg (by simp [harg]))) h.pure

lemma closed_callBuiltinMethod {method : BuiltinMethod} : P (callBuiltinMethod method args) := by
  refine h.bind (closed_mapM h (closed_operands hargs)) ?_
  split <;> exact h.pure

end

end Closed

/-! ## Judgements -/

/-- `Holds W t d x d'`: from the table `t` on, and where `d` braces are open that it may close, the rule `x` is as it
should be and leaves `d'` open; it writes only with `W`. -/
structure Judgement where
  Holds : (W : Prop) → (t : TypeTable) → (d : Nat) → {α : Type} → EmitM α → (d' : Nat) → Prop
  mono : ∀ {W W' t t' d d' α} {x : EmitM α}, (W → W') → t ≤ t' → Holds W t d x d' → Holds W' t' d x d'
  pure : ∀ {W t d α} {a : α}, Holds W t d (Pure.pure a) d
  bind : ∀ {W t d k d' α β} {x : EmitM α} {f : α → EmitM β},
    Holds W t d x k → (∀ {a}, Holds W t k (f a) d') → Holds W t d (x >>= f) d'
  context : ∀ {W t d}, Holds W t d (read : EmitM Context) d
  state : ∀ {W t d}, Holds W t d (get : EmitM Emitter) d
  concrete : ∀ {W t d} id, Holds W t d (concrete id) d
  temp : ∀ {W t d}, Holds W t d freshTemp d
  line : ∀ {W t d text}, W → Holds W t d (line text) d
  enter : ∀ {t d text}, Holds True t d (write (·.openBrace text)) (d + 1)
  leave : ∀ {t d text}, Holds True t (d + 1) (write (·.closeBrace text)) d
  next : ∀ {t d text}, Holds True t (d + 1) (nextBranch text) (d + 1)
  capture : ∀ {W t d body}, Holds True t 0 body 0 → Holds W t d (capture body) d

variable {j : Judgement} {W : Prop} {t now : TypeTable} {x : EmitM α} {f : α → EmitM β}

/-- However many braces are open, they are so afterwards. -/
def Level (j : Judgement) (W : Prop) (t : TypeTable) (x : EmitM α) : Prop := ∀ d, j.Holds W t d x d

namespace Level

lemma pure (a : α) : Level j W t (Pure.pure a) := fun _ => j.pure

lemma bind (hx : Level j W t x) (hf : ∀ {a}, Level j W t (f a)) : Level j W t (x >>= f) := fun d => j.bind (hx d) (hf d)

lemma mono (hle : t ≤ now) (h : Level j W t x) : Level j W now x := fun d => j.mono id hle (h d)

lemma any (h : Level j W t x) : Level j True t x := fun d => j.mono (fun _ => trivial) le_rfl (h d)

lemma writing (hW : W) (h : Level j True t x) : Level j W t x := fun d => j.mono (fun _ => hW) le_rfl (h d)

end Level

lemma Closed.level : Closed fun x => Level j W t x where
  pure := .pure _
  bind := .bind
  context _ := j.context
  program _ := j.bind j.state j.pure
  types _ := j.bind j.state j.pure
  concrete id _ := j.concrete id

lemma level_types : Level j W t types := Closed.level.types

lemma level_concrete : Level j W t (concrete type) := Closed.level.concrete _

lemma level_line : Level j True t (line text) := fun _ => j.line trivial

lemma level_temp : Level j W t freshTemp := fun _ => j.temp

lemma level_inBraces (h : Level j True t body) : Level j True t (inBraces head stop body) :=
  fun d => j.bind j.enter <| j.bind (h (d + 1)) j.leave

/-- The type that `x` makes can be spelled from then on. -/
structure Spelled (j : Judgement) (t : TypeTable) (x : EmitM TypeId) : Prop where
  bind : ∀ {W : Prop} {β : Type} {f : TypeId → EmitM β},
    (∀ {now} made, t ≤ now → (∀ {W}, Level j W now (typeText made)) → Level j W now (f made)) → Level j W t (x >>= f)

lemma level_bodyTypeText (htype : Spelled j t (concrete type)) : Level j W t (bodyTypeText type) :=
  htype.bind fun _ _ hmade => hmade

/-! ## Expressions in their uses -/

/-- A value may need `W` to write; to deliver it is to write. A branch that follows on another one leaves its brace to
what comes behind it. -/
structure Judged (j : Judgement) (W : Prop) (t : TypeTable) (l : Lowered) : Prop where
  value : Level j W t l.value
  place : Level j W t l.place
  into : ∀ dest, Level j True t (l.into dest)
  branch : ∀ dest, Level j True t (l.branch dest)
  elseIf : ∀ dest d, j.Holds True t (d + 1) (l.elseIf dest) (d + 1)

section Uses

variable {a b : Lowered} {e : Typed.Expr} {value : EmitM String} {into : Dest → EmitM Unit}

lemma Judged.bare (h : Judged j W t a) : Level j W t a.bare := closed_bare .level h.value

lemma level_deliver (h : Level j True t value) (dest : Dest) : Level j True t (deliver type value dest) := by
  refine .bind level_concrete <| .bind h ?_
  cases dest with
  | discard => exact level_line
  | ret =>
    refine .bind (closed_isVoidLike .level) fun {isVoid} => ?_
    cases isVoid with
    | true =>
      refine .bind level_line ?_
      split
      · exact level_line
      · exact .pure ()
    | false => exact level_line
  | assign target =>
    refine .bind (closed_isVoidLike .level) fun {isVoid} => ?_
    cases isVoid <;> exact level_line

lemma judged_plain (type : TypeId) (h : Level j W t value) : Judged j W t (.plain type value) :=
  ⟨h, h, level_deliver h.any, level_deliver h.any, fun _ _ => j.pure⟩

lemma level_controlValue (htype : Spelled j t (concrete type)) (hescapes : escapes = true → W)
    (h : ∀ dest, Level j True t (into dest)) : Level j W t (controlValue type escapes into) := by
  refine htype.bind fun made hle hmade => .bind (closed_isVoidLike .level) fun {isVoid} => ?_
  split
  · rename_i hjumps
    have hW := hescapes (Bool.and_eq_true_iff.1 hjumps).1
    refine .bind level_temp <| .bind hmade <| .bind (level_line.writing hW) ?_
    exact .bind (((h _).mono hle).writing hW) (.pure _)
  · refine .bind hmade <| .bind (fun _ => j.state) ?_
    exact .bind (fun _ => j.capture ((h .ret).mono hle 0)) (.pure _)

lemma judged_control (htype : Spelled j t (concrete e.type)) (hescapes : e.escapes = true → W)
    (h : ∀ dest, Level j True t (into dest)) : Judged j W t (.control e into) :=
  have hvalue := level_controlValue htype hescapes h
  ⟨hvalue, hvalue, h, h, fun _ _ => j.pure⟩

lemma judged_jump (hW : W) (h : Level j True t statements) : Judged j W t (.jump statements) :=
  have hvalue : Level j W t (do statements; return voidText) := .bind (h.writing hW) (.pure _)
  ⟨hvalue, hvalue, fun _ => h, fun _ => h, fun _ _ => j.pure⟩

lemma judged_void : Judged j W t lowerVoid :=
  ⟨.pure _, .pure _, fun _ => .pure (), fun _ => .pure (), fun _ _ => j.pure⟩

lemma judged_assign {op : Option BinaryOp} (ha : Judged j W t a) (hb : Judged j W t b) :
    Judged j W t (lowerAssign type op a b) := by
  have htext : Level j W t (assignText op a b) := closed_assignText .level ha.place hb.value
  have hplain := judged_plain type (.bind htext fun {text} => .pure ("(" ++ text ++ ")"))
  have hinto : ∀ dest, Level j True t ((lowerAssign type op a b).into dest) := by
    intro dest
    cases dest with
    | discard => exact .bind htext.any level_line
    | ret => exact hplain.into .ret
    | assign target => exact hplain.into (.assign target)
  exact ⟨hplain.value, hplain.place, hinto, hinto, hplain.elseIf⟩

lemma judged_index (ha : Judged j W t a) (hb : Judged j W t b) : Judged j W t (lowerIndex type other a b) :=
  { judged_plain type (closed_elementValue .level other ha.place hb.value) with
    place := closed_elementPlace .level ha.place hb.value }

lemma level_castText (htype : Spelled j t (concrete type)) (ha : Judged j W t a) :
    Level j W t (castText type other a) := by
  refine htype.bind fun made hle hmade => .bind level_concrete <| .bind (ha.value.mono hle) ?_
  split
  · exact .pure _
  · exact .bind hmade <| .bind level_types (.pure _)

lemma level_wrapText (htype : Spelled j t (concrete type)) (ha : Judged j W t a) : Level j W t (wrapText type a) :=
  htype.bind fun _ hle hmade => .bind (ha.bare.mono hle) <| .bind hmade (.pure _)

lemma level_sequenceText (htype : Spelled j t (concrete type)) (h : ∀ l ∈ items, Judged j W t l) :
    Level j W t (sequenceText type items) :=
  htype.bind fun _ hle hmade => .bind (closed_bareAll .level fun l hl => (h l hl).value.mono hle) <| .bind hmade (.pure _)

end Uses

/-! ## Branches -/

section Branches

variable {a : Lowered} {e : Typed.Expr} {stmts : EmitM Unit} {tail : Option Lowered}
  {elseBranch : Option (Typed.Expr × Lowered)}

lemma level_blockContents (hstmts : Level j True t stmts) (htail : ∀ l, tail = some l → Judged j W t l) (dest : Dest) :
    Level j True t (blockContents stmts tail dest) := by
  refine .bind hstmts ?_
  cases tail with
  | none => exact .pure ()
  | some l => exact (htail l rfl).into dest

lemma judged_blockExpr (htype : Spelled j t (concrete e.type)) (hasStmts : Bool) (hescapes : e.escapes = true → W)
    (hstmts : Level j True t stmts) (htail : ∀ l, tail = some l → Judged j W t l) :
    Judged j W t (lowerBlockExpr e hasStmts stmts tail) := by
  have hcontents := level_blockContents hstmts htail
  have hinto : ∀ dest, Level j True t ((lowerBlockExpr e hasStmts stmts tail).into dest) := by
    intro dest
    unfold lowerBlockExpr
    split
    · exact .pure ()
    · exact level_inBraces (hcontents dest)
  have hvalue : Level j W t (lowerBlockExpr e hasStmts stmts tail).value := by
    unfold lowerBlockExpr
    dsimp only
    split
    · exact level_controlValue htype hescapes hinto
    · exact (htail _ rfl).value
    · exact .pure _
  exact ⟨hvalue, hvalue, hinto, hcontents, fun _ _ => j.pure⟩

lemma holds_conditionLine (h : Judged j W t a) (isFirst : Bool) :
    j.Holds True t (d + (!isFirst).toNat) (conditionLine a isFirst) (d + 1) := by
  refine j.bind (h.bare.any _) ?_
  cases isFirst with
  | true => exact j.enter
  | false => exact j.next

lemma holds_elseLines (h : ∀ b, elseBranch = some b → Judged j W t b.2) (dest : Dest) :
    j.Holds True t (d + 1) (elseLines elseBranch dest) (d + 1) := by
  unfold elseLines
  split
  · exact j.pure
  · have hbranch := h _ rfl
    split
    · exact j.bind j.next (hbranch.branch dest _)
    · exact hbranch.elseIf dest d
  · exact j.bind j.next ((h _ rfl).branch dest _)

lemma judged_cond (htype : Spelled j t (concrete e.type)) (hescapes : e.escapes = true → W)
    {thenBranch : Typed.Expr × Lowered} (hcond : Judged j W t a) (hthen : Judged j W t thenBranch.2)
    (helse : ∀ b, elseBranch = some b → Judged j W t b.2) : Judged j W t (lowerCond e a thenBranch elseBranch) := by
  -- A condition behind `else` finds the brace of the branch before it open, and exchanges it.
  have hlines (isFirst : Bool) (dest : Dest) (d : Nat) : j.Holds True t (d + (!isFirst).toNat) (do
      conditionLine a isFirst
      thenBranch.2.branch dest
      elseLines elseBranch dest) (d + 1) :=
    j.bind (holds_conditionLine hcond isFirst) <| j.bind (hthen.branch dest _) (holds_elseLines helse dest)
  have hinto : ∀ dest, Level j True t ((lowerCond e a thenBranch elseBranch).into dest) :=
    fun dest d => j.bind (hlines true dest d) j.leave
  have hvalue : Level j W t (lowerCond e a thenBranch elseBranch).value := by
    refine .bind (closed_isChoice .level) fun {_} => ?_
    split
    · exact .bind hcond.value <| .bind hthen.value <| .bind (helse _ rfl).value (.pure _)
    · exact level_controlValue htype hescapes hinto
  exact ⟨hvalue, hvalue, hinto, hinto, hlines false⟩

lemma holds_armLine : j.Holds True t (d + (!isFirst).toNat) (armLine condition isFirst) (d + 1) := by
  unfold armLine
  split
  · exact j.enter
  · exact j.next
  · exact j.enter
  · exact j.next

lemma level_bindLocal {id : LocalId} (hid : Spelled j t (localType id)) : Level j True t (bindLocal id access) :=
  hid.bind fun _ _ hmade => .bind hmade <| .bind (closed_localName .level) level_line

lemma level_matchInto (ha : Judged j W t a) (h : ∀ subject type, Level j True t (armLines subject type dest arms true)) :
    Level j True t (matchInto type a arms dest) := by
  refine .bind level_temp <| .bind ha.bare.any <| .bind level_concrete <| .bind level_types ?_
  exact level_inBraces (.bind level_line (h _ _))

lemma level_returnLines (h : ∀ v, value = some v → Judged j W t v.2) : Level j True t (returnLines value) := by
  unfold returnLines
  split
  · exact level_line
  · have hvalue := h _ rfl
    refine .bind (closed_isVoidLike .level) fun {_} => ?_
    split
    · exact .bind (hvalue.into .discard) level_line
    · exact hvalue.into .ret

end Branches

/-! ## Statements -/

section Statements

variable {a b : Lowered} {body : Dest → EmitM Unit} {id : LocalId}

lemma level_letLines (hid : Spelled j t (localType id)) (init : Typed.Expr) (h : Judged j W t a) :
    Level j True t (letLines id init a) := by
  refine hid.bind fun _ hle hmade => .bind (closed_isVoidLike .level) fun {_} => ?_
  split
  · exact (h.into .discard).mono hle
  · exact .bind hmade <| .bind (h.bare.any.mono hle) <| .bind (closed_localName .level) level_line

lemma level_whileLines (cond : Typed.Expr) (h : Judged j W t a) (hbody : ∀ dest, Level j True t (body dest)) :
    Level j True t (whileLines cond a body) := by
  unfold whileLines
  split
  · exact level_inBraces (.bind h.bare.any <| .bind level_line (hbody .discard))
  · exact .bind h.bare.any <| level_inBraces (hbody .discard)

lemma level_rangeLines (hid : Spelled j t (localType id)) (ha : Judged j W t a) (hb : Judged j W t b) (inclusive : Bool)
    (hbody : ∀ dest, Level j True t (body dest)) : Level j True t (rangeLines id a b inclusive body) := by
  refine hid.bind fun _ hle hmade => .bind hmade <| .bind (closed_localName .level) <| .bind level_temp ?_
  exact .bind (ha.bare.any.mono hle) <| .bind (hb.bare.any.mono hle) <| level_inBraces ((hbody .discard).mono hle)

lemma level_eachLines (hid : Spelled j t (localType id)) (h : Judged j W t a)
    (hbody : ∀ dest, Level j True t (body dest)) : Level j True t (eachLines id a body) := by
  refine hid.bind fun _ hle hmade => .bind hmade <| .bind (closed_localName .level) ?_
  exact .bind (h.bare.any.mono hle) <| level_inBraces ((hbody .discard).mono hle)

end Statements

end Kite.Emission
