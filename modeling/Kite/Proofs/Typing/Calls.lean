/-
What patterns, methods and calls give. A pattern binds values of the types its locals were declared
with. A call of a function gives a value of its result type, with the generic arguments of the call
in the place of the parameters of the function; the frame of the caller is the same after it.
-/
import Kite.Proofs.Typing.Rules

namespace Kite.Typed.Exact

open Eval List Program Bool

variable {cx : Context} {r : ParamId → Ty} {t : Ty} {span : Span} {args : List Ty} {decl : DefId} {values : List Value}
  {env : Env Unit}

/-! ## Patterns -/

lemma payload_fits {types : List Ty} (htypes : cx.program.payloadTys? decl index args = some types)
    (hv : (Value.variant other index fields).fits cx.program ((Ty.node (.named decl) args).subst r)) :
    Value.fitAll cx.program fields (types.map (.subst r)) := by
  rw [Ty.subst_node] at hv
  rcases Value.fits_named.1 hv with ⟨_, _, heq, _⟩ | ⟨_, _, types', heq, htypes', hfit⟩
  · cases heq
  · cases heq
    rw [payloadTys?_subst, htypes] at htypes'
    cases htypes'
    exact hfit

lemma fits_bind {f : Bool → StateM Eval.Frame Bool} (hx : FrameFits cx r (x frame).2)
    (hf : ∀ matched frame', FrameFits cx r frame' → FrameFits cx r (f matched frame').2) :
    FrameFits cx r ((x >>= f) frame).2 :=
  hf _ _ hx

mutual

theorem matchPattern_fits : ∀ pat v t frame,
    pattern cx pat t → v.fits cx.program (t.subst r) → FrameFits cx r frame →
      FrameFits cx r (matchPattern cx.program pat v frame).2
  | .wildcard, v, t, frame, _, _, hframe => by unfold matchPattern; exact hframe
  | .binding id, v, t, frame, h, hv, hframe => by
    rw [pattern, beq_iff_eq] at h
    exact hframe.bind (h ▸ hv)
  | .int _, v, t, frame, _, _, hframe | .bool _, v, t, frame, _, _, hframe | .char _, v, t, frame, _, _, hframe => by
    cases v <;> exact hframe
  | .str _, v, t, frame, _, _, hframe | .none, v, t, frame, _, _, hframe => by cases v <;> exact hframe
  | .some inner, v, t, frame, h, hv, hframe => by
    unfold pattern at h
    split at h
    case h_4 rest part heq =>
      cases heq
      rcases Value.fits_optional.1 (by simpa using hv) with rfl | ⟨w, rfl, hw⟩
      · exact hframe
      · exact matchPattern_fits inner w _ frame h hw hframe
    all_goals simp_all
  | .variant decl index fields, v, t, frame, h, hv, hframe => by
    unfold pattern at h
    split at h
    case h_2 heq =>
      cases heq
      simp only [and_eq_true, beq_iff_eq, Option.any_eq_true] at h
      obtain ⟨rfl, types, htypes, hfields⟩ := h
      cases v with
      | variant other actual values =>
        unfold matchPattern
        split
        · rename_i hindex
          rw [beq_iff_eq] at hindex
          subst hindex
          exact matchPatterns_fits fields values types frame hfields (payload_fits htypes hv) hframe
        · exact hframe
      | _ => exact hframe
    all_goals simp_all

theorem matchPatterns_fits : ∀ pats vs ts frame, patterns cx pats ts →
      Value.fitAll cx.program vs (ts.map (.subst r)) → FrameFits cx r frame →
      FrameFits cx r (matchPatterns cx.program pats vs frame).2
  | [], vs, ts, frame, _, _, hframe | pat :: pats, [], ts, frame, _, _, hframe => by exact hframe
  | pat :: pats, v :: vs, [], frame, _, hfit, _ => by simp [Value.fitAll] at hfit
  | pat :: pats, v :: vs, t :: ts, frame, h, hfit, hframe => by
    rw [patterns, and_eq_true] at h
    rw [map_cons, Value.fitAll, and_eq_true] at hfit
    refine fits_bind (matchPattern_fits pat v t frame h.1 hfit.1 hframe) fun matched frame' hfirst => ?_
    cases matched with
    | true => exact matchPatterns_fits pats vs ts frame' h.2 hfit.2 hfirst
    | false => exact hfirst

end

variable {v : Value}

lemma matchAny_fits (hv : v.fits cx.program (t.subst r)) :
    ∀ pats frame, (∀ pat ∈ pats, pattern cx pat t) →
      FrameFits cx r frame → FrameFits cx r (matchAny cx.program pats v frame).2
  | [], frame, _, hframe => hframe
  | pat :: pats, frame, h, hframe => by
    refine fits_bind (matchPattern_fits pat v t frame (h pat (.head _)) hv hframe) fun matched frame' hfirst => ?_
    cases matched with
    | true => exact hfirst
    | false => exact matchAny_fits hv pats frame' (fun q hq => h q (.tail _ hq)) hfirst

lemma gives_matchesAny (hpats : (pats.all fun pat => pattern cx pat t)) (hv : v.fits cx.program (t.subst r)) :
    Keeps (FrameFits cx r) (matchesAny cx.program pats v : EvalM Unit Bool) (fun _ => True) (Leaves cx r) :=
  fun m hm => ⟨matchAny_fits hv pats m.frame (all_eq_true.1 hpats) hm, trivial⟩

/-! ## Several values -/

def FitTys (cx : Context) (r : ParamId → Ty) (ts : List Ty) (vs : List Value) : Prop :=
  Value.fitAll cx.program vs (ts.map (.subst r))

lemma FitTys.flow : ∀ {ss ts vs}, FitTys cx r ss vs → flowAll ss ts → FitTys cx r ts vs
  | [], [], vs, hfit, _ => hfit
  | [], _ :: _, vs, _, h | _ :: _, [], vs, _, h => by simp [flowAll] at h
  | s :: ss, t :: ts, [], hfit, _ => by simp [FitTys, Value.fitAll] at hfit
  | s :: ss, t :: ts, v :: vs, hfit, h => by
    simp only [FitTys, map_cons, Value.fitAll, and_eq_true] at hfit ⊢
    rw [flowAll, and_eq_true] at h
    exact ⟨fits_of_flows h.1 hfit.1, FitTys.flow hfit.2 h.2⟩

lemma FitTys.each : ∀ {ss vs}, FitTys cx r ss vs → (ss.all (flows · t)) → ∀ v ∈ vs, v.fits cx.program (t.subst r)
  | [], [], _, _, v, hv => by simp at hv
  | [], _ :: _, hfit, _, _, _ => by simp [FitTys, Value.fitAll] at hfit
  | _ :: _, [], _, _, v, hv => by simp at hv
  | s :: ss, w :: vs, hfit, h, v, hv => by
    simp only [FitTys, map_cons, Value.fitAll, and_eq_true] at hfit
    rw [all_cons, and_eq_true] at h
    rcases mem_cons.1 hv with rfl | hv
    · exact fits_of_flows h.1 hfit.1
    · exact FitTys.each hfit.2 h.2 v hv

/-! ## Builtin methods -/

lemma gives_pureMethod (h : methodFits method args t)
    (hpure : method.mutates = false) : Gives cx r (pureMethod method v span) t := by
  cases method with
  | vectorPush | vectorPop => cases hpure
  | stringLen | vectorLen | arrayLen =>
    rw [methodFits, beq_iff_eq] at h
    subst h
    cases v <;> first
      | exact .fail _ _
      | exact .pure (by simp [Ty.int])
  | stringIsEmpty | vectorIsEmpty | optionalHasValue =>
    rw [methodFits, beq_iff_eq] at h
    subst h
    cases v <;> first
      | exact .fail _ _
      | exact .pure (by simp [Ty.bool])

lemma changes_push (hpushed : pushed.fits cx.program (u.subst r)) : Changes cx.program
    ((Ty.node .vector (u :: rest)).subst r) (fun v => v.fits cx.program (Ty.void.subst r)) (pushOrPop (some pushed)) :=
    by
  intro v a w hv hw
  obtain ⟨items, rfl, hitems⟩ := fits_of_element? (t := .node .vector (u :: rest)) rfl hv
  cases hw
  refine ⟨sequence_fits (t := .node .vector (u :: rest)) rfl fun x hx => ?_, by simp [Ty.void]⟩
  rcases mem_append.1 hx with hx | hx
  · exact hitems x hx
  · rw [mem_singleton.1 hx]
    exact hpushed

lemma changes_pop : Changes cx.program ((Ty.node .vector (u :: rest)).subst r)
    (fun v => v.fits cx.program ((Ty.node .optional [u]).subst r)) (pushOrPop none) := by
  intro v a w hv hw
  obtain ⟨items, rfl, hitems⟩ := fits_of_element? (t := .node .vector (u :: rest)) rfl hv
  simp only [pushOrPop] at hw
  split at hw
  · rename_i last hlast
    cases hw
    refine ⟨sequence_fits (t := .node .vector (u :: rest)) rfl fun x hx => ?_, ?_⟩
    · exact hitems x ((dropLast_sublist items).subset hx)
    · simpa using hitems last (mem_of_getLast? hlast)
  · cases hw
    exact ⟨sequence_fits (t := .node .vector (u :: rest)) rfl (by simp), by simp⟩

/-! ## Functions -/

def paramTys (p : Program) (f : FunctionDef) (body : Body) (types : List Ty) : List Ty :=
  body.params.map fun id => (p.types.ty (body.locals.getD id.index default).type).subst (.bind f.generics types)

def OnlyFails : Unwind → Prop
  | .fail _ => True
  | _ => False

instance : Fallible OnlyFails := ⟨fun _ => trivial⟩

/-- How functions are called: one whose body gets arguments of its parameter types gives a value of
its result type. What cannot be called only fails. -/
def CallsFit (p : Program) (invoke : DefId → List TypeId → List Value → Span → EvalM Unit Value) : Prop :=
  ∀ (I : Eval.Frame → Prop) (decl : DefId) (generics : List TypeId) (args : List Value) (span : Span)
    (P : Value → Prop),
    (∀ f body, p.function? decl = some f → f.isComptime → f.body = some body →
      ∃ types, Value.fitAll p args (paramTys p f body types) ∧
        ∀ v, v.fits p ((p.types.ty f.result).subst (.bind f.generics types)) → P v) →
    Keeps I (invoke decl generics args span) P OnlyFails

lemma OnlyFails.leaves (cx : Context) (r : ParamId → Ty) (u : Unwind) (h : OnlyFails u) : Leaves cx r u := by
  cases u with
  | fail _ => trivial
  | ret _ | brk | cont => cases h

lemma gives_function (hinvoke : CallsFit cx.program env.invoke) (h : callFits cx decl generics args t)
    (hvalues : FitTys cx r args values) : Gives cx r (env.invoke decl resolved values span) t := by
  refine (hinvoke _ decl resolved values span _ ?_).mono (fun _ hv => hv) (OnlyFails.leaves cx r)
  intro f body hf hcomptime hbody
  simp only [callFits, hf, hcomptime, hbody, Bool.not_true, Bool.false_or, Option.all_some,
    and_eq_true, beq_iff_eq] at h
  obtain ⟨hargs, rfl⟩ := h
  refine ⟨(generics.map cx.ty).map (.subst r), ?_, ?_⟩
  · have hfit := hvalues.flow hargs
    simpa only [FitTys, paramTys, Context.ty, map_map, Function.comp_def, Ty.subst_subst_bind] using hfit
  · intro v hv
    rwa [Ty.subst_subst_bind]

lemma gives_constructor (h : calleeFits cx (.constructor decl) args t) (hvalues : FitTys cx r args values) :
    (Value.struct decl values).fits cx.program (t.subst r) := by
  simp only [calleeFits] at h
  split at h
  · rename_i named given
    simp only [and_eq_true, beq_iff_eq, Option.any_eq_true] at h
    obtain ⟨rfl, types, htypes, hflow⟩ := h
    rw [Ty.subst_node]
    refine Value.fits_named.2 (.inl ⟨values, types.map (.subst r), rfl, ?_, hvalues.flow hflow⟩)
    rw [fieldTys?_subst, htypes, Option.map_some]
  · cases h

lemma gives_variant (h : calleeFits cx (.variant decl index) args t)
    (hvalues : FitTys cx r args values) : (Value.variant decl index values).fits cx.program (t.subst r) := by
  simp only [calleeFits] at h
  split at h
  · rename_i named given
    simp only [and_eq_true, beq_iff_eq, Option.any_eq_true] at h
    obtain ⟨rfl, types, htypes, hflow⟩ := h
    rw [Ty.subst_node]
    refine Value.fits_named.2 (.inr ⟨index, values, types.map (.subst r), rfl, ?_, hvalues.flow hflow⟩)
    rw [payloadTys?_subst, htypes, Option.map_some]
  · cases h

lemma gives_call {values : EvalM Unit (List Value)} (hinvoke : CallsFit cx.program env.invoke)
    (h : calleeFits cx callee args t) (hvalues : Keeps (FrameFits cx r) values (FitTys cx r args) (Leaves cx r))
    (hfirst : Keeps (FrameFits cx r) first (fun _ => True) (Leaves cx r))
    (hmethod : ∀ m, callee = .builtinMethod m → Gives cx r (method m) t) :
    Gives cx r (call env span callee values first method) t := by
  cases callee with
  | function decl generics =>
    have hresolved : Keeps (FrameFits cx r) (resolveParams env generics) (fun _ => True) (Leaves cx r) :=
      Keeps.program_bind fun _ => .get_bind fun _ _ => .pure trivial
    exact hresolved.bind fun resolved _ => hvalues.bind fun vs hvs => gives_function hinvoke h hvs
  | traitMethod => cases h
  | builtin fn =>
    cases fn with
    | panic =>
      exact hfirst.bind fun _ _ => .program_bind fun _ => Keeps.fail _ _
    | _ => exact .fail _ _
  | builtinMethod m => exact hmethod m rfl
  | indirect => exact .fail _ _
  | constructor decl => exact hvalues.bind fun vs hvs => .pure (gives_constructor h hvs)
  | variant decl index => exact hvalues.bind fun vs hvs => .pure (gives_variant h hvs)

end Kite.Typed.Exact
