/-
Types as written, calls, paths and methods settle, as the rules for the other expressions do.
-/
import Kite.Proofs.Check.Bodies

namespace Kite.Check

open List TypeM

variable {method : BuiltinMethod} {param : Generic} {span : Span} {s : Subst} {element type : TypeId} {env : Env}
  {path : List PathPart} {receiver : Typed.Expr}

variable {arg : ArgReading} {x : BodyM α} {check : ExprCheck} {slots : List (Option ArgReading)}
  {length result pattern selfType : TypeId}

/-! ## Types -/

/-- A type as written settles, also where it is read as a constant. -/
structure TypeReading.Settling (reading : TypeReading) : Prop where
  resolve : Check.Settling reading.resolve
  constant : ∀ value, reading.form = .constant value → ∀ type, Check.Settling (value type)

namespace Settling

lemma constArg : Settling (constArg value span) := .ite .buildIntern (.map .report)

lemma constArg? : ∀ value : Option Int, Settling (constArg? value span)
  | none => .pure
  | some _ => .constArg

lemma arrayType : Settling (arrayType element length) := .ite .pure .buildIntern

lemma paramType {name : Ident} : Settling (paramType generic name args span) :=
  .ite (.map .report) (.ite (.map .report) .pure)

section

variable (hd : env.demand.Settling)

include hd

/-- A constant is checked in a body of its own, and then evaluated. -/
lemma constInt (hcheck : check.Settling) : Settling (constInt env check type) :=
  .bind (.runBody (.checkAgainst hcheck _)) <| .ite .pure (.map (.evaluate hd _ _))

lemma arrayLength {name : Option Ident} (hcheck : check.Settling) : Settling (arrayLength env name check span) := by
  unfold Check.arrayLength
  split
  · exact .ite .pure (.map .report)
  · exact .bind (.constInt hd hcheck) <| .constArg? _

lemma namedConstArg : Settling (namedConstArg env ident param span) := by
  refine .bind (.lookupItem _) fun {found} => ?_
  split
  · exact .pure
  · exact .map .report
  · refine .bind (.getDef _) fun {d} => ?_
    split
    · refine .bind (hd.global _) fun {r} => ?_
      split
      · exact .map .reportFailure
      · split
        · exact .constArg
        · exact .map .report
    · exact .map .report

lemma genericArg {arg : TypeReading} (harg : arg.Settling) : Settling (genericArg env arg param) := by
  unfold Check.genericArg
  split
  · exact .map .report
  · exact harg.resolve
  · rename_i hform
    exact .bind (harg.constant _ hform _) <| .constArg? _
  · split
    · exact .ite .pure (.map .report)
    · exact .namedConstArg hd
  · exact .map .report

/-- Each argument against the bounds of its parameter. -/
lemma boundedArgs (owner : DefId) : ∀ index params {args},
    (∀ arg ∈ args, arg.Settling) → Settling (boundedArgs env owner index params args)
  | _, [], _, _ | _, _ :: _, [], _ => .pure
  | index, param :: params, arg :: args, h =>
    .bind (.genericArg hd (h arg (by simp))) <| .bind .checkBoundsAt <|
      .map (boundedArgs owner (index + 1) params (forall_mem_cons.1 h).2)

variable {args : List TypeReading} (hargs : ∀ arg ∈ args, arg.Settling)

include hargs

lemma instantiate : Settling (instantiate env decl args span) := by
  refine .bind (.getDef _) fun {d} => ?_
  dsimp only
  split
  case h_3 => exact .map .report
  all_goals
    refine .ite (.map .report) ?_
    exact .bind (.boundedArgs hd _ _ _ hargs) .buildIntern

lemma declaredType {path : List Ident} : Settling (declaredType env path args span) := by
  refine .bind (.lookupItem _) fun {found} => ?_
  split
  · exact .pure
  · exact .map .report
  · exact .ite (.instantiate hd hargs) (.map .report)

lemma pathType (path : List Ident) (span : Span) : Settling (pathType env path args span) := by
  unfold Check.pathType
  split
  · split
    · exact .ite (.map .report) .pure
    · exact .paramType
    · exact .declaredType hd hargs
  · exact .declaredType hd hargs

end

/-! ## Bindings of generics -/

lemma bindEach (hd : env.demand.Settling) : ∀ generics {args},
    (∀ arg ∈ args, arg.Settling) → ∀ s, Settling (bindEach env generics args s)
  | [], _, _, _ | _ :: _, [], _, _ => .pure
  | generic :: generics, arg :: args, h, _ =>
    .bind (.genericArg hd (h arg (by simp))) <| bindEach hd generics (forall_mem_cons.1 h).2 _

lemma bindExplicit (hd : env.demand.Settling)
    (h : ∀ arg ∈ explicit, arg.Settling) : Settling (bindExplicit env name own explicit s span) :=
  .ite .pure (.ite (.map .report) (.bindEach hd _ h _))

/-- What is expected of a call may bind its generics. -/
lemma bindExpected : Settling (bindExpected result pending expected s) := by
  unfold Check.bindExpected
  split
  · exact .pure
  · refine .bind .buildSubst <| .bind .types <| .ite .pure ?_
    split
    · exact .pure
    · split
      · exact .pure
      · split
        · exact .pure
        · exact .pure

lemma widenToVector {value : Typed.Expr} : Settling (widenToVector pattern value) := by
  refine .bind .types fun {_} => ?_
  split
  · exact .map .buildIntern
  · exact .map .buildIntern
  · exact .pure

variable {generics : List Generic}

lemma genericArgs : Settling (genericArgs name generics s span) := .ite .pure (.map .report)

lemma checkBounds : Settling (checkBounds env generics args span) := by
  refine .map (.forIn fun _ _ => .map (.forIn fun _ _ => ?_))
  exact .bind .program <| .ite (.map .report) .pure

lemma checkLabels : Settling (checkLabels names args) := by
  refine .map (.forIn fun _ _ => ?_)
  dsimp only
  split
  · exact .ite (.map .report) .pure
  · exact .pure

end Settling

/-! ## Arguments -/

/-- The arguments that stand for the fields of a struct settle. -/
def SettlingSlots (slots : List (Option ArgReading)) : Prop := ∀ slot ∈ slots, ∀ arg ∈ slot, arg.check.Settling

lemma SettlingSlots.set (h : SettlingSlots slots)
    (harg : arg.check.Settling) (index : Nat) : SettlingSlots (slots.set index (some arg)) := by
  intro slot hslot
  rcases mem_or_eq_of_mem_set hslot with hslot | rfl
  · exact h slot hslot
  · rintro _ ⟨⟩
    exact harg

namespace SettlingBody

lemma checkForErrors : ∀ {args}, (∀ arg ∈ args, arg.check.Settling) → SettlingBody (checkForErrors args)
  | [], _ => .pure
  | arg :: args, h => .bind (.synth (h arg (by simp))) <| checkForErrors (forall_mem_cons.1 h).2

lemma failCall (h : ∀ arg ∈ args, arg.check.Settling) (span place : Span)
    (problem : Problem) : SettlingBody (failCall args span place problem) :=
  .bind .report <| .map (.checkForErrors h)

/-- The declared type either checks the argument or is matched with its type. -/
lemma checkArg (h : arg.check.Settling) (declared : TypeId) (pending : List ParamId)
    (s : Subst) : SettlingBody (checkArg arg declared pending s) := by
  refine .bind (.subst _ _) <| .bind .types <| .ite ?_ ?_
  · refine .bind (.synth h) <| .bind .types <| .ite ?_ ?_
    · exact .bind (.subst _ _) <| .bind (.lift .mismatch) <| .map .consume
    · exact .map .consume
  · refine .bind (.synth h) <| .bind (.lift .widenToVector) <| .bind .types ?_
    dsimp only
    refine .ite ?_ (.map .consume)
    exact .bind (.subst _ _) <| .bind (.lift .mismatch) <| .map .consume

lemma checkArgs (pending : List ParamId) : ∀ {args}, (∀ arg ∈ args, arg.check.Settling) →
    ∀ types s, SettlingBody (checkArgs pending args types s)
  | [], _, _, _ | _ :: _, _, [], _ => .pure
  | arg :: _, h, _ :: rest, _ =>
    .bind (.checkArg (h arg (by simp)) _ _ _) <|
      .map (checkArgs pending (forall_mem_cons.1 h).2 rest _)

lemma checkPayload : ∀ {args}, (∀ arg ∈ args, arg.check.Settling) → ∀ types s,
    SettlingBody (checkPayload pending args types s) := by
  intro args
  induction args with
  | nil => exact fun _ _ _ => .pure
  | cons arg args ih =>
    intro h types s
    cases types with
    | nil => exact .pure
    | cons type rest =>
      rw [Check.checkPayload]
      cases arg.label
      case' some _ => refine .bind .report ?_
      all_goals
        exact .bind (.checkArg (h _ (.head _)) _ _ _) <| .map (ih (forall_mem_cons.1 h).2 rest _)

lemma placeLabelled (decl : DefId) (name : String) (d : StructDef) : ∀ {args},
    (∀ arg ∈ args, arg.check.Settling) → ∀ slots, SettlingBody (placeLabelled decl name d args slots)
  | [], _, _ => .pure
  | arg :: args, h, slots => by
    have hrest : ∀ slots, SettlingBody (Check.placeLabelled decl name d args slots) :=
      placeLabelled decl name d (forall_mem_cons.1 h).2
    have harg := h arg (by simp)
    rw [Check.placeLabelled]
    split
    · exact hrest _
    · split
      · exact .bind .report <| .bind (.synth harg) <| hrest _
      · refine .ite (.bind .report <| .bind (.synth harg) <| hrest _) ?_
        refine .bind .getChecker fun {_} => ?_
        split
        · exact .bind (.lift .referTo) <| hrest _
        · exact hrest _

lemma checkFields (pending : List ParamId) (span : Span) : ∀ fields {slots}, SettlingSlots slots →
      ∀ s, SettlingBody (checkFields pending span fields slots s)
  | [], _, _, _ | _ :: _, [], _, _ => .pure
  | field :: fields, slot :: slots, h, s => by
    have hrest : ∀ s, SettlingBody (Check.checkFields pending span fields slots s) :=
      checkFields pending span fields (forall_mem_cons.1 h).2
    cases slot with
    | none => exact .bind .pure <| .map (hrest _)
    | some arg =>
      exact .bind (.checkArg (h _ (.head _) arg rfl) _ _ _) <| .map (hrest _)

lemma indirectArgs : ∀ {args}, (∀ arg ∈ args, arg.check.Settling) →
    ∀ types : List TypeId, SettlingBody (indirectArgs args types)
  | [], _, _ | _ :: _, _, [] => .pure
  | ⟨label, span, text, check⟩ :: args, h, type :: rest => by
    cases label
    case' some => refine .bind .report ?_
    all_goals
      exact .bind (.takeAgainst (h _ (.head _))) <| .map (indirectArgs (forall_mem_cons.1 h).2 rest)

lemma formatArgs : ∀ {args}, (∀ arg ∈ args, arg.check.Settling) → SettlingBody (formatArgs args)
  | [], _ => .pure
  | arg :: args, h => by
    have hrest : SettlingBody (Check.formatArgs args) := formatArgs (forall_mem_cons.1 h).2
    refine .bind (.synth (h arg (by simp))) <| .bind .program <| .ite ?_ ?_
    · exact .bind .report <| .map hrest
    · exact .map hrest

lemma traitArgs : ∀ {args}, (∀ arg ∈ args, arg.check.Settling) →
    ∀ types : List TypeId, SettlingBody (traitArgs args types)
  | [], _, _ | _ :: _, _, [] => .pure
  | arg :: _, h, _ :: rest =>
    .bind (.takeAgainst (h arg (by simp))) <| .map (traitArgs (forall_mem_cons.1 h).2 rest)

/-! ## Calls -/

section

variable (hd : env.demand.Settling) {explicit : List TypeReading} (hexplicit : ∀ arg ∈ explicit, arg.Settling)
  {args : List ArgReading} (hargs : ∀ arg ∈ args, arg.check.Settling)

include hd hexplicit

lemma functionValue : SettlingBody (functionValue env decl s explicit span) := by
  refine .bind (.lift (.signature hd _ _)) <| .bind .program fun {_} => ?_
  split
  · exact .pure
  · refine .ite (.map .report) ?_
    refine .bind (.lift (.bindExplicit hd hexplicit)) <| .bind (.lift .genericArgs) fun {_} => ?_
    split
    · exact .pure
    · refine .map (.lift (.build (bind_le (mapM_le (subst_le _) _) fun _ => ?_)))
      exact bind_le (subst_le _ _) fun _ => intern_le _

include hargs

/-- The signature of the callee is demanded first. -/
lemma callTo (decl : DefId) (s : Subst) (receiver : Option Typed.Expr) (expected : Option TypeId)
    (span : Span) : SettlingBody (callTo env decl s explicit receiver args expected span) := by
  refine .bind (.lift (.signature hd _ _)) <| .bind .program fun {_} => ?_
  split
  · exact .map (.checkForErrors hargs)
  · refine .bind (.lift (.bindExplicit hd hexplicit)) <| .ite (.failCall hargs _ _ _) ?_
    refine .bind (.lift .checkLabels) <| .bind (.lift .bindExpected) <|
      .bind (.checkArgs _ hargs _ _) <| .bind (.lift .genericArgs) fun {_} => ?_
    split
    · exact .pure
    · exact .bind (.lift .checkBounds) <| .map (.subst _ _)

end

lemma constructFrom (env : Env) (decl : DefId) (name : String) (d : StructDef) (h : SettlingSlots slots)
    (s : Subst) (span : Span) : SettlingBody (constructFrom env decl name d slots s span) := by
  refine .bind (.checkFields _ _ _ h _) <| .bind (.lift .genericArgs) fun {_} => ?_
  split
  · exact .pure
  · exact .bind (.lift .checkBounds) <| .map (.intern _)

end SettlingBody

/-- A check in a body whose result always has a property. -/
def Gives (x : BodyM α) (P : α → Prop) : Prop := ∀ s c, P (x s c).1.1

lemma Gives.bind {P : β → Prop} (h : ∀ a, Gives (f a) P) : Gives (x >>= f) P :=
  fun s c => h (x s c).1.1 (x s c).1.2 (x s c).2

variable {P : α → Prop}

lemma SettlingBody.bindGives (hx : SettlingBody x)
    (hP : Gives x P) (hf : ∀ a, P a → SettlingBody (f a)) : SettlingBody (x >>= f) :=
  fun s c => (hx s c).trans (hf (x s c).1.1 (hP s c) (x s c).1.2 (x s c).2)

/-- Placing moves arguments into slots, and makes none. -/
lemma gives_placeLabelled :
    ∀ {args}, (∀ arg ∈ args, arg.check.Settling) → ∀ {slots},
      SettlingSlots slots → Gives (placeLabelled decl name d args slots) SettlingSlots
  | [], _, _, hslots => fun _ _ => hslots
  | arg :: args, h, slots, hslots => by
    have hrest : ∀ {slots}, SettlingSlots slots → Gives (placeLabelled decl name d args slots) SettlingSlots :=
      gives_placeLabelled (forall_mem_cons.1 h).2
    have harg := h arg (by simp)
    rw [placeLabelled]
    split
    · exact hrest hslots
    · split
      · exact .bind fun _ => .bind fun _ => hrest hslots
      · split
        · exact .bind fun _ => .bind fun _ => hrest hslots
        · refine .bind fun _ => ?_
          split
          · exact .bind fun _ => hrest (hslots.set harg _)
          · exact hrest (hslots.set harg _)

namespace SettlingBody

section

variable (hd : env.demand.Settling) {explicit : List TypeReading} (hexplicit : ∀ arg ∈ explicit, arg.Settling)

include hd hexplicit

lemma constructor (hargs : ∀ arg ∈ args, arg.check.Settling) (decl : DefId)
    (expected : Option TypeId) (span : Span) : SettlingBody (constructor env decl explicit args expected span) := by
  refine .bind .program fun {_} => ?_
  split
  · exact .map (.checkForErrors hargs)
  · rename_i d _
    refine .bind (.lift (.bindExplicit hd hexplicit)) <| .bind (.lift .bindExpected) ?_
    refine .ite (.ite (.failCall hargs _ _ _) (.constructFrom _ _ _ _ ?_ _ _)) (.ite (.failCall hargs _ _ _) ?_)
    · intro slot hslot arg harg
      obtain ⟨arg', harg', rfl⟩ := mem_map.mp hslot
      obtain rfl : arg' = arg := Option.some.inj harg
      exact hargs arg' harg'
    · have hempty : SettlingSlots (d.fields.map fun _ => none) := by simp [SettlingSlots]
      refine .bindGives (.placeLabelled _ _ _ hargs _) (gives_placeLabelled hargs hempty)
        fun slots hslots => .ite ?_ (.constructFrom _ _ _ _ hslots _ _)
      exact .bind .report <| .constructFrom _ _ _ _ hslots _ _

lemma variantExpr (args : Option (List ArgReading)) (hargs : ∀ arg ∈ args.getD [], arg.check.Settling)
    (decl : DefId) (index : Nat) (expected : Option TypeId) (span : Span) :
    SettlingBody (variantExpr env decl index explicit args expected span) := by
  refine .bind .program fun {_} => ?_
  split
  · exact .pure
  · refine .bind (.lift (.bindExplicit hd hexplicit)) <| .bind (.lift .bindExpected) <| .ite (.failCall hargs _ _ _) ?_
    refine .bind (.checkPayload hargs _ _) <| .bind (.lift .genericArgs) fun {_} => ?_
    split
    · exact .pure
    · exact .bind (.lift .checkBounds) <| .map (.intern _)

end

section

variable {args : List ArgReading} (hargs : ∀ arg ∈ args, arg.check.Settling)

include hargs

lemma indirectCall {callee : Typed.Expr} : SettlingBody (indirectCall callee args span) := by
  refine .bind .types fun {_} => ?_
  dsimp only
  split
  · exact .ite (.failCall hargs _ _ _) (.map (.indirectArgs hargs _))
  · exact .ite (.bind .report <| .map (.checkForErrors hargs)) (.map (.checkForErrors hargs))

lemma panicCall : SettlingBody (panicCall args span) := by
  unfold Check.panicCall
  split
  · exact .map (.checkAgainst (hargs _ (by simp)) _)
  · exact .bind .report <| .map (.checkForErrors hargs)

lemma formatCall : SettlingBody (formatCall fn args span) := by
  unfold Check.formatCall
  split
  · exact .ite .pure (.map .report)
  · split
    · exact .failCall hargs _ _ _
    · have hrest := formatArgs fun arg harg => hargs arg (.tail _ harg)
      exact .ite (.bind .report <| .map hrest) (.map hrest)

lemma builtinCall : SettlingBody (builtinCall fn generics args span) := by
  unfold Check.builtinCall
  cases generics
  case' cons first _ => refine .bind .report ?_
  all_goals
    refine .bind (.forIn fun arg _ => ?_) <| .ite (.panicCall hargs) (.formatCall hargs)
    split
    · exact .map .report
    · exact .bind .pure .pure

end

/-! ## Paths -/

lemma localOrGeneric : SettlingBody (localOrGeneric env path) := by
  unfold Check.localOrGeneric
  split
  · refine .bind .get fun {_} => ?_
    split
    · exact .map .useLocal
    · exact .pure
    · split
      · exact .pure
      · exact .map .report
  · exact .pure

end SettlingBody

namespace Settling

lemma undeclaredPath {path : List Ident} : Settling (undeclaredPath path span) := by
  unfold Check.undeclaredPath
  split
  · split
    · exact .pure
    · exact .map .report
  · exact .map .report

section

variable (hd : env.demand.Settling)

include hd

lemma memberPath (howner : ∀ arg ∈ owner.args, arg.Settling) : Settling (memberPath env decl owner member span) := by
  refine .bind .program fun {_} => ?_
  dsimp only
  split
  · refine .ite (.bind .report fun {_} => ?_) ?_
    all_goals
      refine .bind .get fun {_} => ?_
      split
      · exact .map .referTo
      · exact .pure
  · refine .bind .referToDef <| .ite .pure ?_
    exact .bind (.instantiate hd howner) <| .map .types
  · exact .map .report

lemma resolvePath (hpath : ∀ part ∈ path, ∀ arg ∈ part.args, arg.Settling) :
    Settling (resolvePath env path span) := by
  refine .bind (.lookupItem _) fun {found} => ?_
  split
  · exact .pure
  · exact .undeclaredPath
  · split
    · exact .pure
    · rename_i owner member hdrop
      refine .memberPath hd (hpath owner ?_)
      exact mem_of_mem_drop (hdrop ▸ mem_cons_self ..)
    · exact .map .report

end

end Settling

def PathTarget.args : PathTarget → List TypeReading
  | .item _ args | .variant _ _ args | .method _ _ args => args
  | .builtin _ | .failed => []

/-- A check outside of a body whose result always has a property. -/
def GivesOutside (x : CheckM α) (P : α → Prop) : Prop := ∀ c, P (x c).1

lemma GivesOutside.bind {x : CheckM α} {f : α → CheckM β} {P : β → Prop} (h : ∀ a, GivesOutside (f a) P) :
    GivesOutside (x >>= f) P :=
  fun c => h (x c).1 (x c).2

lemma GivesOutside.pure {a : α} (h : P a) : GivesOutside (pure a) P := fun _ => h

lemma GivesOutside.lift {x : CheckM α} (h : GivesOutside x P) : Gives (liftM x : BodyM α) P := fun _ c => h c

/-- The arguments of what a path stands for are written in the path. -/
lemma gives_resolvePath (hpath : ∀ part ∈ path, ∀ arg ∈ part.args, arg.Settling) :
    GivesOutside (resolvePath env path span) fun target => ∀ arg ∈ target.args, arg.Settling := by
  refine .bind fun found => ?_
  split
  · exact .pure (by simp [PathTarget.args])
  · unfold undeclaredPath
    split
    · split
      · exact .pure (by simp [PathTarget.args])
      · exact .bind fun _ => .pure (by simp [PathTarget.args])
    · exact .bind fun _ => .pure (by simp [PathTarget.args])
  · split
    · rename_i item hdrop
      exact .pure (hpath item (mem_of_mem_drop (hdrop ▸ mem_cons_self ..)))
    · rename_i owner member hdrop
      have howner := hpath owner (mem_of_mem_drop (hdrop ▸ mem_cons_self ..))
      have hmember := hpath member (mem_of_mem_drop (hdrop ▸ mem_cons_of_mem _ (.head _)))
      unfold memberPath
      refine .bind fun _ => ?_
      dsimp only
      split
      · split
        · refine .bind fun _ => .bind fun _ => ?_
          split
          · exact .bind fun _ => .pure howner
          · exact .pure howner
        · refine .bind fun _ => ?_
          split
          · exact .bind fun _ => .pure howner
          · exact .pure howner
      · refine .bind fun _ => ?_
        split
        · exact .pure hmember
        · exact .bind fun _ => .bind fun _ => .pure hmember
      · exact .bind fun _ => .pure (by simp [PathTarget.args])
    · exact .bind fun _ => .pure (by simp [PathTarget.args])

namespace SettlingBody

section

variable (hd : env.demand.Settling) (hpath : ∀ part ∈ path, ∀ arg ∈ part.args, arg.Settling)

include hd hpath

lemma valuePath : SettlingBody (valuePath env path pathSpan expected span) := by
  refine .bind .localOrGeneric fun {found} => ?_
  cases found with
  | some value => exact .pure
  | none =>
    refine .bindGives (.lift (.resolvePath hd hpath)) (gives_resolvePath hpath).lift fun target htarget => ?_
    split
    · refine .bind (.lift (.getDef _)) fun {d} => ?_
      split
      · exact .functionValue hd htarget
      · exact .map (.lift (hd.globalType _))
      · exact .map (.lift (hd.globalType _))
      · exact .map .report
    · exact .variantExpr hd htarget none (by simp) _ _ _ _
    · exact .functionValue hd htarget
    · exact .map .report
    · exact .pure

lemma callPath (hargs : ∀ arg ∈ args, arg.check.Settling) :
    SettlingBody (callPath env path pathSpan calleeSpan args expected span) := by
  refine .bind .localOrGeneric fun {found} => ?_
  cases found with
  | some value => exact .indirectCall hargs
  | none =>
    refine .bindGives (.lift (.resolvePath hd hpath)) (gives_resolvePath hpath).lift fun target htarget => ?_
    split
    · refine .bind (.lift (.getDef _)) fun {d} => ?_
      split
      · exact .callTo hd htarget hargs _ _ _ _ _
      · exact .constructor hd htarget hargs _ _ _
      iterate 2
        · exact .bind (.lift (hd.globalType _)) <| .indirectCall hargs
      · exact .failCall hargs _ _ _
    · exact .variantExpr hd htarget (some args) hargs _ _ _ _
    · exact .bind .program <| .ite (.failCall hargs _ _ _) (.callTo hd htarget hargs _ _ _ _ _)
    · exact .builtinCall hargs
    · exact .map (.checkForErrors hargs)

end

/-! ## Methods -/

lemma checkReceiver : SettlingBody (checkReceiver kind receiver) := .ite (.map .requireMutableThrough) .pure

lemma buildResult : SettlingBody (build (builtinResult element method) : BodyM TypeId) := by
  refine .lift (.build fun table => ?_)
  cases method with
  | vectorPop => exact intern_le _ table
  | _ => exact le_rfl

section

variable {args : List ArgReading} (hargs : ∀ arg ∈ args, arg.check.Settling)

include hargs

lemma builtinMethodCall : SettlingBody (builtinMethodCall method receiver type args span) := by
  refine .ite (.failCall hargs _ _ _) (.ite (.bind .requireMutableThrough ?_) ?_)
  all_goals
    exact .bind .types <| .bind (.mapM fun arg harg => .takeAgainst (hargs arg harg)) <| .map .buildResult

lemma traitMethodCall {method : TraitMethod} :
    SettlingBody (traitMethodCall traitDef method receiver selfType args span) := by
  unfold Check.traitMethodCall
  split
  · exact .failCall hargs _ _ _
  · exact .bind .checkReceiver <| .ite (.failCall hargs _ _ _) (.map (.traitArgs hargs _))

variable (hd : env.demand.Settling) {generics : List TypeReading} (hgenerics : ∀ arg ∈ generics, arg.Settling)

include hd hgenerics

lemma implMethodCall {method : Ident} :
    SettlingBody (implMethodCall env receiver type method generics args expected span) := by
  refine .bind .program fun {_} => ?_
  split
  · exact .failCall hargs _ _ _
  · refine .bind (.lift .referToDef) ?_
    split
    · exact .failCall hargs _ _ _
    · exact .bind .checkReceiver <| .callTo hd hgenerics hargs _ _ _ _ _

/-- A built-in method, one of a bound, or one of an implementation. -/
lemma methodCall {receiver : ExprCheck} (hreceiver : receiver.Settling) (method : Ident) (expected : Option TypeId)
    (span : Span) : SettlingBody (methodCall env receiver method generics args expected span) := by
  refine .bind (.synth hreceiver) <| .bind .program <| .ite (.map (.checkForErrors hargs)) ?_
  dsimp only
  split
  · exact .builtinMethodCall hargs
  · split
    · exact .traitMethodCall hargs
    · exact .failCall hargs _ _ _
  · exact .implMethodCall hargs hd hgenerics

end

end SettlingBody

end Kite.Check
