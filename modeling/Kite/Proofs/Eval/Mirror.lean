/-
The same evaluation twice: once over a host that gets what is missing on the way, and once over a
later program alone. As long as nothing spoils the first one, the second one takes the same steps.
What spoils an evaluation is told by a law: a failure, after which the rest does not count, or that a
limit was reached.
-/
import Kite.Proofs.Eval.Host

namespace Kite.Eval

open List Eval Program

variable {σ α β : Type} {x : EvalM σ α} {y : EvalM Unit α} {args : List Value} {n : Nat} {span : Span}
  {body : Typed.Body} {s : σ}

/-! ## Mirrored computations -/

namespace Pairing

/-- The second computation runs alone as the first one does with its host, if the program in the end
is an earlier one of the last and the end is not bad. -/
def Mirrored (w : Pairing σ) (I : σ → Prop) (bad : Machine σ → Option Unwind → Prop) (x : EvalM σ α)
    (y : EvalM Unit α) : Prop :=
  ∀ m, I m.host → (w.env.host.program (x.run m).2.host).Later w.last →
    bad (x.run m).2 (ending (x.run m).1) ∨ y.run m.alone = ((x.run m).1, (x.run m).2.alone)

/-- What makes an end bad, and what the single steps have to do with it. -/
structure Law (w : Pairing σ) (I : σ → Prop) (r : Machine σ → Machine σ → Prop)
    (bad : Machine σ → Option Unwind → Prop) : Prop where
  steps : Runs w.env fun m _ m' => r m m'
  host : ∀ {m m'}, r m m' → I m.host → I m'.host ∧ (w.env.host.program m.host).Later (w.env.host.program m'.host)
  readable : ∀ s, ∃ p, w.seen (w.env.host.program s) p
  reads : ∀ s, I s → (w.env.host.program s).Later w.last → w.seen (w.env.host.program s) (w.env'.host.program ())
  limits : w.env.limits.steps ≤ w.env'.limits.steps
  fails : w.lax → ∀ m failure, bad m (some (.fail failure))
  spent : ∀ m failure, w.env.limits.steps < m.steps →
    w.env.limits.steps = w.env'.limits.steps ∨ bad m (some (.fail failure))
  /-- What goes on after a bad end ends badly. -/
  goesOn : ∀ {m m' e}, bad m none → r m m' → bad m' e
  caught : ∀ {m u e}, (∀ failure, u ≠ .fail failure) → bad m (some u) → bad m e
  isFail : ∀ {m u}, w.strict → bad m (some u) → ∃ failure, u = .fail failure
  replaced : ∀ {m m' u u'}, bad m (some u) → r m m' → (w.strict → ∃ failure, u' = .fail failure) → bad m' (some u')
  returns : ∀ {m e} frame, bad m e → bad (m.leave frame) e
  global : ∀ id span, w.Mirrored I bad (readGlobal w.env id span) (readGlobal w.env' id span)
  call : ∀ decl, (w.strict → w.called decl) → ∀ generics args span,
    w.Mirrored I bad (w.env.invoke decl generics args span) (w.env'.invoke decl generics args span)

namespace Law

variable {w : Pairing σ} {I : σ → Prop} {r : Machine σ → Machine σ → Prop} {bad : Machine σ → Option Unwind → Prop}
  (law : w.Law I r bad)

include law

lemma bind {f : α → EvalM σ β} {g : α → EvalM Unit β} (hsteps : ∀ m, r m (x.run m).2)
    (hx : w.Mirrored I bad x y) (hrest : ∀ a m, r m ((f a).run m).2)
    (hf : ∀ a, w.Mirrored I bad (f a) (g a)) : w.Mirrored I bad (x >>= f) (y >>= g) := by
  intro m hm hlater
  have hx := hx m hm
  have hfirst := hsteps m
  rw [run_bind] at hlater ⊢
  rw [run_bind]
  rcases hrun : x.run m with ⟨result, m'⟩
  rw [hrun] at hx hlater hfirst
  cases result with
  | error u =>
    rcases hx hlater with hbad | hsame
    · exact .inl hbad
    · rw [hsame]
      exact .inr rfl
  | ok a =>
    obtain ⟨hmid, _⟩ := law.host hfirst hm
    rcases hx ((law.host (hrest a m') hmid).2.trans hlater) with hbad | hsame
    · exact .inl (law.goesOn hbad (hrest a m'))
    · rw [hsame]
      exact hf a m' hmid hlater

lemma tick (span : Span) : w.Mirrored I bad (tick w.env.limits span) (tick w.env'.limits span) := by
  intro m _ _
  rw [run_tick, run_tick]
  have hsteps : m.alone.steps = m.steps := rfl
  by_cases hfull : m.steps + 1 < m.steps
  · rw [hsteps, if_pos hfull, if_pos hfull]
    exact .inr rfl
  rw [hsteps, if_neg hfull, if_neg hfull]
  by_cases hover : w.env.limits.steps < m.steps + 1
  · rcases law.spent { m with steps := m.steps + 1 } ⟨.stepLimit w.env.limits.steps, span⟩ hover with hsame | hbad
    · rw [hsame]
      exact .inr rfl
    · rw [if_pos hover]
      exact .inl hbad
  · have hfits := UInt64.le_trans (UInt64.not_lt.1 hover) law.limits
    rw [if_neg hover, if_neg (UInt64.not_lt.2 hfits)]
    exact .inr rfl

lemma loopBody {x : EvalM σ Value} {y : EvalM Unit Value} (hx : w.Mirrored I bad x y) :
    w.Mirrored I bad (loopBody x) (loopBody y) := by
  intro m hm hlater
  rw [run_loopBody] at hlater ⊢
  rw [run_loopBody]
  rcases hx m hm hlater with hbad | hsame
  · refine .inl ?_
    cases hrun : (x.run m).1 with
    | ok _ => simpa [hrun, ending] using hbad
    | error u =>
      rw [hrun] at hbad
      cases u with
      | brk | cont => exact law.caught (fun _ => Unwind.noConfusion) hbad
      | fail _ | ret _ => exact hbad
  · rw [hsame]
    exact .inr rfl

lemma inFrame {x : EvalM σ Value} {y : EvalM Unit Value} (hx : w.Mirrored I bad x y) (frame : Frame) (span : Span) :
    w.Mirrored I bad (inFrame frame x >>= callResult span) (inFrame frame y >>= callResult span) := by
  intro m hm hlater
  have hx := hx (m.enter frame) hm
  rw [run_bind, run_inFrame] at hlater ⊢
  rw [run_bind, run_inFrame]
  rw [run_callResult] at hlater ⊢
  rcases hx hlater with hbad | hsame
  · refine .inl (law.returns m.frame ?_)
    generalize (x.run (m.enter frame)).1 = result at hbad
    cases result with
    | ok _ => exact hbad
    | error u =>
      cases u with
      | fail _ => exact hbad
      | ret _ | brk | cont => exact law.caught (fun _ => Unwind.noConfusion) hbad
  · refine .inr ?_
    have hsame : y.run (m.alone.enter frame) = _ := hsame
    rw [hsame]
    generalize (x.run (m.enter frame)).1 = result
    cases result with
    | ok _ => rfl
    | error u => cases u <;> rfl

lemma repeatRounds {x : EvalM σ Bool} {y : EvalM Unit Bool} (hsteps : ∀ m, r m (x.run m).2)
    (hround : w.Mirrored I bad x y) (hcounting : Counting w.env.limits x)
    (hstuck : ∀ m, r m (stuck.run m).2) : ∀ n n' m, w.env.limits.steps.toNat - m.steps.toNat < n → n ≤ n' →
      I m.host → (w.env.host.program ((repeatRounds x stuck n).run m).2.host).Later w.last →
        bad ((repeatRounds x stuck n).run m).2 (ending ((repeatRounds x stuck n).run m).1) ∨
          (repeatRounds y stuck' n').run m.alone =
            (((repeatRounds x stuck n).run m).1, ((repeatRounds x stuck n).run m).2.alone)
  | 0, _, _, hleft, _, _, _ | n + 1, 0, _, _, hle, _, _ => by omega
  | n + 1, n' + 1, m, hleft, hle, hm, hlater => by
    have hx := hround m hm
    have hfirst := hsteps m
    have hcounts := hcounting m
    rw [Eval.repeatRounds, run_bind] at hlater ⊢
    rw [Eval.repeatRounds, run_bind]
    rcases hrun : x.run m with ⟨result, m'⟩
    rw [hrun] at hx hlater hfirst hcounts
    cases result with
    | error u =>
      rcases hx hlater with hbad | hsame
      · exact .inl hbad
      · rw [hsame]
        exact .inr rfl
    | ok again =>
      cases again with
      | false =>
        rcases hx hlater with hbad | hsame
        · exact .inl hbad
        · rw [hsame]
          exact .inr rfl
      | true =>
        have hrest := law.steps.repeatRounds hsteps hstuck n m'
        obtain ⟨hmid, _⟩ := law.host hfirst hm
        rcases hx ((law.host hrest hmid).2.trans hlater) with hbad | hsame
        · exact .inl (law.goesOn hbad hrest)
        · rw [hsame]
          obtain ⟨hlimit, hless⟩ := hcounts rfl
          have hlimit := UInt64.lt_iff_toNat_lt.1 hlimit
          have hless : m.steps.toNat < m'.steps.toNat := UInt64.lt_iff_toNat_lt.1 hless
          exact repeatRounds hsteps hround hcounting hstuck n n' m' (by omega) (by omega) hmid hlater

/-! ## Blocks -/

structure Part (_ : w.Law I r bad) (x : EvalM σ α) (y : EvalM Unit α) : Prop where
  steps : ∀ m, r m (x.run m).2
  mirrored : w.Mirrored I bad x y

lemma attempt (hx : law.Part x y) {g : Except Unwind α → EvalM Unit β} (hsteps : ∀ result m, r m ((f result).run m).2)
    (hbad : ∀ result m, bad m (ending result) → bad ((f result).run m).2 (ending ((f result).run m).1))
    (hf : ∀ result, w.Mirrored I bad (f result) (g result)) : w.Mirrored I bad (attempt x >>= f)
    (attempt y >>= g) := by
  intro m hm hlater
  have hfirst := hx.steps m
  rw [run_bind, run_attempt] at hlater ⊢
  rw [run_bind, run_attempt]
  obtain ⟨hmid, _⟩ := law.host hfirst hm
  rcases hx.mirrored m hm ((law.host (hsteps _ _) hmid).2.trans hlater) with hspoiled | hsame
  · exact .inl (hbad _ _ hspoiled)
  · rw [hsame]
    exact hf _ _ hmid hlater

variable {deferred : List (EvalM σ Unit × EvalM Unit Unit)} (hdeferred : ∀ d ∈ deferred, law.Part d.1 d.2)

include hdeferred

lemma steps_deferred : ∀ d ∈ deferred.map Prod.fst, ∀ m, r m (d.run m).2 := by
  intro d hd
  obtain ⟨e, he, rfl⟩ := mem_map.1 hd
  exact (hdeferred e he).steps

lemma forM : law.Part ((deferred.map Prod.fst).forM id) ((deferred.map Prod.snd).forM id) := by
  induction deferred with
  | nil => exact ⟨law.steps.refl, fun _ _ _ => .inr rfl⟩
  | cons d ds ih =>
    have ih := ih fun e he => hdeferred e (.tail _ he)
    have hd := hdeferred d (.head _)
    exact ⟨law.steps.bind hd.steps fun _ => ih.steps, law.bind hd.steps hd.mirrored (fun _ => ih.steps) fun _ => ih.mirrored⟩

lemma leave_bad (hquiet : w.strict → ∀ d ∈ deferred, Quiet d.1)
    (hbad : bad m (ending result)) : bad ((leaveBlock result (deferred.map Prod.fst)).run m).2
      (ending ((leaveBlock result (deferred.map Prod.fst)).run m).1) := by
  have hsteps := (law.forM hdeferred).steps m
  have hall : w.strict → Quiet ((deferred.map Prod.fst).forM id) := fun hstrict =>
    quiet_forM fun d hd => by
      obtain ⟨e, he, rfl⟩ := mem_map.1 hd
      exact hquiet hstrict e he
  rw [run_leaveBlock]
  rcases hrun : ExceptT.run ((deferred.map Prod.fst).forM id) m with ⟨ended, m'⟩
  rw [hrun] at hsteps
  cases ended with
  | ok _ =>
    cases result with
    | ok _ => exact law.goesOn hbad hsteps
    | error u => exact law.replaced hbad hsteps fun hstrict => law.isFail hstrict hbad
  | error u =>
    cases result with
    | ok _ => exact law.goesOn hbad hsteps
    | error _ => exact law.replaced hbad hsteps fun hstrict => hall hstrict m u (by rw [hrun])

lemma leave (result : Except Unwind Value) :
    w.Mirrored I bad (leaveBlock result (deferred.map Prod.fst)) (leaveBlock result (deferred.map Prod.snd)) := by
  have hall := law.forM hdeferred
  refine law.bind hall.steps hall.mirrored (fun _ m => ?_) fun _ => ?_
  · cases result <;> exact law.steps.refl m
  · cases result <;> exact fun _ _ _ => .inr rfl

lemma runItems (hquiet : w.strict → ∀ d ∈ deferred, Quiet d.1) {tail : EvalM σ Value} {tail' : EvalM Unit Value}
    (htail : law.Part tail tail') : ∀ (items : List (Bool × EvalM σ Unit × EvalM Unit Unit)),
    (∀ i ∈ items, law.Part i.2.1 i.2.2) → (w.strict → ∀ i ∈ items, i.1 → Quiet i.2.1) →
    w.Mirrored I bad (runItems tail (items.map fun i => (i.1, i.2.1)) (deferred.map Prod.fst))
    (runItems tail' (items.map fun i => (i.1, i.2.2)) (deferred.map Prod.snd)) := by
  intro items
  induction items generalizing deferred with
  | nil =>
    refine fun _ _ => law.attempt htail (fun result m => ?_) (fun result m => law.leave_bad hdeferred hquiet)
      (law.leave hdeferred)
    exact law.steps.leaveBlock (law.steps_deferred hdeferred) (law.steps.refl m)
  | cons i items ih =>
    intro hitems hquiets
    have hi := hitems i (.head _)
    have hrest := fun j hj => hitems j (.tail _ hj)
    have hquiets' := fun hstrict j hj => hquiets hstrict j (.tail _ hj)
    obtain ⟨later, x, y⟩ := i
    cases later with
    | true =>
      exact ih (forall_mem_cons.2 ⟨hi, hdeferred⟩)
        (fun hstrict => forall_mem_cons.2 ⟨hquiets hstrict _ (.head _) rfl, hquiet hstrict⟩) hrest hquiets'
    | false =>
      have hleft := law.steps.runItems htail.steps (items.map fun i => (i.1, i.2.1)) (deferred.map Prod.fst)
        (fun i hi => by
          obtain ⟨j, hj, rfl⟩ := mem_map.1 hi
          exact (hrest j hj).steps) (law.steps_deferred hdeferred)
      refine law.attempt hi (fun result m => ?_) (fun result m hbad => ?_) fun result => ?_
      · cases result with
        | ok _ => exact hleft m
        | error _ => exact law.steps.leaveBlock (law.steps_deferred hdeferred) (law.steps.refl m)
      · cases result with
        | ok _ => exact law.goesOn hbad (hleft m)
        | error _ => exact law.leave_bad hdeferred hquiet hbad
      · cases result with
        | ok _ => exact ih hdeferred hquiet hrest hquiets'
        | error _ => exact law.leave hdeferred _

end Law

end Pairing

/-- As long as nothing is bad, a paired computation runs alone as it does with the host. -/
lemma Paired.mirrored (law : w.Law I r bad) (h : Paired w d j x y) : w.Mirrored I bad x y := by
  have hsteps {α : Type} {x : EvalM σ α} {y : EvalM Unit α} {d j} (h : Paired w d j x y) := h.runs law.steps law.readable
  induction h with
  | pure | fail | change => exact fun _ _ _ => .inr rfl
  | ofFail h error span => exact fun m _ _ => .inl (law.fails h m ⟨error, span⟩)
  | bind first rest ih ih' => exact law.bind (hsteps first) ih (fun a => hsteps (rest a)) ih'
  | look _ ih => exact fun m => ih m m
  | reads hread ih =>
    intro m hm hlater
    obtain ⟨p, hp⟩ := law.readable m.host
    have hlater' := (law.host (hsteps (hread _ p hp) m) hm).2.trans hlater
    exact ih _ _ (law.reads m.host hm hlater') m hm hlater
  | global id span => exact law.global id span
  | tick span => exact law.tick span
  | count n span =>
    intro m hm hlater
    rw [run_bind, run_countSteps] at hlater ⊢
    rw [run_bind, run_countSteps, show m.alone.steps = m.steps from rfl]
    by_cases hfull : m.steps + n < m.steps
    · rw [if_pos hfull, if_pos hfull]
      exact .inr rfl
    · rw [if_neg hfull] at hlater ⊢
      rw [if_neg hfull]
      exact law.tick span { m with steps := m.steps + n } hm hlater
  | jump first span _ ih =>
    refine law.bind (law.steps.tick _) (law.tick span) (fun _ => law.steps.bind (hsteps first) fun _ => law.steps.refl)
      fun _ => law.bind (hsteps first) ih (fun _ => law.steps.refl) fun _ _ _ _ => .inr rfl
  | call h generics args span => exact law.call _ h generics args span
  | loopBody _ ih => exact law.loopBody ih
  | whileTicking round span hcounting ih =>
    refine fun m => law.repeatRounds (hsteps round) ih hcounting (fun _ => ?_) _ _ m ?_ ?_
    · exact law.steps.refl _
    · exact Nat.lt_succ_self _
    · exact Nat.succ_le_succ (Nat.sub_le_sub_right (UInt64.le_iff_toNat_le.1 law.limits) _)
  | block htail items hitems hquiet ihtail ihitems =>
    exact law.runItems (forall_mem_nil _) (fun _ => forall_mem_nil _)
      ⟨hsteps htail, ihtail⟩ items (fun i hi => ⟨hsteps (hitems i hi), ihitems i hi⟩) hquiet
  | mono _ _ ih => exact ih

/-! ## Hosts that get ahead -/

/-- A host whose program only becomes a later one while `I` is kept, and which gives what is in its
program then. -/
structure Host.Lawful (host : Host σ) (I : σ → Prop) : Prop where
  functionBody : ∀ id s, I s →
    I (host.functionBody id s).2 ∧ (host.program s).Later (host.program (host.functionBody id s).2)
  globalValue : ∀ id s, I s →
    I (host.globalValue id s).2 ∧ (host.program s).Later (host.program (host.globalValue id s).2)
  body : ∀ id s body, I s → (host.functionBody id s).1 = some body →
    ((host.program (host.functionBody id s).2).kind id).body? = some body
  constant : ∀ id s v, I s → isMutableStatic ((host.program s).kind id) = false →
    (host.globalValue id s).1 = .ok v → ((host.program (host.globalValue id s).2).kind id).constant? = some v

lemma Host.Lawful.asked {host : Host σ} (law : host.Lawful I)
    (h : host.Asked s s') : I s → I s' ∧ (host.program s).Later (host.program s') := by
  induction h with
  | refl s => exact fun hs => ⟨hs, .refl _⟩
  | trans _ _ h h' =>
    intro hs
    obtain ⟨hmid, hlater⟩ := h hs
    obtain ⟨hend, hlater'⟩ := h' hmid
    exact ⟨hend, hlater.trans hlater'⟩
  | functionBody id s => exact law.functionBody id s
  | globalValue id s => exact law.globalValue id s

/-- The end after which the rest does not count. -/
def Fails (e : Option Unwind) : Prop := ∃ failure, e = some (.fail failure)

/-! ## Calls -/

/-- The part of a call after the signature of the function was read. -/
def callBody (host : Host τ) (limits : EvalLimits) (n : Nat) (decl : DefId) (bindings : Subst)
    (args : List Value) (span : Span) : EvalM τ Value := do
  match ← askHost (host.functionBody decl) with
  | none => fail (.notConstant "a function without a checked body") span
  | some body => callResult span (← inFrame (callFrame body bindings args) (evalExpr (host.env limits n) body.expr))

lemma function?_of_comptime? {p : Program} (h : (p.kind decl).comptime? = some (receiver, declared)) : ∃ f,
    p.function? decl = some f ∧ f.isComptime ∧ f.receiver = receiver ∧ f.generics = declared := by
  unfold kind DefKind.comptime? at h
  unfold function?
  cases hkind : (p.getDef decl).kind with
  | function f =>
    rw [hkind] at h
    dsimp only at h
    split at h
    · cases h
      exact ⟨f, rfl, ‹_›, rfl, rfl⟩
    · cases h
  | _ =>
    rw [hkind] at h
    cases h

section

variable {τ : Type} {host : Host τ} {limits : EvalLimits} {decl : DefId} {m : Machine τ}

lemma run_get_bind (f : Machine τ → EvalM τ α) : (get >>= f : EvalM τ α).run m = (f m).run m := rfl

lemma run_invoke (hcomptime : ((host.program m.host).kind decl).comptime? = some (receiver, declared))
    (hreceiver : (receiver == some .mutable) = false) (hdepth : m.depth < limits.depth) (n : Nat)
    (generics : List TypeId) (args : List Value) (span : Span) : (invoke host limits (n + 1) decl generics args span).run m =
      (callBody host limits n decl (bindings declared generics) args span).run m := by
  obtain ⟨f, hf, hcomp, rfl, rfl⟩ := function?_of_comptime? hcomptime
  rw [invoke, run_get_bind]
  dsimp only
  rw [hf]
  dsimp only
  rw [hcomp, hreceiver]
  show (if limits.depth ≤ m.depth then _ else _ : EvalM τ Value).run m = _
  rw [if_neg (Nat.not_le.2 hdepth)]
  rfl

lemma invoke_fails {generics : List TypeId} :
    Fails (ending ((invoke host limits n decl generics args span).run m).1) ∨ ∃ receiver declared k,
    ((host.program m.host).kind decl).comptime? = some (receiver, declared) ∧ (receiver == some .mutable) = false ∧
    n = k + 1 ∧ m.depth < limits.depth := by
  rw [invoke, run_get_bind]
  dsimp only
  cases hf : (host.program m.host).function? decl with
  | none => exact .inl ⟨_, rfl⟩
  | some f =>
    dsimp only
    cases hcomp : f.isComptime with
    | false => exact .inl ⟨_, rfl⟩
    | true =>
      cases hreceiver : f.receiver == some .mutable with
      | true => exact .inl ⟨_, rfl⟩
      | false =>
        show Fails (ending ((if limits.depth ≤ m.depth then _ else _ : EvalM τ Value).run m).1) ∨ _
        by_cases hdepth : limits.depth ≤ m.depth
        · rw [if_pos hdepth]
          exact .inl ⟨_, rfl⟩
        rw [if_neg hdepth]
        cases n with
        | zero => exact .inl ⟨_, rfl⟩
        | succ k =>
          refine .inr ⟨f.receiver, f.generics, k, ?_, hreceiver, rfl, Nat.not_le.1 hdepth⟩
          have hkind : (host.program m.host).kind decl = .function f := by
            unfold function? at hf
            unfold kind
            cases hdecl : ((host.program m.host).getDef decl).kind <;> rw [hdecl] at hf <;> cases hf
            rfl
          rw [hkind]
          exact if_pos hcomp

lemma run_callBody (h : (host.functionBody decl m.host).1 = some body) :
    (callBody host limits n decl b args span).run m =
      (inFrame (callFrame body b args) (evalExpr (host.env limits n) body.expr) >>=
        callResult span).run { m with host := (host.functionBody decl m.host).2 } := by
  show (match (host.functionBody decl m.host).1 with
    | none => _
    | some body => _ : EvalM τ Value).run _ = _
  rw [h]

lemma callBody_fails (h : (host.functionBody decl m.host).1 = none) :
    Fails (ending ((callBody host limits n decl b args span).run m).1) := by
  show Fails (ending ((match (host.functionBody decl m.host).1 with
    | none => _
    | some body => _ : EvalM τ Value).run _).1)
  rw [h]
  exact ⟨_, rfl⟩

end

lemma steady_of_steadyCalls (h : q.steadyCalls) {s : Option Receiver × List Generic}
    (hcomptime : (q.kind decl).comptime? = some s) (hbody : (q.kind decl).body? = some body) : body.expr.steady q := by
  unfold kind getDef at hcomptime hbody
  rw [Array.getD_eq_getD_getElem?] at hcomptime hbody
  cases hdef : q.defs[decl.index]? with
  | none =>
    rw [hdef] at hbody
    cases hbody
  | some d =>
    rw [hdef] at hcomptime hbody
    have hcomptime : d.kind.comptime? = some s := hcomptime
    have hbody : d.kind.body? = some body := hbody
    have hall := all_eq_true.1 h d (Array.mem_toList_iff.2 (Array.mem_of_getElem? hdef))
    cases hkind : d.kind with
    | function f =>
      rw [hkind] at hcomptime hbody hall
      have hbody : f.body = some body := hbody
      unfold DefKind.comptime? at hcomptime
      cases hcomp : f.isComptime with
      | false => simp [hcomp] at hcomptime
      | true => simpa [hcomp, hbody] using hall
    | _ =>
      rw [hkind] at hbody
      cases hbody

/-- An evaluation over a host beside the one over a later program. -/
def Host.ahead (host : Host σ) (limits : EvalLimits) (q : Program) (n : Nat) : Pairing σ where
  env := host.env limits n
  env' := (Host.stored q).env limits n
  seen p p' := p' = p ∨ (p.Later q ∧ p' = q)
  lax := True
  last := q
  strict := True
  deferred _ := True
  called _ := True

variable {host : Host σ} {I : σ → Prop} {q : Program} (law : host.Lawful I) (limits : EvalLimits)

lemma Host.fit_ahead : (host.ahead limits q n).Fit :=
  ⟨fun _ _ h => h.imp_right fun h => ⟨trivial, h⟩, fun h => absurd trivial h, fun h => absurd trivial h,
    fun _ _ => trivial, host.fit_env.counts, fun _ => ⟨_, .inl rfl⟩⟩

lemma Host.paired_ahead (host : Host σ) {e : Typed.Expr} (h : e.steady q) :
    Paired (host.ahead limits q n) 0 e.escapes (evalExpr (host.env limits n) e) (evalExpr ((Host.stored q).env limits n) e) :=
  paired_evalExpr (Host.fit_ahead limits) e ⟨fun _ => h, fun h => absurd trivial h⟩

include law

lemma mirrored_readGlobal (n : Nat) (id : DefId) (span : Span) : (host.ahead limits q n).Mirrored I (fun _ => Fails)
    (readGlobal (host.env limits n) id span) (readGlobal ((Host.stored q).env limits n) id span) := by
  intro m hm hlater
  have hrun : (readGlobal (host.env limits n) id span).run m = (if isMutableStatic ((host.program m.host).kind id) then
      fail (.notConstant "a mutable static") span
    else askHost (host.globalValue id) >>= orFail span : EvalM σ Value).run m := rfl
  rw [hrun] at hlater ⊢
  cases hmut : isMutableStatic ((host.program m.host).kind id) with
  | true => exact .inl ⟨_, rfl⟩
  | false =>
    rw [hmut] at hlater
    have hask : (askHost (host.globalValue id) >>= orFail span : EvalM σ Value).run m =
        (orFail span (host.globalValue id m.host).1).run { m with host := (host.globalValue id m.host).2 } := rfl
    simp only [Bool.false_eq_true, if_false, hask] at hlater ⊢
    cases hvalue : (host.globalValue id m.host).1 with
    | error e => exact .inl ⟨_, rfl⟩
    | ok v =>
      rw [hvalue] at hlater
      have hlater : (host.program (host.globalValue id m.host).2).Later q := hlater
      obtain ⟨hconst, hstored⟩ :=
        global?_of_constant? ((hlater.kind id).constant v (law.constant id m.host v hm hmut hvalue))
      refine .inr ?_
      have halone : (readGlobal ((Host.stored q).env limits n) id span).run m.alone = (if isMutableStatic (q.kind id) then
          fail (.notConstant "a mutable static") span
        else orFail span ((Host.stored q).globalValue id ()).1 : EvalM Unit Value).run m.alone := rfl
      have hanswer : ((Host.stored q).globalValue id ()).1 = .ok v := by
        unfold Host.stored
        dsimp only
        rw [hstored]
        rfl
      rw [halone, hconst, hanswer]
      rfl

lemma law_ahead (hcalls : ∀ decl generics args span, (host.ahead limits q n).Mirrored I (fun _ => Fails)
    (invoke host limits n decl generics args span) (invoke (.stored q) limits n decl generics args span)) :
    (host.ahead limits q n).Law I (fun m m' => host.Asked m.host m'.host) (fun _ => Fails) where
  steps := host.steps_asked.env limits n
  host h := law.asked h
  readable _ := ⟨_, .inl rfl⟩
  reads _ _ h := .inr ⟨h, rfl⟩
  limits := Nat.le_refl _
  fails _ _ failure := ⟨failure, rfl⟩
  spent _ _ _ := .inl rfl
  goesOn h _ := by obtain ⟨_, h⟩ := h; cases h
  caught hu h := by obtain ⟨failure, h⟩ := h; exact absurd (Option.some.inj h) (hu failure)
  isFail _ h := by obtain ⟨failure, h⟩ := h; exact ⟨failure, Option.some.inj h⟩
  replaced _ _ h := by obtain ⟨failure, h⟩ := h trivial; exact ⟨failure, congrArg some h⟩
  returns _ h := h
  global := mirrored_readGlobal law limits n
  call decl _ := hcalls decl

lemma mirrored_invoke (hcalls : q.steadyCalls) :
    ∀ n decl generics args span,
      (host.ahead limits q n).Mirrored I (fun _ => Fails) (invoke host limits n decl generics args span)
        (invoke (.stored q) limits n decl generics args span)
  | 0, decl, generics, args, span => fun m _ _ => .inl (invoke_fails.resolve_right fun ⟨_, _, _, _, _, h, _⟩ => by cases h)
  | n + 1, decl, generics, args, span => by
    intro m hm hlater
    have hp := (law.asked (steps_invoke (n + 1) host.steps_asked decl generics args span m) hm).2.trans hlater
    rcases invoke_fails with hfails | ⟨receiver, declared, k, hcomptime, hreceiver, hk, hdepth⟩
    · exact .inl hfails
    rw [run_invoke hcomptime hreceiver hdepth] at hlater ⊢
    rw [run_invoke ((hp.kind decl).comptime _ hcomptime) hreceiver (show m.alone.depth < limits.depth from hdepth)]
    obtain ⟨hnext, hmore⟩ := law.functionBody decl m.host hm
    cases hbody : (host.functionBody decl m.host).1 with
    | none => exact .inl (callBody_fails hbody)
    | some body =>
      have hlaw := law_ahead law limits (mirrored_invoke hcalls n)
      rw [run_callBody hbody] at hlater ⊢
      -- What the function is when its body is there, it is in the later program.
      have hsteps := host.steps_asked.inFrame (host.steps_asked.evalExpr limits n body.expr)
      have hlast := (law.asked (hsteps _ span { m with host := (host.functionBody decl m.host).2 }) hnext).2.trans hlater
      have hcomptime' := (hmore.kind decl).comptime _ hcomptime
      have hstored := (hlast.kind decl).body _ body hcomptime' (law.body decl m.host body hm hbody)
      have hsteady := steady_of_steadyCalls hcalls ((hlast.kind decl).comptime _ hcomptime') hstored
      have hgiven : ((Host.stored q).functionBody decl m.alone.host).1 = some body := by
        rw [← hstored]
        exact q.body?_eq decl
      rw [run_callBody hgiven]
      exact hlaw.inFrame ((host.paired_ahead limits hsteady).mirrored hlaw) _ span
        { m with host := (host.functionBody decl m.host).2 } hnext hlater

omit law

def answer (span : Span) : Except Unwind Value → Except EvalFailure Value
  | .ok v | .error (.ret v) => .ok v
  | .error (.fail failure) => .error failure
  | .error .brk | .error .cont => .error { error := .notConstant "`break` outside a loop", span }

lemma answer_of_ending {failure : EvalFailure}
    (h : ending result = some (.fail failure)) : answer span result = .error failure := by
  cases result with
  | ok _ => cases h
  | error u =>
    cases h
    rfl

lemma evaluate_eq (host : Host τ) (limits : EvalLimits) (expr : Typed.Expr) (locals : Nat) (s : τ) :
    let stop := (evalExpr (host.env limits limits.depth) expr).run { frame := .ofSize locals [], steps := 0, host := s }
    evaluate host limits expr locals s = (answer expr.span stop.1, stop.2.host) := rfl

/-- An evaluation that gives a value gives the same one over any later program, if that is steady. -/
lemma evaluate_stored (law : host.Lawful I) {limits : EvalLimits} {expr : Typed.Expr}
    (hs : I s) (hrun : evaluate host limits expr locals s = (.ok v, s')) (hlater : (host.program s').Later q)
    (hcalls : q.steadyCalls) (hexpr : expr.steady q) : (evaluate (.stored q) limits expr locals ()).1 = .ok v := by
  have hmirror := (host.paired_ahead limits hexpr).mirrored
    (law_ahead law limits (mirrored_invoke law limits hcalls limits.depth))
    { frame := .ofSize locals [], steps := 0, host := s } hs
  obtain ⟨hanswer, rfl⟩ := Prod.mk.inj hrun
  rcases hmirror hlater with ⟨failure, hfails⟩ | hsame
  · cases (answer_of_ending hfails).symm.trans hanswer
  · rw [← hanswer]
    exact congrArg (fun stop : Except Unwind Value × Machine Unit => answer expr.span stop.1) hsame

end Kite.Eval
