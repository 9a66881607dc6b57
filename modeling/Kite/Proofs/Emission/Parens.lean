/-
A pair of parentheses is taken away only if it encloses the whole of a text. The texts are described by a
grammar: quotes are closed, and the parentheses outside of them come in pairs. What the scanner counts are the
pairs of the grammar that are open.
-/
import Kite.Emission.Parens
import Mathlib.Tactic.Lemma

namespace Kite.Emission

open List Text

/-- What is left of a quoted part, with the quote that closes it. -/
inductive QuoteEnds (q : Char) : List Char → Prop where
  | stop : QuoteEnds q [q]
  | escaped (c : Char) (h : QuoteEnds q cs) : QuoteEnds q ('\\' :: c :: cs)
  | char (hc : c ≠ '\\' ∧ c ≠ q) (h : QuoteEnds q cs) : QuoteEnds q (c :: cs)

/-- Quotes are closed, and the parentheses outside of them are balanced: the one that matches a parenthesis stands
behind the balanced text that follows it. -/
inductive Balanced : List Char → Prop where
  | nil : Balanced []
  | char (hc : c ≠ '(' ∧ c ≠ ')' ∧ c ≠ doubleQuote ∧ c ≠ singleQuote) (h : Balanced cs) : Balanced (c :: cs)
  | quoted (hq : q = doubleQuote ∨ q = singleQuote) (hcs : QuoteEnds q cs) (h : Balanced rest) :
    Balanced (q :: (cs ++ rest))
  | parens (hbody : Balanced body) (h : Balanced rest) : Balanced ('(' :: (body ++ ')' :: rest))

variable {rest body : List Char} {d : Nat}

/-- A character that does not close the outermost pair is passed over. -/
lemma closesEarly_step {s : ParenScan} (hrest : rest ≠ []) (h : s.quote.isSome ∨ c ≠ ')' ∨ 2 ≤ s.depth) :
    closesEarly s (c :: rest) = closesEarly (s.step c) rest := by
  obtain ⟨next, rest, rfl⟩ := exists_cons_of_ne_nil hrest
  rw [closesEarly, Bool.or_eq_right_iff_imp]
  · intro hcloses
    simp only [Bool.and_eq_true, Option.isNone_iff_eq_none, beq_iff_eq] at hcloses
    obtain ⟨⟨hquote, rfl⟩, hdepth⟩ := hcloses
    have hlow : s.depth - 1 = 0 := by simpa [ParenScan.step, hquote, doubleQuote, singleQuote] using hdepth
    simp [hquote] at h
    omega
  · simp

lemma closesEarly_quoted (hq : q ≠ '\\') (hrest : rest ≠ []) (h : QuoteEnds q cs) :
    closesEarly { depth := d, quote := some q } (cs ++ rest) = closesEarly { depth := d } rest := by
  induction h with
  | stop =>
    rw [singleton_append, closesEarly_step hrest (.inl rfl)]
    simp [ParenScan.step, hq]
  | escaped c h ih =>
    rw [cons_append, cons_append, closesEarly_step (by simp) (.inl rfl), closesEarly_step (by simp [hrest]) (.inl rfl)]
    simpa [ParenScan.step] using ih
  | char hc h ih =>
    rw [cons_append, closesEarly_step (by simp [hrest]) (.inl rfl)]
    simpa [ParenScan.step, hc] using ih

/-- Balanced text closes no parenthesis that is open before it. -/
lemma closesEarly_balanced (h : Balanced text) (hrest : rest ≠ []) :
    closesEarly { depth := d + 1 } (text ++ rest) = closesEarly { depth := d + 1 } rest := by
  induction h generalizing d rest with
  | nil => rfl
  | char hc h ih =>
    rw [cons_append, closesEarly_step (by simp [hrest]) (.inr (.inl hc.2.1))]
    simpa [ParenScan.step, hc] using ih hrest
  | @quoted q cs _ hq hcs h ih =>
    have hother : q ≠ '\\' ∧ q ≠ ')' := by rcases hq with rfl | rfl <;> decide
    have hstep : ParenScan.step { depth := d + 1 } q = { depth := d + 1, quote := some q } := by
      simp [ParenScan.step, hq]
    rw [cons_append, append_assoc, closesEarly_step (by simp [hrest]) (.inr (.inl hother.2)), hstep,
      closesEarly_quoted hother.1 (by simp [hrest]) hcs, ih hrest]
  | parens hbody h ihbody ih =>
    -- Inside the pair one more is open, so its end is not that of the outermost.
    rw [cons_append, append_assoc, cons_append, closesEarly_step (by simp) (.inr (.inl (by decide)))]
    refine (ihbody (by simp)).trans ?_
    exact (closesEarly_step (by simp [hrest]) (.inr (.inr (by simp)))).trans (ih hrest)

lemma closesEarly_parens (h : Balanced body) : closesEarly {} ('(' :: (body ++ ')' :: rest)) = !rest.isEmpty := by
  rw [closesEarly_step (by simp) (.inr (.inl (by decide)))]
  refine (closesEarly_balanced h (by simp)).trans ?_
  cases rest <;> rfl

lemma unparenList_balanced (h : Balanced text) :
    (∃ body, Balanced body ∧ text = '(' :: (body ++ [')']) ∧ unparenList text = body) ∨
    (∀ body, Balanced body → text ≠ '(' :: (body ++ [')'])) ∧ unparenList text = text := by
  have hbegins {c : Char} {cs : List Char} (hc : c ≠ '(') : unparenList (c :: cs) = c :: cs := by
    unfold unparenList
    split <;> simp_all
  cases h with
  | nil => exact .inr ⟨fun _ _ => nofun, rfl⟩
  | char hc h => exact .inr ⟨fun _ _ heq => hc.1 (cons.inj heq).1, hbegins hc.1⟩
  | @quoted q _ _ hq hcs h =>
    have hc : q ≠ '(' := by rcases hq with rfl | rfl <;> decide
    exact .inr ⟨fun _ _ heq => hc (cons.inj heq).1, hbegins hc⟩
  | @parens body rest hbody h =>
    have hearly : closesEarly {} ('(' :: (body ++ ')' :: rest)) = !rest.isEmpty := closesEarly_parens hbody
    cases rest with
    | nil => exact .inl ⟨body, hbody, rfl, by simp [unparenList, hearly]⟩
    | cons c rest =>
      -- Read in two ways, the text would end with the pair and go on behind it.
      refine .inr ⟨fun other hother heq => ?_, by simp [unparenList, hearly]⟩
      rw [heq, closesEarly_parens hother] at hearly
      cases hearly

/-- A pair of matching parentheses that encloses the whole of a balanced text is taken away, any other text is left as
it is, and what is left is balanced. -/
theorem unparen_enclosed {text : String} (h : Balanced text.toList) :
    (∀ body, Balanced body → text.toList = '(' :: (body ++ [')']) → (unparen text).toList = body) ∧
    ((∀ body, Balanced body → text.toList ≠ '(' :: (body ++ [')'])) → unparen text = text) ∧
    Balanced (unparen text).toList := by
  rw [unparen, String.toList_ofList]
  rcases unparenList_balanced h with ⟨body, hbody, heq, hresult⟩ | ⟨hother, hresult⟩
  · rw [hresult]
    refine ⟨fun body' _ heq' => ?_, fun hother => absurd heq (hother body hbody), hbody⟩
    simpa [heq] using heq'
  · rw [hresult, String.ofList_toList]
    exact ⟨fun body hbody heq => absurd heq (hother body hbody), fun _ => rfl, h⟩

/-- The closing parenthesis in quotes does not count. -/
theorem unparen_enclosed_quoted :
    Balanced "(f(')'))".toList ∧ Balanced (unparen "(f(')'))").toList ∧ unparen "(f(')'))" = "f(')')" := by
  have hquoted : Balanced "')'".toList := .quoted (.inr rfl) (.char (by decide) .stop) .nil
  have hbody : Balanced "f(')')".toList := .char (by decide) (hquoted.parens .nil)
  have htext : Balanced "(f(')'))".toList := hbody.parens .nil
  have hall := unparen_enclosed htext
  exact ⟨htext, hall.2.2, String.toList_inj.1 (hall.1 _ hbody rfl)⟩

end Kite.Emission
