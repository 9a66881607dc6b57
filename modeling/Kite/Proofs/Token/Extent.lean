/-
Each token is as long as it can be. A symbol is the longest one that the text goes on with; a name or a
keyword is a whole run of the characters of names, whatever stands before it; a comment ends with its line,
or where its delimiters balance.
-/
import Kite.Grammar.Productions
import Kite.Token.Lexer
import Mathlib.Tactic.SplitIfs

namespace Kite

open List

/-- Whether the lexer has nothing to say about a token: it is valid, and has a value if it is a
literal. -/
def Token.isSound (t : Token) : Bool := t.kind != .error && (!Grammar.literalKinds.contains t.kind || t.value.isSome)

lemma Token.isSound_of_kind {t : Token} (h : t.kind ≠ .error) (hliteral : t.kind ∉ Grammar.literalKinds) :
    t.isSound := by
  simp [isSound, h, hliteral]

namespace Lexical

/-! ## Nested comments -/

def opening : List Char := ['/', '*']

def closing : List Char := ['*', '/']

/-- A text cut into the delimiters of comments, read from left to right, and single characters. -/
def pieces : List Char → List (List Char)
  | '/' :: '*' :: cs => opening :: pieces cs
  | '*' :: '/' :: cs => closing :: pieces cs
  | c :: cs => [c] :: pieces cs
  | [] => []

lemma flatten_pieces (cs : List Char) : (pieces cs).flatten = cs := by
  fun_induction pieces cs with
  | case1 cs ih | case2 cs ih | case3 c cs _ _ ih => simp [ih, opening, closing]
  | case4 => rfl

lemma take_pieces (h : pieces cs = ps ++ rest) : cs.take ps.flatten.length = ps.flatten := by
  rw [← flatten_pieces cs, h, flatten_append, take_left]

def Balanced (ps : List (List Char)) : Prop := ps.count opening = ps.count closing

/-- In the pieces, `depth` comments are closed and one more, and that one by the last of them. -/
structure Closes (depth : Nat) (ps : List (List Char)) : Prop where
  last : ps.getLast? = some closing
  balance : ps.count closing = ps.count opening + depth + 1
  first : ∀ q, q <+: ps → q ≠ ps → q.count closing ≤ q.count opening + depth

lemma Closes.cons (h : Closes depth ps) (hp : outer + [p].count opening = depth + [p].count closing) :
    Closes outer (p :: ps) where
  last := by rw [getLast?_cons, h.last]; rfl
  balance := by
    have := h.balance
    rw [← singleton_append, count_append, count_append]
    omega
  first := by
    intro q hq hne
    rcases q with _ | ⟨first, q⟩
    · simp
    · obtain ⟨rfl, hrest⟩ := cons_prefix_cons.1 hq
      have := h.first q hrest fun heq => hne (by rw [heq])
      rw [← singleton_append, count_append, count_append]
      omega

/-- A comment inside of `depth` others takes the pieces up to where all of them are closed. -/
lemma closes_readBlockComment (h : readBlockComment taken depth cs = (n, true)) : ∃ ps rest,
    pieces cs = ps ++ rest ∧ n = taken + ps.flatten.length ∧ Closes depth ps := by
  fun_induction readBlockComment taken depth cs with
  | case1 taken depth cs ih =>
    obtain ⟨ps, rest, hps, rfl, hcloses⟩ := ih h
    exact ⟨opening :: ps, rest, by rw [pieces, hps]; rfl, by simp [opening]; omega, hcloses.cons rfl⟩
  | case2 taken cs =>
    cases h
    refine ⟨[closing], pieces cs, by rw [pieces]; rfl, rfl, rfl, by decide, fun q hq hne => ?_⟩
    rcases q with _ | ⟨p, q⟩
    · decide
    · obtain ⟨rfl, hnil⟩ := cons_prefix_cons.1 hq
      exact absurd (by rw [prefix_nil.1 hnil]) hne
  | case3 taken cs depth ih =>
    obtain ⟨ps, rest, hps, rfl, hcloses⟩ := ih h
    exact ⟨closing :: ps, rest, by rw [pieces, hps]; rfl, by simp [closing]; omega, hcloses.cons rfl⟩
  | case4 taken depth c cs hopen hclose ih =>
    obtain ⟨ps, rest, hps, rfl, hcloses⟩ := ih h
    refine ⟨[c] :: ps, rest, ?_, by simp; omega, hcloses.cons (by simp [opening, closing])⟩
    rw [pieces, hps, cons_append] <;> assumption
  | case5 => cases h

lemma readBlockComment_open (h : readBlockComment taken depth cs = (n, false)) : n = taken + cs.length := by
  fun_induction readBlockComment taken depth cs with
  | case1 taken depth cs ih | case3 taken cs depth ih | case4 taken depth c cs _ _ ih =>
    rw [ih h]
    simp
    omega
  | case2 => cases h
  | case5 => cases h; rfl

/-! ## Where tokens end -/

/-- No run of name characters goes on from one text to the next. -/
def Cut (before after : List Char) : Prop :=
  ∀ c ∈ before.getLast?, ∀ d ∈ after.head?, isNamePart c → isNamePart d = false

variable {before after cs : List Char} {c quote : Char} {lx : Lexeme}

lemma Cut.of_head (h : ∀ d ∈ after.head?, isNamePart d = false) : Cut before after := fun _ _ d hd _ => h d hd

lemma Cut.of_last (h : ∀ d ∈ (c :: cs).getLast?, isNamePart d = false) : Cut (before ++ c :: cs) after := by
  intro d hd _ _ hpart
  rw [getLast?_append, getLast?_cons, Option.some_or, ← getLast?_cons] at hd
  exact absurd hpart (Bool.eq_false_iff.1 (h d hd))

lemma stops_takeWhile (p : Char → Bool) (cs : List Char) : ∀ c ∈ (cs.drop (cs.takeWhile p).length).head?, p c = false := by
  induction cs with
  | nil => simp
  | cons c cs ih =>
    cases h : p c with
    | true => simpa [h] using ih
    | false => simp [h]

lemma isNamePart_of_stop (h : isBlank c || isDelimiter c) : isNamePart c = false := by
  simp only [isBlank, isDelimiter, Bool.or_eq_true, beq_iff_eq, contains_iff_mem, mem_cons, not_mem_nil, or_false] at h
  rcases h with (((rfl | rfl) | rfl) | rfl) | rfl | rfl | rfl | rfl | rfl | rfl | rfl | rfl <;> decide

lemma stops_invalidRun (cs : List Char) : ∀ c ∈ (cs.drop (invalidRun cs).length).head?, isNamePart c = false :=
  fun c hc => isNamePart_of_stop (by simpa only [← Bool.not_or, Bool.not_eq_false'] using stops_takeWhile _ cs c hc)

/-- Quoted text ends with its quote, or else where the line ends. -/
lemma cut_readQuoted (hquote : isNamePart quote = false) (taken : Nat) (cs : List Char) :
    ∃ n, (readQuoted quote taken cs).length = taken + n ∧ ∀ before, Cut (before ++ cs.take n) (cs.drop n) := by
  -- a character, or an escape with `k` more behind it
  have hstep {c : Char} {cs : List Char} {taken k length : Nat} : (∃ n, length = taken + 1 + k + n ∧ ∀ before,
      Cut (before ++ (cs.drop k).take n) ((cs.drop k).drop n)) → ∃ n, length = taken + n ∧
      ∀ before, Cut (before ++ (c :: cs).take n) ((c :: cs).drop n) := by
    rintro ⟨n, rfl, hcut⟩
    refine ⟨k + n + 1, by omega, fun before => ?_⟩
    have h := hcut (before ++ c :: cs.take k)
    rwa [drop_drop, append_assoc, cons_append, ← take_add] at h
  fun_induction readQuoted quote taken cs with
  | case1 => exact ⟨0, rfl, fun _ => .of_head (by simp)⟩
  | case2 taken c cs h => exact ⟨1, rfl, fun _ => .of_last (by simpa [beq_iff_eq.1 h] using hquote)⟩
  | case3 taken c cs _ h =>
    obtain rfl : c = '\n' := by simpa using h
    exact ⟨0, rfl, fun _ => .of_head (by simp; decide)⟩
  | case4 taken c cs _ _ _ k _ _ _ _ ih | case5 taken c cs _ _ _ k _ _ _ ih => exact hstep ih
  | case6 taken c cs _ _ _ _ ih => exact hstep (k := 0) ih

lemma stops_readNumber (afterDot : Bool) (cs : List Char) :
    ∀ c ∈ (cs.drop (readNumber afterDot cs).length).head?, isNamePart c = false := by
  unfold NumberParts.length
  rw [← drop_drop, ← drop_drop, ← drop_drop, ← drop_drop]
  exact stops_takeWhile _ _

lemma digitValue_of_isDigit (h : c.isDigit) : digitValue 10 c = some (c.toNat - '0'.toNat) := by
  have hrange : '0' ≤ c ∧ c ≤ '9' := by simpa [Char.isDigit, Char.le_def] using h
  have hlt : c.toNat - '0'.toNat < 10 := by
    have h9 : c.toNat ≤ '9'.toNat := hrange.2
    have : '9'.toNat = '0'.toNat + 9 := by decide
    omega
  simpa [digitValue, hrange.1, hrange.2, Option.filter] using hlt

lemma length_readNumber (afterDot : Bool) (cs : List Char) (hc : c.isDigit) :
    ∃ n, (readNumber afterDot (c :: cs)).length = n + 1 := by
  have hwhole : (readNumber afterDot (c :: cs)).whole = takeWhile (fun d => isDigitIn (readBase (c :: cs)).1 d || d == '_')
    ((c :: cs).drop (readBase (c :: cs)).2.length) := rfl
  have hbase : (readNumber afterDot (c :: cs)).base = (readBase (c :: cs)).2 := rfl
  refine Nat.exists_eq_add_one.2 ?_
  unfold NumberParts.length
  obtain h | h : (readBase (c :: cs)).2 ≠ [] ∨ readBase (c :: cs) = (10, []) := by unfold readBase; split <;> simp
  · have := length_pos_iff.2 (hbase ▸ h)
    omega
  · have := congrArg length hwhole
    simp [h, isDigitIn, digitValue_of_isDigit hc] at this
    omega

/-- The first symbol of the table that a text begins with is the longest one. -/
lemma symbol?_longest (h : symbol? (c :: cs) = some (text, s)) : (text, s) ∈ symbolTable ∧
    c :: cs.take (text.length - 1) = text.toList ∧
      ∀ entry ∈ symbolTable, entry.1.toList <+: c :: cs → entry.1.length ≤ text.length := by
  obtain ⟨hfound, before, after, htable, hbefore⟩ := find?_eq_some_iff_append.1 h
  have hprefix : text.toList <+: c :: cs := isPrefixOf_iff_prefix.1 hfound
  have hmem : (text, s) ∈ symbolTable := by rw [htable]; simp
  refine ⟨hmem, ?_, fun entry hentry hp => Decidable.byContradiction fun hlt => ?_⟩
  · obtain ⟨n, hn⟩ := Nat.exists_eq_succ_of_ne_zero
      ((by decide : ∀ entry ∈ symbolTable, entry.1.length ≠ 0) _ hmem)
    rw [prefix_iff_eq_take.1 hprefix, String.length_toList, hn]
    rfl
  · have hlonger : text.toList <+: entry.1.toList :=
      prefix_of_prefix_length_le hprefix hp (by rw [String.length_toList, String.length_toList]; omega)
    have hordered : symbolTable.Pairwise fun a b => ¬ a.1.toList <+: b.1.toList := by decide +kernel
    rw [htable] at hentry hordered
    rcases mem_append.1 hentry with hmem | hmem
    · simpa [ isPrefixOf_iff_prefix.2 hp] using hbefore entry hmem
    · rcases mem_cons.1 hmem with rfl | hmem
      · exact hlt (Nat.le_refl _)
      · exact (pairwise_cons.1 (pairwise_append.1 hordered).2.1).1 entry hmem hlonger

/-! ## Every token -/

/-- What a kind of tokens says about the text of a token and the texts around it. -/
structure Maximal (kind : TokenKind) (before text after : List Char) : Prop where
  symbol : ∀ s, kind = .symbol s → (String.ofList text, s) ∈ symbolTable ∧
    ∀ entry ∈ symbolTable, entry.1.toList <+: text ++ after → entry.1.length ≤ text.length
  word : kind = .ident ∨ kind.isKeyword → (∃ c ∈ text.head?, isNameStart c) ∧ (∀ c ∈ text, isNamePart c) ∧
    (∀ c ∈ before.getLast?, isNamePart c = false) ∧ ∀ c ∈ after.head?, isNamePart c = false
  keyword : kind = .ident ∨ kind.isKeyword → ∀ k, kind = .keyword k ↔ (String.ofList text, k) ∈ keywordTable
  lineComment : kind = .lineComment → ['/', '/'] <+: text ∧ '\n' ∉ text ∧ after.head? ∈ [none, some '\n']
  blockComment : kind = .blockComment → ∃ ps rest, pieces (text ++ after) = opening :: ps ++ rest ∧
    text = (opening :: ps).flatten ∧ Balanced (opening :: ps) ∧ ∀ q, q <+: ps → q ≠ ps → ¬ Balanced (opening :: q)

lemma Maximal.of_other (h : kind ∈ .eof :: .error :: Grammar.literalKinds) : Maximal kind before text after := by
  simp only [Grammar.literalKinds, mem_cons, not_mem_nil, or_false] at h
  constructor <;> rcases h with rfl | rfl | rfl | rfl | rfl | rfl <;> simp [TokenKind.isKeyword]

lemma take_takeWhile_length (p : Char → Bool) (cs : List Char) :
    cs.take (cs.takeWhile p).length = cs.takeWhile p := (prefix_iff_eq_take.1 ( takeWhile_prefix p)).symm

lemma mem_keywordTable {k : Keyword} : (text, k) ∈ keywordTable ↔ keywordTable.lookup text = some k := by
  refine ⟨(by decide : ∀ entry ∈ keywordTable, keywordTable.lookup entry.1 = some entry.2) _, fun h => ?_⟩
  obtain ⟨before, after, htable, -⟩ := lookup_eq_some_iff.1 h
  rw [htable]
  simp

lemma maximal_word (hcut : Cut before (c :: cs)) (hc : isNameStart c) :
    Maximal (word c cs).kind before (c :: cs.take (word c cs).more) (cs.drop (word c cs).more) := by
  have hpart : isNamePart c := by simp [isNamePart, hc]
  have hbefore : ∀ d ∈ before.getLast?, isNamePart d = false := fun d hd =>
    Bool.eq_false_iff.2 fun h => Bool.eq_false_iff.1 (hcut d hd c rfl h) hpart
  have htext : cs.take (word c cs).more = cs.takeWhile isNamePart := take_takeWhile_length isNamePart cs
  have hkind : (word c cs).kind = (keywordTable.lookup (String.ofList (c :: cs.takeWhile isNamePart))).elim .ident .keyword := by
    unfold word
    dsimp only
    cases keywordTable.lookup (String.ofList (c :: cs.takeWhile isNamePart)) <;> rfl
  rw [htext, hkind]
  refine ⟨?_, fun _ => ⟨⟨c, rfl, hc⟩, ?_, hbefore, stops_takeWhile _ cs⟩, fun _ k => ?_, ?_, ?_⟩
  · cases keywordTable.lookup _ <;> simp
  · exact forall_mem_cons.2 ⟨hpart, all_eq_true.1 all_takeWhile⟩
  · rw [mem_keywordTable]
    cases keywordTable.lookup _ <;> simp
  all_goals cases keywordTable.lookup _ <;> simp

lemma maximal_lineComment (before cs : List Char) : Maximal .lineComment before
    ('/' :: ('/' :: cs).takeWhile (· ≠ '\n')) (('/' :: cs).drop (('/' :: cs).takeWhile (· ≠ '\n')).length) := by
  refine ⟨nofun, by simp [TokenKind.isKeyword], by simp [TokenKind.isKeyword], fun _ => ⟨by simp, fun hmem => ?_, ?_⟩, nofun⟩
  · simpa using all_eq_true.1 all_takeWhile _ ((mem_cons.1 hmem).resolve_left (by decide))
  · have hstops := stops_takeWhile (fun c => decide (c ≠ '\n')) ('/' :: cs)
    revert hstops
    cases (('/' :: cs).drop (('/' :: cs).takeWhile (· ≠ '\n')).length).head? <;> simp

/-- An invalid token has a fault, and a literal has a value. -/
def Lexeme.Sound (lx : Lexeme) : Prop := lx.faults = [] → ∀ span text, Token.isSound ⟨lx.kind, span, text, lx.value⟩

/-- A token at the head of a text, which stands behind `before`. -/
structure Ends (before : List Char) (c : Char) (cs : List Char) (lx : Lexeme) : Prop where
  cut : Cut (before ++ c :: cs.take lx.more) (cs.drop lx.more)
  maximal : Maximal lx.kind before (c :: cs.take lx.more) (cs.drop lx.more)
  kind : lx.kind ≠ .eof
  sound : lx.Sound

/-- Literals and what is invalid. -/
lemma Ends.of_literal (hkind : lx.kind ∈ .error :: Grammar.literalKinds) (hsound : lx.Sound)
    (hcut : Cut (before ++ c :: cs.take lx.more) (cs.drop lx.more)) : Ends before c cs lx :=
  ⟨hcut, .of_other (.tail _ hkind), fun h => by simp [h, Grammar.literalKinds] at hkind, hsound⟩

lemma ends_quoted (hquote : isNamePart quote = false) (hmore : lx.more = (readQuoted quote 0 cs).length)
    (hkind : lx.kind ∈ .error :: Grammar.literalKinds) (hsound : lx.Sound) : Ends before c cs lx := by
  obtain ⟨n, hn, hcut⟩ := cut_readQuoted hquote 0 cs
  refine .of_literal hkind hsound ?_
  rw [hmore, hn, Nat.zero_add]
  simpa using hcut (before ++ [c])

/-- What is not closed or has invalid escapes ends as a literal does. -/
lemma ends_ite (hquote : isNamePart quote = false) (hrest : Ends before c cs rest) :
    let body := readQuoted quote 0 cs
    Ends before c cs (if !body.closed then { kind := .error, more := body.length, faults := faults ++ [last] }
      else if !faults.isEmpty then { kind := .error, more := body.length, faults } else rest) := by
  dsimp only
  split_ifs with hclosed hfaults
  · exact ends_quoted hquote rfl (.head _) fun h => absurd h (append_ne_nil_of_right_ne_nil _ (cons_ne_nil _ _))
  · exact ends_quoted hquote rfl (.head _) fun h => absurd h (by simpa using hfaults)
  · exact hrest

lemma ends_string : Ends before c cs (string cs) := by
  have hquote : isNamePart Text.doubleQuote = false := by decide
  exact ends_ite hquote (ends_quoted hquote rfl (by simp [Grammar.literalKinds]) fun _ _ _ => rfl)

lemma ends_char : Ends before c cs (char cs) := by
  have hquote : isNamePart Text.singleQuote = false := by decide
  refine ends_ite hquote ?_
  rcases (readQuoted Text.singleQuote 0 cs).chars with _ | ⟨_, _ | _⟩
  · exact ends_quoted hquote rfl (.head _) nofun
  · exact ends_quoted hquote rfl (by simp [Grammar.literalKinds]) fun _ _ _ => rfl
  · exact ends_quoted hquote rfl (.head _) nofun

lemma ends_number (hdigit : c.isDigit) : Ends before c cs (number afterDot (c :: cs)) := by
  obtain ⟨n, hn⟩ := length_readNumber afterDot cs hdigit
  have hstops := stops_readNumber afterDot (c :: cs)
  rw [hn, drop_succ_cons] at hstops
  unfold number
  dsimp only
  rw [hn, Nat.add_sub_cancel]
  split_ifs
  · refine .of_literal (.head _) nofun (.of_head ?_)
    show ∀ d ∈ (cs.drop (n + _)).head?, _
    rw [← drop_drop]
    exact stops_invalidRun _
  all_goals first
    | exact .of_literal (.head _) nofun (.of_head hstops)
    | exact .of_literal (by simp [Grammar.literalKinds]) (fun _ _ _ => rfl) (.of_head hstops)

/-- A block comment ends where it is closed, or else with the text. -/
lemma ends_blockComment (cs : List Char) : Ends before '/' ('*' :: cs) (blockComment ('*' :: cs)) := by
  rw [blockComment, drop_succ_cons, drop_zero]
  split
  · rename_i hread
    obtain ⟨ps, rest, hps, rfl, hcloses⟩ := closes_readBlockComment hread
    have htext : ('*' :: cs).take (1 + ps.flatten.length) = '*' :: ps.flatten := by
      rw [Nat.add_comm, take_succ_cons, take_pieces hps]
    obtain ⟨init, hinit⟩ := getLast?_eq_some_iff.1 hcloses.last
    refine ⟨.of_last fun d hd => ?_, ⟨nofun, by simp [TokenKind.isKeyword], by simp [TokenKind.isKeyword], nofun,
      fun _ => ⟨ps, rest, ?_, ?_, ?_, fun q hq hne => ?_⟩⟩, nofun, fun _ _ _ => rfl⟩
    · rw [htext, hinit] at hd
      obtain rfl : '/' = d := by simpa [closing, getLast?_cons] using hd
      decide
    · rw [cons_append, take_append_drop, pieces, hps, cons_append]
    · rw [htext]
      rfl
    · have := hcloses.balance
      simpa [Balanced, opening, closing, count_cons] using this.symm
    · have := hcloses.first q hq hne
      simp [Balanced, opening, closing] at this ⊢
      omega
  · rename_i hread
    refine .of_literal (.head _) nofun (.of_head ?_)
    simp [Lexeme.invalid, readBlockComment_open hread, Nat.add_comm]

lemma ends_symbol (hsymbol : symbol? (c :: cs) = some (text, s)) :
    Ends before c cs { kind := .symbol s, more := text.length - 1 } := by
  obtain ⟨hmem, htext, hlongest⟩ := symbol?_longest hsymbol
  have hcs : text.toList ++ cs.drop (text.length - 1) = c :: cs := by rw [← htext, cons_append, take_append_drop]
  refine ⟨.of_last ?_, ?_, nofun, fun _ _ _ => rfl⟩
  · rw [htext]
    have htable : symbolTable.all (·.1.toList.all (!isNamePart ·)) := by decide +kernel
    exact fun d hd => by simpa using all_eq_true.1 (all_eq_true.1 htable _ hmem) d (mem_of_getLast? hd)
  · rw [htext]
    refine ⟨fun s' h => ?_, by simp [TokenKind.isKeyword], by simp [TokenKind.isKeyword], nofun, nofun⟩
    cases h
    rw [String.ofList_toList, hcs, String.length_toList]
    exact ⟨hmem, hlongest⟩

lemma ends_word (hcut : Cut before (c :: cs)) (hc : isNameStart c) : Ends before c cs (word c cs) := by
  refine ⟨.of_head (stops_takeWhile _ cs), maximal_word hcut hc, ?_, ?_⟩
  all_goals unfold word; dsimp only; split
  · exact nofun
  · exact nofun
  · exact fun _ _ _ => rfl
  · exact fun _ _ _ => rfl

lemma ends_lexeme (hcut : Cut before (c :: cs)) : Ends before c cs (lexeme afterDot c cs) := by
  unfold lexeme
  split_ifs with hline hblock hdouble hsingle hdigit hname
  · rw [Bool.and_eq_true, beq_iff_eq, beq_iff_eq, head?_eq_some_iff] at hline
    obtain ⟨rfl, cs, rfl⟩ := hline
    refine ⟨.of_head fun d hd => ?_, ?_, nofun, fun _ _ _ => rfl⟩
    · obtain rfl : d = '\n' := by simpa using stops_takeWhile _ _ d hd
      decide
    · dsimp only
      rw [take_takeWhile_length]
      exact maximal_lineComment before cs
  · rw [Bool.and_eq_true, beq_iff_eq, beq_iff_eq, head?_eq_some_iff] at hblock
    obtain ⟨rfl, cs, rfl⟩ := hblock
    exact ends_blockComment cs
  · exact ends_string
  · exact ends_char
  · exact ends_number hdigit
  · exact ends_word hcut hname
  · split
    · exact ends_symbol ‹_›
    · exact .of_literal (.head _) nofun (.of_head (stops_invalidRun cs))

end Lexical

end Kite
