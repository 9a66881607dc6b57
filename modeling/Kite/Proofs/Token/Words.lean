/-
What tokens say. A word is a token without its place and, for a literal, without its spelling. Names,
decimal integers, symbols and keywords have a plain spelling, and words spelled plainly with a space
between them are read back as those words (`lex_spaced`).
-/
import Kite.Proofs.Token.Tiling

namespace Kite

open List Bool

variable {c : Char} {cs : List Char} {file : FileId} {k : Keyword} {s : Symbol} {w : Word}

/-- What a token says, apart from where it stands and how a literal is spelled. -/
inductive Word where
  | name (text : String)
  | literal (value : Option Literal)
  | fixed (kind : TokenKind)
  deriving DecidableEq

def Token.word (t : Token) : Word :=
  match t.kind with
  | .ident => .name t.text
  | .intLiteral | .floatLiteral | .stringLiteral | .charLiteral => .literal t.value
  | kind => .fixed kind

/-- The words of a text, without comments and the end of input. -/
def wordsOf (file : FileId) (source : String) : List Word :=
  ((lex file source).tokens.toList.filter fun t => !t.kind.isTrivia && t.kind != .eof).map Token.word

/-- A name that is not a keyword. -/
def isName (text : String) : Bool :=
  match text.toList with
  | [] => false
  | c :: cs => Lexical.isNameStart c && cs.all Lexical.isNamePart && (keywordTable.lookup text).isNone

namespace Word

/-- Whether the word has a plain spelling: a name, an integer without suffix that is not too large,
a symbol or a keyword. -/
def isPlain : Word → Bool
  | .name text => isName text
  | .literal (some (.int value none)) => value < pow2 64
  | .fixed (.symbol _) | .fixed (.keyword _) => true
  | _ => false

def text : Word → String
  | .name text => text
  | .literal (some (.int value none)) => toString value
  | .fixed (.symbol s) => s.text
  | .fixed (.keyword k) => k.text
  | _ => ""

end Word

def spaced (words : List Word) : String := " ".intercalate (words.map Word.text)

namespace Lexical

variable {value : Nat}

/-! ## What comes after a word -/

/-- The characters after a word: none, or a space first. -/
inductive Gap : List Char → Prop where
  | stop : Gap []
  | space (rest : List Char) : Gap (' ' :: rest)

variable {rest : List Char}

lemma Gap.takeWhile_append (hgap : Gap rest) {p : Char → Bool} (hp : p ' ' = false)
    (hcs : cs.all p) : (cs ++ rest).takeWhile p = cs := by
  rw [takeWhile_append_of_pos (by simpa using hcs)]
  cases hgap with
  | stop => simp
  | space rest => rw [takeWhile_cons_of_neg (by simp [hp]), append_nil]

lemma Gap.isPrefixOf_append (hgap : Gap rest) : ∀ {text cs : List Char}, ' ' ∉ text →
    text.isPrefixOf (cs ++ rest) = text.isPrefixOf cs
  | [], _, _ => by simp
  | c :: text, [], h => by
    cases hgap with
    | stop => rfl
    | space rest =>
      have hc : (c == ' ') = false := by
        rw [beq_eq_false_iff_ne]
        rintro rfl
        simp at h
      simp [List.isPrefixOf, hc]
  | c :: text, d :: cs, h => by
    have hrest : ' ' ∉ text := fun hmem => h (mem_cons_of_mem c hmem)
    simp only [cons_append, List.isPrefixOf, hgap.isPrefixOf_append hrest]

lemma Gap.head?_append (hgap : Gap rest) (hd : d ≠ ' ') (h : cs.head? ≠ some d) : (cs ++ rest).head? ≠ some d := by
  cases cs with
  | nil =>
    cases hgap with
    | stop => simp
    | space rest => simpa using Ne.symm hd
  | cons c cs => simpa using h

/-! ## Symbols -/

lemma no_space_in_symbols : ∀ entry ∈ symbolTable, ' ' ∉ entry.1.toList := by decide

lemma symbol?_append (hgap : Gap rest) (cs : List Char) : symbol? (cs ++ rest) = symbol? cs := by
  have hcongr : ∀ entry ∈ symbolTable, entry.1.toList.isPrefixOf (cs ++ rest) = entry.1.toList.isPrefixOf cs :=
    fun entry hentry => hgap.isPrefixOf_append (no_space_in_symbols entry hentry)
  unfold symbol?
  revert hcongr
  induction symbolTable with
  | nil => exact fun _ => rfl
  | cons entry table ih =>
    intro hcongr
    rw [find?_cons, find?_cons, ih fun other hother => hcongr other (by simp [hother])]
    dsimp only
    rw [hcongr entry (by simp)]

lemma symbol?_text : symbol? s.text.toList = some (s.text, s) := by cases s <;> rfl

lemma symbol_head : ∃ c cs, s.text.toList = c :: cs ∧ isBlank c = false ∧
    c ≠ Text.doubleQuote ∧ c ≠ Text.singleQuote ∧ c.isDigit = false ∧ isNameStart c = false ∧
    (c = '/' → cs.head? ≠ some '/' ∧ cs.head? ≠ some '*') := by
  cases s <;> exact ⟨_, _, rfl, by decide⟩

/-! ## Numbers -/

lemma foldl_eq_ofDigitChars : ∀ {cs} n,
    (∀ n, ∀ c ∈ cs, f n c = 10 * n + (c.toNat - '0'.toNat)) → cs.foldl f n = Nat.ofDigitChars 10 cs n
  | [], _, _ => rfl
  | c :: cs, n, h => by
    rw [foldl_cons, Nat.ofDigitChars_cons, h n c (by simp), foldl_eq_ofDigitChars _ fun m d hd => h m d (by simp [hd])]

lemma numeral_toDigits : numeral 10 (Nat.toDigits 10 value) = value := by
  calc numeral 10 (Nat.toDigits 10 value) = Nat.ofDigitChars 10 (Nat.toDigits 10 value) 0 := by
        refine foldl_eq_ofDigitChars 0 fun n c hc => ?_
        rw [digitValue_of_isDigit (Nat.isDigit_of_mem_toDigits (by decide) (by decide) hc), Nat.mul_comm]
    _ = value := Nat.ofDigitChars_ten_toDigits

/-- The radixes of numbers, each with the prefix that names it. -/
def radixes : List (Nat × List Char) := [(2, ['0', 'b']), (8, ['0', 'o']), (10, []), (16, ['0', 'x'])]

def suffixText (suffix : Option IntTy) : List Char := (suffix.map (·.name.toList)).getD []

section

variable {base ds : List Char} {radix : Nat} (hgap : Gap rest) (suffix : Option IntTy)
  (hradix : (radix, base) ∈ radixes) (hds : ∀ c ∈ ds, isDigitIn radix c || c == '_')

include hgap

lemma Gap.head?_suffix : (suffixText suffix ++ rest).head? ∈ [none, some ' ', some 'i', some 'u'] := by
  rcases suffix with _ | _ | _ <;> cases hgap <;> simp [suffixText, IntTy.name]

include hradix hds

lemma readBase_append (hne : ds ≠ []) : readBase (base ++ (ds ++ (suffixText suffix ++ rest))) = (radix, base) := by
  rcases hradix with ⟨⟩ | ⟨_, ⟨⟩ | ⟨_, ⟨⟩ | ⟨_, ⟨⟩ | ⟨_, ⟨⟩⟩⟩⟩⟩
  iterate 2
    · rfl
  · obtain ⟨first, ds, rfl⟩ := exists_cons_of_ne_nil hne
    have hsecond : ∀ c ∈ ['x', 'o', 'b'], (ds ++ (suffixText suffix ++ rest)).head? ≠ some c := by
      intro c hc hhead
      cases ds with
      | nil =>
        have hfollows := hhead ▸ hgap.head?_suffix suffix
        rcases hc with ⟨⟩ | ⟨_, ⟨⟩ | ⟨_, ⟨⟩ | ⟨_, ⟨⟩⟩⟩⟩ <;> simp at hfollows
      | cons second ds =>
        have hdigit := hds second (by simp)
        cases hhead
        rcases hc with ⟨⟩ | ⟨_, ⟨⟩ | ⟨_, ⟨⟩ | ⟨_, ⟨⟩⟩⟩⟩ <;> exact absurd hdigit (by decide)
    unfold readBase
    split
    iterate 3
      · rename_i h
        exact absurd (congrArg head? (List.cons.inj h).2) (hsecond _ (by simp))
    · rfl
  · rfl

lemma readNumber_append (hne : ds ≠ []) : readNumber afterDot (base ++ (ds ++ (suffixText suffix ++ rest))) =
    { radix, base, whole := ds, fraction := [], exponent := [], suffix := suffixText suffix } := by
  have hwhole : (ds ++ (suffixText suffix ++ rest)).takeWhile (fun c => isDigitIn radix c || c == '_') = ds := by
    rw [takeWhile_append_of_pos hds]
    rcases suffix with _ | _ | _ <;> cases hgap <;> simp [suffixText, IntTy.name] <;> rfl
  have hnone : readFraction (suffixText suffix ++ rest) = [] ∧ readExponent (suffixText suffix ++ rest) = [] := by
    rcases suffix with _ | _ | _ <;> cases hgap <;> exact ⟨rfl, rfl⟩
  have hsuffix : (suffixText suffix ++ rest).takeWhile isNamePart = suffixText suffix :=
    hgap.takeWhile_append (by decide) (by rcases suffix with _ | _ | _ <;> decide)
  rw [readNumber, readBase_append hgap suffix hradix hds hne]
  dsimp only
  rw [drop_left, hwhole, drop_left]
  simp [hnone, hsuffix]

lemma number_append (hdigit : ∃ c ∈ ds, c ≠ '_') (afterDot : Bool) :
    number afterDot (base ++ (ds ++ (suffixText suffix ++ rest))) =
      let more := (base ++ (ds ++ suffixText suffix)).length - 1
      if numeral radix ds < pow2 64 then
        { kind := .intLiteral, more, value := some (.int (numeral radix ds) suffix) }
      else .invalid more .integerTooLarge := by
  obtain ⟨c, hc, hne⟩ := hdigit
  have hwhole : ds.all (· == '_') = false := all_eq_false.2 ⟨c, hc, by simpa using hne⟩
  have hnames : IntTy.ofName? (String.ofList (suffixText suffix)) = suffix ∧
      FloatTy.ofName? (String.ofList (suffixText suffix)) = none ∧
      (!(suffixText suffix).isEmpty && suffix.isNone) = false := by
    rcases suffix with _ | _ | _ <;> decide
  rw [number, readNumber_append hgap suffix hradix hds (ne_nil_of_mem hc)]
  simp [NumberParts.length, NumberParts.isFloat, hwhole, hnames, Nat.add_assoc]

end

/-! ## Names and keywords -/

lemma lookup_text_keyword : keywordTable.lookup k.text = some k := by cases k <;> rfl

lemma keyword_chars : ∃ c cs, k.text.toList = c :: cs ∧ isNameStart c ∧ cs.all isNamePart := by
  cases k <;> exact ⟨_, _, rfl, by decide⟩

lemma word_append (hgap : Gap rest) {text : String} (htext : text.toList = c :: cs) (hcs : cs.all isNamePart) :
    word c (cs ++ rest) = { kind := (keywordTable.lookup text).elim .ident .keyword, more := cs.length } := by
  unfold word
  rw [hgap.takeWhile_append (by decide) hcs]
  dsimp only
  rw [← htext, String.ofList_toList]
  cases keywordTable.lookup text <;> rfl

lemma isDigit_of_isNameStart (h : isNameStart c) : c.isDigit = false := by
  rcases or_eq_true_iff.1 h with h | h
  · -- letters come after the digits
    have hletter : 65 ≤ c.val.toNat := by
      rcases or_eq_true_iff.1 h with h | h
      · exact UInt32.le_iff_toNat_le.1 (of_decide_eq_true h).1
      · have hlower : 'a'.val ≤ c.val := of_decide_eq_true (and_eq_true_iff.1 h).1
        exact Nat.le_trans (by decide) (UInt32.le_iff_toNat_le.1 hlower)
    rw [Char.isDigit, and_eq_false_iff, decide_eq_false_iff_not, decide_eq_false_iff_not, UInt32.le_iff_toNat_le]
    right
    exact fun hdigit => absurd (Nat.le_trans hletter hdigit) (by decide)
  · rw [beq_iff_eq.1 h]
    decide

lemma lexeme_of_isNamePart (afterDot : Bool) (cs : List Char) (h : isNamePart c) : isBlank c = false ∧
    lexeme afterDot c cs = if c.isDigit then number afterDot (c :: cs) else word c cs := by
  have hne : ∀ d : Char, isNamePart d = false → (c == d) = false := by
    intro d hd
    rw [beq_eq_false_iff_ne]
    rintro rfl
    rw [h] at hd
    cases hd
  constructor
  · simp only [isBlank, hne ' ' (by decide), hne '\t' (by decide), hne '\n' (by decide),
      hne '\r' (by decide), Bool.or_self]
  · unfold lexeme
    simp only [hne '/' (by decide), hne Text.doubleQuote (by decide), hne Text.singleQuote (by decide), Bool.false_and]
    cases hdigit : c.isDigit with
    | true => rfl
    | false =>
      rw [isNamePart, hdigit, Bool.or_false] at h
      simp [h]

lemma lexeme_of_isNameStart (h : isNameStart c) : isBlank c = false ∧ lexeme afterDot c cs = word c cs := by
  have hpart : isNamePart c := by simp [isNamePart, h]
  simpa [isDigit_of_isNameStart h] using lexeme_of_isNamePart afterDot cs hpart

/-! ## Words -/

/-- A token that says a word, with nothing wrong about it. -/
structure Lexeme.Reads (lx : Lexeme) (text : List Char) (w : Word) : Prop where
  more : lx.more + 1 = text.length
  faults : lx.faults = []
  isTrivia : lx.kind.isTrivia = false
  kind : lx.kind ≠ .eof
  word : ∀ span, Token.word ⟨lx.kind, span, String.ofList text, lx.value⟩ = w

/-- In front of the rest, the text stands for a word. -/
def StandsFor (afterDot : Bool) (rest : List Char) (text : String) (w : Word) : Prop :=
  ∃ c cs, text.toList = c :: cs ∧ isBlank c = false ∧ (lexeme afterDot c (cs ++ rest)).Reads (c :: cs) w

lemma lexeme_symbol (hgap : Gap rest) : StandsFor afterDot rest s.text (.fixed (.symbol s)) := by
  obtain ⟨c, cs, htext, hblank, hdouble, hsingle, hdigit, hname, hcomment⟩ := symbol_head
  refine ⟨c, cs, htext, hblank, ?_⟩
  have hfound : symbol? (c :: cs ++ rest) = some (s.text, s) := by rw [symbol?_append hgap, ← htext, symbol?_text]
  have hlexeme : lexeme afterDot c (cs ++ rest) = { kind := .symbol s, more := s.text.length - 1 } := by
    have hline : (c == '/' && (cs ++ rest).head? == some '/') = false := by
      by_cases hc : c = '/'
      · simpa [hc] using hgap.head?_append (by decide) (hcomment hc).1
      · simp [hc]
    have hblock : (c == '/' && (cs ++ rest).head? == some '*') = false := by
      by_cases hc : c = '/'
      · simpa [hc] using hgap.head?_append (by decide) (hcomment hc).2
      · simp [hc]
    rw [cons_append] at hfound
    unfold lexeme
    rw [hline, hblock]
    simp [hdouble, hsingle, hdigit, hname, hfound]
  rw [hlexeme]
  have hlength : s.text.length = cs.length + 1 := by rw [← String.length_toList, htext, length_cons]
  exact ⟨by simp [hlength], rfl, rfl, nofun, fun _ => rfl⟩

lemma lexeme_keyword (hgap : Gap rest) : StandsFor afterDot rest k.text (.fixed (.keyword k)) := by
  obtain ⟨c, cs, htext, hstart, hcs⟩ := keyword_chars
  obtain ⟨hblank, hlexeme⟩ := lexeme_of_isNameStart hstart
  refine ⟨c, cs, htext, hblank, ?_⟩
  rw [hlexeme, word_append hgap htext hcs, lookup_text_keyword]
  exact ⟨rfl, rfl, rfl, nofun, fun _ => rfl⟩

lemma lexeme_name (hgap : Gap rest) (h : isName text) : StandsFor afterDot rest text (.name text) := by
  unfold isName at h
  split at h
  · cases h
  · rename_i c cs htext
    simp only [and_eq_true, Option.isNone_iff_eq_none] at h
    obtain ⟨⟨hstart, hcs⟩, hlookup⟩ := h
    obtain ⟨hblank, hlexeme⟩ := lexeme_of_isNameStart hstart
    refine ⟨c, cs, htext, hblank, ?_⟩
    rw [hlexeme, word_append hgap htext hcs, hlookup]
    refine ⟨rfl, rfl, rfl, by simp, fun _ => ?_⟩
    rw [← htext, String.ofList_toList]
    rfl

lemma lexeme_of_isDigit (h : c.isDigit) : isBlank c = false ∧ lexeme afterDot c cs = number afterDot (c :: cs) := by
  have hpart : isNamePart c := by simp [isNamePart, h]
  simpa [h] using lexeme_of_isNamePart afterDot cs hpart

lemma lexeme_int (hgap : Gap rest) (h : value < pow2 64) :
    StandsFor afterDot rest (toString value) (.literal (some (.int value none))) := by
  have hdigits : ∀ c ∈ Nat.toDigits 10 value, c.isDigit := fun c => Nat.isDigit_of_mem_toDigits (by decide) (by decide)
  have hds : ∀ c ∈ Nat.toDigits 10 value, isDigitIn 10 c || c == '_' := fun c hc => by
    simp [isDigitIn, digitValue_of_isDigit (hdigits c hc)]
  obtain ⟨c, cs, htext⟩ := exists_cons_of_ne_nil (@Nat.toDigits_ne_nil value 10)
  have hfirst : c ∈ Nat.toDigits 10 value := htext ▸ .head _
  obtain ⟨hblank, hlexeme⟩ : _ ∧ lexeme afterDot c (cs ++ rest) = _ := lexeme_of_isDigit (hdigits c hfirst)
  refine ⟨c, cs, by simpa using htext, hblank, ?_⟩
  have hnumber := number_append hgap none (by decide : (10, []) ∈ radixes) hds
    ⟨c, hfirst, by rintro rfl; cases hdigits _ hfirst⟩ afterDot
  rw [numeral_toDigits, htext] at hnumber
  rw [hlexeme, show number afterDot (c :: (cs ++ rest)) = _ from hnumber]
  dsimp only
  rw [if_pos h]
  exact ⟨by simp [suffixText], rfl, rfl, by rintro ⟨⟩, fun _ => rfl⟩

lemma lexeme_plain (hgap : Gap rest) (h : w.isPlain) : StandsFor afterDot rest w.text w := by
  cases w with
  | name text => exact lexeme_name hgap h
  | literal value =>
    match value, h with
    | some (.int value none), h => exact lexeme_int hgap (by simpa [Word.isPlain] using h)
  | fixed kind =>
    match kind, h with
    | .symbol s, _ => exact lexeme_symbol hgap
    | .keyword k, _ => exact lexeme_keyword hgap

/-! ## Texts -/

lemma tokensFrom_plain (hgap : Gap rest) (h : w.isPlain) : ∃ t out' afterDot' p',
    tokensFrom file out afterDot p (w.text.toList ++ rest) = tokensFrom file out' afterDot' p' rest ∧
    out'.tokens.toList = out.tokens.toList ++ [t] ∧ out'.diagnostics = out.diagnostics ∧ t.word = w ∧
    t.kind.isTrivia = false ∧ t.kind ≠ .eof := by
  obtain ⟨c, cs, htext, hblank, hread⟩ := lexeme_plain hgap h
  have hmore : (lexeme afterDot c (cs ++ rest)).more = cs.length := by simpa using hread.more
  rw [htext, cons_append, tokensFrom, if_neg (by simp [hblank])]
  dsimp only
  rw [hmore, take_left' rfl, drop_left' rfl]
  exact ⟨_, _, _, _, rfl, Array.toList_push, by simp [hread.faults], hread.word _, hread.isTrivia, hread.kind⟩

lemma toList_spaced_cons : (spaced (w :: v :: ws)).toList = w.text.toList ++ ' ' :: (spaced (v :: ws)).toList := by
  simp [spaced, String.intercalate_cons_cons]

lemma tokensFrom_spaced : ∀ ws out afterDot p, (∀ w ∈ ws, w.isPlain) → ∃ ts stop,
      (tokensFrom file out afterDot p (spaced ws).toList).tokens.toList = out.tokens.toList ++ ts ++ [stop] ∧
      (tokensFrom file out afterDot p (spaced ws).toList).diagnostics = out.diagnostics ∧
      ts.map Token.word = ws ∧ (∀ t ∈ ts, t.kind.isTrivia = false ∧ t.kind ≠ .eof) ∧ stop.kind = .eof
  | [], out, afterDot, p, _ => by
    refine ⟨[], { kind := .eof, span := p.span file [] }, ?_, ?_, rfl, by simp, rfl⟩
    all_goals simp [spaced, tokensFrom]
  | [w], out, afterDot, p, h => by
    obtain ⟨t, out', afterDot', p', hrun, htokens, hdiags, hword, hkind⟩ := tokensFrom_plain .stop (h w (.head _))
    have htext : (spaced [w]).toList = w.text.toList ++ [] := by simp [spaced]
    refine ⟨[t], { kind := .eof, span := p'.span file [] }, ?_, ?_, by simp [hword], by simpa using hkind, rfl⟩
    all_goals rw [htext, hrun]; simp [tokensFrom, htokens, hdiags]
  | w :: v :: ws, out, afterDot, p, h => by
    obtain ⟨t, out', afterDot', p', hrun, htokens, hdiags, hword, hkind⟩ :=
      tokensFrom_plain (.space (spaced (v :: ws)).toList) (h w (.head _))
    have hspace (cs : List Char) :
        tokensFrom file out' afterDot' p' (' ' :: cs) = tokensFrom file out' afterDot' (p'.step ' ') cs := by
      rw [tokensFrom, if_pos (by decide)]
    obtain ⟨ts, stop, htail, htailDiags, hwords, hkinds, hstop⟩ :=
      tokensFrom_spaced (v :: ws) out' afterDot' (p'.step ' ') fun u hu => h u (mem_cons_of_mem w hu)
    rw [toList_spaced_cons, hrun, hspace]
    refine ⟨t :: ts, stop, ?_, htailDiags.trans hdiags, by simp [hword, hwords], ?_, hstop⟩
    · rw [htail, htokens]
      simp
    · intro u hu
      rcases mem_cons.1 hu with rfl | hu
      · exact hkind
      · exact hkinds u hu

end Lexical

/-- Words spelled plainly, with a space between them, are read back without a report. -/
lemma lex_spaced (file : FileId) (h : ∀ w ∈ ws, w.isPlain) :
    wordsOf file (spaced ws) = ws ∧ (lex file (spaced ws)).diagnostics = #[] := by
  obtain ⟨ts, stop, htokens, hdiags, hwords, hkinds, hstop⟩ := Lexical.tokensFrom_spaced ws {} false {} h
  have htokens : (lex file (spaced ws)).tokens.toList = ts ++ [stop] := by simpa [lex] using htokens
  refine ⟨?_, hdiags⟩
  have hfilter : ts.filter (fun t => !t.kind.isTrivia && t.kind != .eof) = ts :=
    filter_eq_self.2 fun t ht => by simp [hkinds t ht]
  rw [wordsOf, htokens, filter_append, hfilter, filter_cons_of_neg (by simp [hstop])]
  simpa using hwords

/-- The tokens of a text that are no comments: its words and the end of input. -/
lemma lex_words (file : FileId) (source : String) :
    ((lex file source).tokens.toList.filter fun t => !t.kind.isTrivia).map Token.word
      = wordsOf file source ++ [.fixed .eof] := by
  obtain ⟨body, eof, htokens, heof, -, -, hbody⟩ := (Lexical.lex_tiles file source).ends
  have hfilter : body.filter (fun t => !t.kind.isTrivia && t.kind != .eof) = body.filter fun t => !t.kind.isTrivia :=
    filter_congr fun t ht => by simp [(hbody t ht).1]
  have hword : eof.word = .fixed .eof := by simp [Token.word, heof]
  rw [wordsOf, htokens, filter_append, filter_append, hfilter,
    filter_cons_of_pos (by rw [heof]; rfl), filter_cons_of_neg (by simp [heof])]
  simp [hword]

end Kite
