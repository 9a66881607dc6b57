/-
Tokens tile their text. Whatever the text, its tokens stand in order and apart from each other, each
on whole characters and none of them empty but the end of input; what is left between them is blank,
and the blanks and the tokens together are the text again.

The reader passes over the text once, so the argument is one induction on what is left of it
(`tokensFrom_tiles`): a blank is passed, or a token takes the characters ahead of it. What a tiling
means for bytes and spans is read off the resulting relation.
-/
import Kite.Proofs.Token.Extent

namespace Kite

open List Option SourceFile

variable {c : Char} {a b : List Char} {p : Position} {cs : List Char} {unit : SourceFile}

lemma hasErrors_append : hasErrors (ds ++ es) = (hasErrors ds || hasErrors es) := any_append

/-! ## Cutting text between characters -/

lemma byteLength_append (a b : List Char) : byteLength (a ++ b) = byteLength a + byteLength b := by
  have foldl_add : ∀ cs n, cs.foldl (fun n c => n + c.utf8Size) n = n + byteLength cs := by
    intro cs
    induction cs with
    | nil => intro n; rfl
    | cons c cs ih =>
      intro n
      rw [byteLength, foldl_cons, foldl_cons, ih, ih (0 + c.utf8Size)]
      omega
  rw [byteLength, foldl_append, foldl_add]
  rfl

@[simp] lemma byteLength_nil : byteLength [] = 0 := rfl

@[simp] lemma byteLength_singleton (c : Char) : byteLength [c] = c.utf8Size := by simp [byteLength]

@[simp] lemma byteLength_cons (c : Char) (cs : List Char) : byteLength (c :: cs) = c.utf8Size + byteLength cs := by
  rw [← singleton_append, byteLength_append, byteLength_singleton]

lemma byteLength_pos (h : cs ≠ []) : 0 < byteLength cs := by
  obtain ⟨c, rest, rfl⟩ := exists_cons_of_ne_nil h
  have := c.utf8Size_pos
  rw [byteLength_cons]
  omega

lemma size_utf8Encode : cs.utf8Encode.size = byteLength cs := by
  induction cs with
  | nil => simp
  | cons c cs ih =>
    rw [utf8Encode_cons, ByteArray.size_append, ih, byteLength_cons, utf8Encode_singleton]
    simp

lemma bytes_append (a b : List Char) :
    dropBytes (byteLength a) (a ++ b) = some b ∧ takeBytes (byteLength a) (a ++ b) = some a := by
  induction a with
  | nil => simp [dropBytes, takeBytes]
  | cons c a ih =>
    obtain ⟨n, hn⟩ := Nat.exists_eq_succ_of_ne_zero (Nat.ne_of_gt c.utf8Size_pos)
    have hlen : byteLength (c :: a) = (n + byteLength a) + 1 := by rw [byteLength_cons, hn]; omega
    rw [hlen, cons_append, dropBytes, takeBytes, if_pos (by omega), if_pos (by omega)]
    rw [show n + byteLength a + 1 - c.utf8Size = byteLength a by omega, ih.1, ih.2]
    exact ⟨rfl, rfl⟩

lemma sliceBytes_append {c : List Char} :
    sliceBytes (a ++ (b ++ c)) (byteLength a) (byteLength a + byteLength b) = some b := by
  rw [sliceBytes, if_pos (by omega), (bytes_append ..).1, bind_some, Nat.add_sub_cancel_left,
    (bytes_append ..).2]

/-- Offsets between the characters of a text are those up to which some first characters reach. -/
lemma isValid_of_append {source : String} (h : source.toList = a ++ b) :
    String.Pos.Raw.IsValid source ⟨byteLength a⟩ := by
  rw [String.Pos.Raw.isValid_iff_exists_append]
  refine ⟨String.ofList a, String.ofList b, ?_, ?_⟩
  · rw [← String.ofList_append, ← h, String.ofList_toList]
  · rw [String.Pos.Raw.ext_iff]
    show byteLength a = (String.ofList a).utf8ByteSize
    rw [← String.size_toByteArray, String.toByteArray_ofList, size_utf8Encode]

namespace Lexical

/-! ## The relation -/

/-- The token is `text`, which stands between two texts. -/
structure Stands (t : Token) (before text after : List Char) : Prop where
  start : t.span.start = byteLength before
  stop : t.span.stop = byteLength before + byteLength text
  maximal : Maximal t.kind before text after
  text : t.text = String.ofList text

/-- The tokens are those of the characters behind `before`, and with them go reports: blanks lie between
the tokens, and the last one is the end of input. -/
inductive Tiles : List Char → List Char → List Token → List Diagnostic → Prop where
  | eof {before} {t : Token} : t.kind = .eof → Stands t before [] [] → Tiles before [] [t] []
  | blank {before cs : List Char} {c : Char} {ts : List Token} {ds : List Diagnostic} : isBlank c →
    Tiles (before ++ [c]) cs ts ds → Tiles before (c :: cs) ts ds
  | token {before text cs : List Char} {t : Token} {ts : List Token} {faults ds : List Diagnostic} : t.kind ≠ .eof →
    text ≠ [] → Stands t before text cs → hasErrors faults ∨ t.isSound → Tiles (before ++ text) cs ts ds →
    Tiles before (text ++ cs) (t :: ts) (faults ++ ds)

/-! ## The reader tiles -/

lemma offset_step : (p.step c).offset = p.offset + c.utf8Size := by
  unfold Position.step
  split
  case isTrue hc =>
    rw [beq_iff_eq.1 hc]
    rfl
  case isFalse => rfl

lemma offset_after : (p.after cs).offset = p.offset + byteLength cs := by
  induction cs generalizing p with
  | nil => rfl
  | cons c cs ih =>
    rw [Position.after, foldl_cons, ← Position.after, ih, offset_step, byteLength_cons]
    omega

lemma tokensFrom_tiles (file : FileId) (out : Tokens) (afterDot : Bool) (p : Position) (cs before : List Char)
    (hp : p.offset = byteLength before) (hcut : Cut before cs) : ∃ ts ds,
    (tokensFrom file out afterDot p cs).tokens.toList = out.tokens.toList ++ ts ∧
    (tokensFrom file out afterDot p cs).diagnostics.toList = out.diagnostics.toList ++ ds ∧ Tiles before cs ts ds := by
  fun_induction tokensFrom file out afterDot p cs generalizing before with
  | case1 out afterDot p eof => exact ⟨[eof], [], by simp, by simp, .eof rfl ⟨hp, hp, .of_other (.head _), rfl⟩⟩
  | case2 out afterDot p c cs hblank ih =>
    obtain ⟨ts, ds, hts, hds, htiles⟩ := ih (before ++ [c])
      (by rw [offset_step, hp, byteLength_append, byteLength_singleton])
      (.of_last (by simpa using isNamePart_of_stop (by simp [hblank])))
    exact ⟨ts, ds, hts, hds, .blank hblank htiles⟩
  | case3 out afterDot p c cs hblank lx text token out' afterDot' ih =>
    have hends : Ends before c cs lx := ends_lexeme hcut
    obtain ⟨ts, ds, hts, hds, htiles⟩ := ih (before ++ text) (by rw [offset_after, hp, byteLength_append]) hends.cut
    refine ⟨token :: ts, lx.faults.map (Fault.diagnostic file p text) ++ ds, ?_, ?_, ?_⟩
    · rw [hts]
      simp [out', token]
    · rw [hds]
      simp [out']
    · have hcs : c :: cs = text ++ cs.drop lx.more := by simp only [text, cons_append, take_append_drop]
      have hstands : Stands token before text (cs.drop lx.more) :=
        ⟨hp, by rw [← hp]; exact offset_after, hends.maximal, rfl⟩
      rw [hcs]
      refine .token hends.kind (cons_ne_nil _ _) hstands ?_ htiles
      cases hfaults : lx.faults with
      | nil => exact .inr (hends.sound hfaults _ _)
      | cons fault faults => exact .inl rfl

lemma lex_tiles (file : FileId) (source : String) :
    Tiles [] source.toList (lex file source).tokens.toList (lex file source).diagnostics.toList := by
  obtain ⟨ts, ds, hts, hds, htiles⟩ := tokensFrom_tiles file {} false {} source.toList [] rfl nofun
  rw [lex, hts, hds]
  exact htiles

/-! ## What a tiling is, in bytes -/

namespace Tiles

variable {before : List Char} {ts : List Token} {ds : List Diagnostic}

lemma ends (h : Tiles before cs ts ds) : ∃ body eof, ts = body ++ [eof] ∧ eof.kind = .eof ∧
    eof.span.start = byteLength before + byteLength cs ∧ eof.span.stop = byteLength before + byteLength cs ∧
    ∀ t ∈ body, t.kind ≠ .eof ∧ t.span.start < t.span.stop := by
  induction h with
  | eof hkind hst => exact ⟨[], _, rfl, hkind, hst.start, hst.stop, by simp⟩
  | blank _ _ ih => simpa [byteLength_append, Nat.add_assoc] using ih
  | @token before text cs t ts _ ds hkind hne hst _ _ ih =>
    obtain ⟨body, eof, hts, heof, hstart, hstop, hbody⟩ := ih
    rw [byteLength_append] at hstart hstop ⊢
    refine ⟨t :: body, eof, by rw [hts, cons_append], heof, by omega, by omega, ?_⟩
    have hpos := byteLength_pos hne
    have ht : t.kind ≠ .eof ∧ t.span.start < t.span.stop := ⟨hkind, by rw [hst.start, hst.stop]; omega⟩
    simpa [ht] using hbody

lemma offset_le (h : Tiles before cs ts ds) : ∀ t ∈ ts, byteLength before ≤ t.span.start := by
  induction h with
  | eof _ hst => simpa using Nat.le_of_eq hst.start.symm
  | blank _ _ ih =>
    intro t ht
    have := ih t ht
    rw [byteLength_append] at this
    omega
  | token _ _ hst _ _ ih =>
    rintro u (_ | ⟨_, hu⟩)
    · exact Nat.le_of_eq hst.start.symm
    · have := ih u hu
      rw [byteLength_append] at this
      omega

lemma ordered (h : Tiles before cs ts ds) : ts.Pairwise fun a b => a.span.stop ≤ b.span.start := by
  induction h with
  | eof => simp
  | blank _ _ ih => exact ih
  | token _ _ hst _ hrest ih =>
    refine pairwise_cons.2 ⟨fun t ht => ?_, ih⟩
    rw [hst.stop, ← byteLength_append]
    exact hrest.offset_le t ht

lemma stands (h : Tiles before cs ts ds) :
    ∀ t ∈ ts, ∃ b text a, before ++ cs = b ++ (text ++ a) ∧ Stands t b text a := by
  induction h with
  | @eof before t _ hst =>
    intro u hu
    rw [mem_singleton.1 hu]
    exact ⟨before, [], [], rfl, hst⟩
  | blank _ _ ih => simpa using ih
  | @token before text cs t ts _ _ _ _ hst _ _ ih =>
    rintro u (_ | ⟨_, hu⟩)
    · exact ⟨before, text, cs, rfl, hst⟩
    · simpa using ih u hu

lemma sound (h : Tiles before cs ts ds) : hasErrors ds ∨ ∀ t ∈ ts, t.isSound := by
  induction h with
  | eof hkind _ => exact .inr (by simp [Token.isSound, hkind, Grammar.literalKinds])
  | blank _ _ ih => exact ih
  | token _ _ _ ht _ ih =>
    rw [hasErrors_append, Bool.or_eq_true, forall_mem_cons]
    rcases ht, ih with ⟨ht | ht, hrest | hrest⟩
    · exact .inl (.inl ht)
    · exact .inl (.inl ht)
    · exact .inl (.inr hrest)
    · exact .inr ⟨ht, hrest⟩

/-- The bytes of space, tab, line feed and carriage return. -/
def blankBytes : List UInt8 := [0x20, 0x09, 0x0a, 0x0d]

lemma blank_byte (h : isBlank c) : ∃ b ∈ blankBytes, String.utf8EncodeChar c = [b] := by
  simp only [isBlank, Bool.or_eq_true, beq_iff_eq] at h
  rcases h with ((rfl | rfl) | rfl) | rfl <;> simp [blankBytes, String.utf8EncodeChar]

lemma byte_blank (h : Tiles before cs ts ds) {b : UInt8} (hb : (cs.flatMap String.utf8EncodeChar)[i]? = some b)
    (hfree : ∀ t ∈ ts, ¬(t.span.start ≤ byteLength before + i ∧ byteLength before + i < t.span.stop)) :
    b ∈ blankBytes := by
  have hlen : ∀ text : List Char, (text.flatMap String.utf8EncodeChar).length = byteLength text := by
    intro text
    induction text with
    | nil => rfl
    | cons c text ih => rw [flatMap_cons, length_append, ih, byteLength_cons, String.length_utf8EncodeChar]
  induction h generalizing i with
  | eof => simp at hb
  | @blank before cs c ts ds hc _ ih =>
    obtain ⟨byte, hbyte, hcode⟩ := blank_byte hc
    have hsize : c.utf8Size = 1 := by rw [← String.length_utf8EncodeChar, hcode]; rfl
    rw [flatMap_cons, hcode] at hb
    cases i with
    | zero =>
      cases hb
      exact hbyte
    | succ i =>
      refine ih hb fun t ht => ?_
      rw [byteLength_append, byteLength_singleton, hsize, Nat.add_right_comm]
      exact hfree t ht
  | @token before text cs t ts _ ds _ _ hst _ _ ih =>
    have hout : byteLength text ≤ i := by
      have := hfree t (by simp)
      rw [hst.start, hst.stop] at this
      omega
    rw [flatMap_append, getElem?_append_right (by rw [hlen]; exact hout), hlen] at hb
    refine ih hb fun u hu => ?_
    rw [byteLength_append, show byteLength before + byteLength text + (i - byteLength text) = byteLength before + i by omega]
    exact hfree u (by simp [hu])

end Tiles

end Lexical

/-! ## The text from its pieces -/

/-- A file from a byte on, cut at tokens: what lies before the first token, that token, what lies
between it and the second one, and so on. -/
def SourceFile.pieces (unit : SourceFile) : Nat → List Token → List String
  | _, [] => []
  | start, t :: ts => unit.slice { start, stop := t.span.start } :: unit.slice t.span :: unit.pieces t.span.stop ts

lemma SourceFile.slice_append {a b c : List Char} (span : Span)
    (htext : unit.text.toList = a ++ (b ++ c)) (hstart : span.start = byteLength a)
    (hstop : span.stop = byteLength a + byteLength b) : unit.slice span = String.ofList b := by
  rw [slice, htext, hstart, hstop, sliceBytes_append, getD_some]

lemma SourceFile.slice_gap (htext : unit.text.toList = before ++ gap ++ cs) (hstop : stop = byteLength (before ++ gap)) :
    unit.slice { start := byteLength before, stop } = String.ofList gap :=
  slice_append _ (by rw [htext, append_assoc]) rfl (by rw [hstop, byteLength_append])

open Lexical in
/-- The pieces behind `before`, of which the characters `gap` have been passed over, are the rest of
the text. -/
lemma SourceFile.join_pieces (h : Tiles front cs ts ds) (before gap : List Char) (hfront : front = before ++ gap)
    (htext : unit.text.toList = front ++ cs) :
    String.join (unit.pieces (byteLength before) ts) = String.ofList (gap ++ cs) := by
  induction h generalizing before gap with
  | @eof front t _ hst =>
    obtain rfl := hfront
    have hgap := slice_gap htext hst.start
    have heof := slice_append (c := []) t.span htext hst.start hst.stop
    simp only [pieces, String.join_cons, String.join_nil, hgap, heof]
    simp
  | @blank front cs c ts ds _ _ ih =>
    rw [ih before (gap ++ [c]) (by rw [hfront, append_assoc]) (by simpa using htext), append_assoc, singleton_append]
  | @token front text cs t ts _ ds _ _ hst _ _ ih =>
    obtain rfl := hfront
    have hgap := slice_gap htext hst.start
    have htoken := slice_append t.span htext hst.start hst.stop
    have hrest := ih (before ++ gap ++ text) [] (append_nil _).symm (by simpa using htext)
    rw [pieces, String.join_cons, String.join_cons, hgap, htoken, hst.stop, ← byteLength_append, hrest]
    simp only [String.ofList_append, nil_append]

/-! ## Main statement -/

/-- What it means that tokens tile the text of a file. -/
structure Tiling (unit : SourceFile) (tokens : List Token) : Prop where
  /-- One token is the end of input, and it is the last; all others cover some text. -/
  ends : ∃ body eof, tokens = body ++ [eof] ∧ eof.kind = .eof ∧
    eof.span.start = unit.text.utf8ByteSize ∧ eof.span.stop = unit.text.utf8ByteSize ∧
    ∀ t ∈ body, t.kind ≠ .eof ∧ t.span.start < t.span.stop
  /-- Tokens are in order and do not overlap. -/
  ordered : tokens.Pairwise fun a b => a.span.stop ≤ b.span.start
  /-- Tokens begin and end between characters. -/
  boundaries : ∀ t ∈ tokens, String.Pos.Raw.IsValid unit.text ⟨t.span.start⟩ ∧
    String.Pos.Raw.IsValid unit.text ⟨t.span.stop⟩
  /-- A token carries the text that it covers. -/
  texts : ∀ t ∈ tokens, unit.slice t.span = t.text
  /-- A byte outside of all tokens is blank. -/
  blanks : ∀ i b, unit.text.toByteArray.data[i]? = some b →
    (∀ t ∈ tokens, ¬(t.span.start ≤ i ∧ i < t.span.stop)) → b ∈ Lexical.Tiles.blankBytes
  /-- Nothing is lost. -/
  joined : String.join (unit.pieces 0 tokens) = unit.text

/-- Every text is tiled by its tokens. -/
theorem lex_tiling (file : FileId) (unit : SourceFile) : Tiling unit (lex file unit.text).tokens.toList := by
  have htiles := Lexical.lex_tiles file unit.text
  have hsize : unit.text.utf8ByteSize = byteLength unit.text.toList := by
    rw [← String.size_toByteArray, ← size_utf8Encode, String.utf8Encode_toList]
  refine
    { ends := by simpa [hsize] using htiles.ends
      ordered := htiles.ordered
      boundaries := fun t ht => ?_
      texts := fun t ht => ?_
      blanks := fun i b hb hfree => ?_
      joined := by simpa using SourceFile.join_pieces htiles [] [] rfl rfl }
  · obtain ⟨before, text, after, hcs, hst⟩ := htiles.stands t ht
    rw [hst.start, hst.stop]
    refine ⟨isValid_of_append hcs, ?_⟩
    rw [← byteLength_append]
    exact isValid_of_append (b := after) (hcs.trans (append_assoc ..).symm)
  · obtain ⟨before, text, after, hcs, hst⟩ := htiles.stands t ht
    rw [hst.text]
    exact SourceFile.slice_append t.span hcs hst.start hst.stop
  · refine htiles.byte_blank (i := i) ?_ fun t ht => by simpa using hfree t ht
    rw [← String.utf8Encode_toList] at hb
    simpa [List.utf8Encode] using hb

open Lexical in
/-- Every token of a text is as long as its kind asks for. -/
theorem lex_maximal (file : FileId) (source : String) : ∀ t ∈ (lex file source).tokens, ∃ before text after,
    source.toList = before ++ (text ++ after) ∧ t.span.start = byteLength before ∧ t.text = String.ofList text ∧
      Maximal t.kind before text after := by
  intro t ht
  obtain ⟨before, text, after, hsource, hst⟩ := (lex_tiles file source).stands t (Array.mem_toList_iff.2 ht)
  exact ⟨before, text, after, hsource, hst.start, hst.text, hst.maximal⟩

open Lexical in
theorem lex_maximal_shift : ∃ before text after, "a>>=b".toList = before ++ (text ++ after) ∧ 1 = byteLength before ∧
    ">>=" = String.ofList text ∧ Maximal (.symbol .shrEq) before text after :=
  lex_maximal ⟨0⟩ "a>>=b" { kind := .symbol .shrEq, span := ⟨⟨0⟩, 1, 4, 1, 2⟩, text := ">>=" } (by decide +kernel)

end Kite
