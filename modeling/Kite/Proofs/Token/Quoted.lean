/-
Quoted literals decode exactly: however each character of a string or character literal is spelled,
the literal is one token, and its value is the characters.
-/
import Kite.Proofs.Token.Tiling
import Mathlib.Data.List.Forall2

namespace Kite.Lexical

open List

/-- A hexadecimal digit, in upper or lower case. -/
def hexDigit (d : Bool × Fin 16) : Char := if d.1 then d.2.val.digitChar.toUpper else d.2.val.digitChar

def hexValue (ds : List (Bool × Fin 16)) : Nat := ds.foldl (fun n d => n * 16 + d.2.val) 0

def simpleEscapes : List (Char × Char) :=
  [('n', '\n'), ('r', '\r'), ('t', '\t'), ('0', '\x00'), ('\\', '\\'), ('\x27', '\x27'), ('\x22', '\x22')]

/-- How a character may be written between quotes. -/
inductive Spells (quote c : Char) : List Char → Prop where
  | itself (h : c ≠ '\\' ∧ c ≠ '\n' ∧ c ≠ quote) : Spells quote c [c]
  | simple (h : (e, c) ∈ simpleEscapes) : Spells quote c ('\\' :: [e])
  | byte (a b : Bool × Fin 16) (h : hexValue [a, b] = c.toNat) (hle : c.toNat ≤ 0x7f) :
    Spells quote c ('\\' :: 'x' :: [a, b].map hexDigit)
  | scalar (ds : List (Bool × Fin 16)) (h : hexValue ds = c.toNat) (hlen : 1 ≤ ds.length ∧ ds.length ≤ 6) :
    Spells quote c ('\\' :: 'u' :: '\x7b' :: (ds.map hexDigit ++ ['\x7d']))

variable {quote c : Char} {cs : List Char} {ss : List (List Char)} {d a b : Bool × Fin 16}

lemma digitValue_hexDigit : digitValue 16 (hexDigit d) = some d.2.val :=
  (by decide : ∀ upper value, digitValue 16 (hexDigit (upper, value)) = some value.val) d.1 d.2

lemma numeral_hexDigits (ds : List (Bool × Fin 16)) : numeral 16 (ds.map hexDigit) = hexValue ds := by
  rw [numeral, hexValue, foldl_map]
  simp only [digitValue_hexDigit]

lemma takeWhile_hexDigits (ds : List (Bool × Fin 16)) (rest : List Char) :
    (ds.map hexDigit ++ rest).takeWhile (isDigitIn 16) = ds.map hexDigit ++ rest.takeWhile (isDigitIn 16) :=
  takeWhile_append_of_pos (forall_mem_map.2 fun d _ => by rw [isDigitIn, digitValue_hexDigit, Option.isSome_some])

lemma readEscape_byte (h : hexValue [a, b] = c.toNat) (hle : c.toNat ≤ 0x7f) (rest : List Char) :
    readEscape ('x' :: ([a, b].map hexDigit ++ rest)) = (some c, 3) := by
  have hdigits : (([a, b].map hexDigit ++ rest).take 2).takeWhile (isDigitIn 16) = [a, b].map hexDigit := by
    simpa using takeWhile_hexDigits [a, b] []
  rw [readEscape, hdigits, numeral_hexDigits, h, Char.ofNat_toNat]
  exact if_pos (by simpa using hle)

lemma readEscape_scalar (h : hexValue ds = c.toNat) (hlen : 1 ≤ ds.length ∧ ds.length ≤ 6) (rest : List Char) :
    readEscape ('u' :: '\x7b' :: (ds.map hexDigit ++ '\x7d' :: rest)) = (some c, 3 + ds.length) := by
  have hdigits : (ds.map hexDigit ++ '\x7d' :: rest).takeWhile (isDigitIn 16) = ds.map hexDigit := by
    rw [takeWhile_hexDigits, takeWhile_cons_of_neg (by decide), append_nil]
  rw [readEscape, hdigits, numeral_hexDigits, h, drop_left, Char.ofNat_toNat, length_map, if_pos (by simpa using hlen)]
  exact congrArg (·, _) (if_pos c.valid)

lemma Spells.readQuoted (h : Spells quote c s) (hquote : quote ≠ '\\') (taken : Nat) (rest : List Char) :
    readQuoted quote taken (s ++ rest) =
      { readQuoted quote (taken + s.length) rest with chars := c :: (readQuoted quote (taken + s.length) rest).chars } := by
  have hescape {e : List Char} (h : readEscape (e ++ rest) = (some c, e.length)) :
      Lexical.readQuoted quote taken ('\\' :: (e ++ rest)) =
        { Lexical.readQuoted quote (taken + (e.length + 1)) rest with
          chars := c :: (Lexical.readQuoted quote (taken + (e.length + 1)) rest).chars } := by
    rw [Lexical.readQuoted, if_neg (by simpa using hquote.symm), if_neg (by decide), if_pos (by decide), h]
    dsimp only
    rw [drop_left, Nat.add_right_comm, Nat.add_assoc taken]
  cases h with
  | itself h =>
    rw [cons_append, nil_append, Lexical.readQuoted, if_neg (by simpa using h.2.2), if_neg (by simpa using h.2.1),
      if_neg (by simpa using h.1)]
    rfl
  | @simple e h =>
    refine hescape (e := [e]) ?_
    simp only [simpleEscapes, mem_cons, Prod.mk.injEq, not_mem_nil, or_false] at h
    rcases h with ⟨rfl, rfl⟩ | ⟨rfl, rfl⟩ | ⟨rfl, rfl⟩ | ⟨rfl, rfl⟩ | ⟨rfl, rfl⟩ | ⟨rfl, rfl⟩ | ⟨rfl, rfl⟩ <;> rfl
  | byte a b h hle => exact hescape (readEscape_byte h hle rest)
  | scalar ds h hlen =>
    refine hescape ?_
    rw [cons_append, cons_append, append_assoc, cons_append, nil_append, readEscape_scalar h hlen]
    simp only [length_cons, length_append, length_map, length_nil]
    congr 1
    omega

lemma readQuoted_spelled (hquote : quote ≠ '\\') (h : Forall₂ (Spells quote) cs ss) : ∀ taken,
    readQuoted quote taken (ss.flatten ++ [quote]) =
      { closed := true, length := taken + ss.flatten.length + 1, chars := cs } := by
  induction h with
  | nil =>
    intro taken
    rw [flatten_nil, nil_append, readQuoted, if_pos (beq_self_eq_true quote)]
    rfl
  | cons hs _ ih =>
    intro taken
    rw [flatten_cons, append_assoc, hs.readQuoted hquote, ih, length_append, Nat.add_assoc taken]

/-- The text is one token with a value, and nothing is wrong with it. -/
def ReadsAs (file : FileId) (source : String) (kind : TokenKind) (value : Literal) : Prop :=
  ∃ eof : Token, eof.kind = .eof ∧ lex file source = {
    tokens := #[{ kind, span := { file, start := 0, stop := source.utf8ByteSize, line := 1, column := 1 }, text := source,
                  value := some value }, eof] }

lemma lex_of_lexeme (hblank : isBlank c = false) (h : lexeme false c cs = lx) (hmore : lx.more = cs.length) :
    ∃ eof : Token, eof.kind = .eof ∧ lex file (String.ofList (c :: cs)) = {
      tokens := #[{ kind := lx.kind, text := String.ofList (c :: cs), value := lx.value,
                    span := { file, start := 0, stop := (String.ofList (c :: cs)).utf8ByteSize, line := 1, column := 1 } }, eof]
      diagnostics := (lx.faults.map (Fault.diagnostic file {} (c :: cs))).toArray } := by
  refine ⟨{ kind := .eof, span := (Position.after {} (c :: cs)).span file [] }, rfl, ?_⟩
  have hstop : (Position.after {} (c :: cs)).offset = (String.ofList (c :: cs)).utf8ByteSize := by
    rw [offset_after, ← String.size_toByteArray, String.toByteArray_ofList, size_utf8Encode]
    exact Nat.zero_add _
  rw [lex, String.toList_ofList, tokensFrom, if_neg (by simp [hblank]), h]
  dsimp only
  rw [hmore, take_length, drop_length, tokensFrom, ← hstop]
  simp [Position.span]

lemma readsAs_of_lexeme (hblank : isBlank c = false)
    (h : lexeme false c cs = { kind, more := cs.length, value := some value }) :
    ReadsAs file (String.ofList (c :: cs)) kind value := lex_of_lexeme hblank h rfl

/-- Between double quotes, spelled characters are a string; between single quotes, one is a character. -/
theorem lex_quoted (file : FileId) :
    (∀ cs ss, Forall₂ (Spells Text.doubleQuote) cs ss →
      ReadsAs file (String.ofList (Text.doubleQuote :: (ss.flatten ++ [Text.doubleQuote]))) .stringLiteral
        (.str (String.ofList cs))) ∧
      ∀ c s, Spells Text.singleQuote c s →
        ReadsAs file (String.ofList (Text.singleQuote :: (s ++ [Text.singleQuote]))) .charLiteral (.char c) := by
  refine ⟨fun cs ss h => readsAs_of_lexeme rfl ?_, fun c s h => readsAs_of_lexeme rfl ?_⟩
  · show string _ = _
    rw [string, readQuoted_spelled (by decide) h, length_append]
    simp
  · show char _ = _
    have hread := readQuoted_spelled (by decide) (.cons h .nil) 0
    rw [flatten_cons, flatten_nil, append_nil] at hread
    rw [char, hread, length_append]
    simp

theorem lex_quoted_letters : ReadsAs ⟨0⟩ "\"a\\x4a\"" .stringLiteral (.str "aJ") :=
  (lex_quoted ⟨0⟩).1 ['a', 'J'] _ (.cons (.itself (by decide)) (.cons (.byte (false, 4) (false, 10) rfl (by decide)) .nil))

end Kite.Lexical
