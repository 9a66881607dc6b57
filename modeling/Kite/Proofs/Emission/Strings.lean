/-
What an emitted string literal denotes. The reader here goes by the rules of C++: an escape by number has
as many of three octal digits as follow, and a string ends at its first zero byte unless its length is
given. What is emitted for a string is read back as its bytes.
-/
import Kite.Emission.Literal
import Mathlib.Data.List.TakeWhile
import Mathlib.Tactic.SplitIfs

namespace Kite.Emission

open List

def isOctal (c : Char) : Bool := '0' ≤ c && c ≤ '7'

/-- The escapes by letter. -/
def escapedBytes : List (Char × UInt8) :=
  [('\x27', 0x27), ('\x22', 0x22), ('?', 0x3f), ('\\', 0x5c), ('a', 0x07), ('b', 0x08), ('f', 0x0c), ('n', 0x0a),
   ('r', 0x0d), ('t', 0x09), ('v', 0x0b)]

/-- The bytes that a character of a literal, or the escape that it begins, stands for, and how many of the
characters behind it belong to it. -/
def readElement (c : Char) (cs : List Char) : Option (List UInt8 × Nat) :=
  let digits := (cs.take 3).takeWhile isOctal
  let value := Nat.ofDigitChars 8 digits 0
  if c != '\\' then some (String.utf8EncodeChar c, 0)
  else if digits.isEmpty then (cs.head?.bind (escapedBytes.lookup ·)).map ([·], 1)
  else if value ≤ 0xff then some ([value.toUInt8], digits.length)
  else none

/-- The bytes between an opening quote and the next one, and the text behind that. -/
def readCString : List Char → Option (List UInt8 × List Char)
  | [] => none
  | c :: cs =>
    if c == Text.doubleQuote then some ([], cs)
    else
      match readElement c cs with
      | none => none
      | some (bytes, more) => (readCString (cs.drop more)).map fun read => (bytes ++ read.1, read.2)
termination_by cs => cs.length
decreasing_by all_goals (simp only [length_drop, length_cons]; omega)

/-- The bytes of a string that is made from those of a literal, which a zero byte follows, and from its length if
one is given. -/
def construct (bytes : List UInt8) : List Char → Option (List UInt8)
  | [')'] => some (bytes.takeWhile (· != 0))
  | ',' :: ' ' :: rest =>
    let digits := rest.takeWhile Char.isDigit
    let length := Nat.ofDigitChars 10 digits 0
    if !digits.isEmpty && rest.drop digits.length == [')'] && length ≤ bytes.length + 1 then
      some ((bytes ++ [0]).take length)
    else none
  | _ => none

def denoted? (text : String) : Option (List UInt8) :=
  let start := "std::string(\"".toList
  if start.isPrefixOf text.toList then
    (readCString (text.toList.drop start.length)).bind fun (bytes, rest) => construct bytes rest
  else none

variable {b : UInt8} {c : Char}

lemma readElement_escape (hc : isOctal c = false) (h : escapedBytes.lookup c = some b) (rest : List Char) :
    readElement '\\' (c :: rest) = some ([b], 1) := by
  simp [readElement, hc, h]

lemma readElement_octal (b : UInt8) (rest : List Char) :
    readElement '\\' (octal b.toNat ++ rest) = some ([b], (octal b.toNat).length) := by
  obtain ⟨hall, hvalue⟩ := (by decide +kernel : ∀ n < 256, (octal n).takeWhile isOctal = octal n ∧
    Nat.ofDigitChars 8 (octal n) 0 = n) b.toNat b.toNat_lt
  have hdigits : ((octal b.toNat ++ rest).take 3).takeWhile isOctal = octal b.toNat := hall
  rw [readElement, hdigits, hvalue]
  simp [octal, Nat.le_of_lt_succ b.toNat_lt]

/-- A byte is written as one character, or as one escape. -/
lemma exists_readElement (b : UInt8) : ∃ c cs, stringByte b = c :: cs ∧ c ≠ Text.doubleQuote ∧
    ∀ rest, readElement c (cs ++ rest) = some ([b], cs.length) := by
  unfold stringByte
  split_ifs
  iterate 5
    · rename_i hb
      refine ⟨_, [_], rfl, by decide, fun rest => ?_⟩
      rw [eq_of_beq hb]
      exact readElement_escape (by decide) (by decide) rest
  · obtain ⟨hquote, hslash, hbyte⟩ := (by decide +kernel : ∀ b < 256, (32 ≤ b ∧ b ≤ 126) ∧ b ≠ 34 ∧ b ≠ 92 →
      Char.ofNat b ≠ Text.doubleQuote ∧ Char.ofNat b ≠ '\\' ∧ String.utf8EncodeChar (Char.ofNat b) = [b.toUInt8])
      b.toNat b.toNat_lt (by simp_all [UInt8.le_iff_toNat_le, ← UInt8.toNat_inj])
    refine ⟨_, [], rfl, hquote, fun rest => ?_⟩
    rw [readElement, if_pos (by simpa using hslash), hbyte]
    simp
  · exact ⟨_, _, rfl, by decide, readElement_octal b⟩

lemma readCString_flatMap (rest : List Char) : ∀ bytes : List UInt8,
    readCString (bytes.flatMap stringByte ++ Text.doubleQuote :: rest) = some (bytes, rest)
  | [] => by rw [flatMap_nil, nil_append, readCString, if_pos (beq_self_eq_true _)]
  | b :: bytes => by
    obtain ⟨c, cs, htext, hquote, hread⟩ := exists_readElement b
    rw [flatMap_cons, htext, append_assoc, cons_append, readCString, if_neg (by simpa using hquote), hread]
    dsimp only
    rw [drop_left, readCString_flatMap rest bytes]
    rfl

lemma construct_length (bytes : List UInt8) :
    construct bytes (',' :: ' ' :: (Nat.toDigits 10 bytes.length ++ [')'])) = some bytes := by
  have hdigits : (Nat.toDigits 10 bytes.length ++ [')']).takeWhile Char.isDigit = Nat.toDigits 10 bytes.length := by
    rw [takeWhile_append_of_pos fun c => Nat.isDigit_of_mem_toDigits (by decide) (by decide),
      takeWhile_cons_of_neg (by decide), append_nil]
  rw [construct, hdigits, Nat.ofDigitChars_ten_toDigits, drop_left, if_pos (by simp [Nat.toDigits_ne_nil]), take_left]

/-- What is emitted for a string denotes its bytes. -/
theorem denoted?_stringLiteral (s : String) : denoted? (stringLiteral s) = some s.toUTF8.toList := by
  unfold denoted? stringLiteral
  simp only [String.toList_append, append_assoc, String.toList_ofList]
  rw [if_pos ( isPrefixOf_iff_prefix.2 (prefix_append _ _)), drop_left]
  rw [show "\"".toList = [Text.doubleQuote] from rfl, singleton_append, readCString_flatMap, Option.bind_some]
  split
  · simp [construct_length]
  · rename_i hzero
    refine congrArg some (takeWhile_eq_self_iff.2 fun b hb => bne_iff_ne.2 ?_)
    rintro rfl
    exact hzero (contains_iff_mem.2 hb)

end Kite.Emission
