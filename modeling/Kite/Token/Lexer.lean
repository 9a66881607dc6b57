/-
From text to tokens. Each token takes its first character and as many more as its kind asks for,
so the tokens and the blanks between them make up the text. Invalid text becomes an error token
and a diagnostic, and reading goes on behind it.
-/
import Kite.Diagnostic
import Kite.Text.Quoted
import Kite.Token.Literal

namespace Kite.Lexical

/-! ## What can be wrong -/

inductive Problem where
  | unexpectedCharacter (c : Char)
  | unterminatedString
  | unterminatedChar
  | unterminatedComment
  | invalidStringEscape
  | invalidCharEscape
  | emptyChar
  | longChar
  | invalidSuffix (text : String)
  | missingDigits
  | floatRadix
  | integerSuffixOnFloat
  | integerTooLarge

def Problem.code : Problem → String
  | .unexpectedCharacter _ => "E0001"
  | .unterminatedString | .unterminatedChar => "E0002"
  | .unterminatedComment => "E0003"
  | .invalidStringEscape | .invalidCharEscape => "E0004"
  | .emptyChar | .longChar => "E0005"
  | .invalidSuffix _ | .missingDigits | .floatRadix | .integerSuffixOnFloat => "E0006"
  | .integerTooLarge => "E0007"

def Problem.message : Problem → String
  | .unexpectedCharacter c => s!"unexpected character `{Text.bareChar c}`"
  | .unterminatedString => "unterminated string literal"
  | .unterminatedChar => "unterminated character literal"
  | .unterminatedComment => "unterminated block comment"
  | .invalidStringEscape => "invalid escape sequence in string literal"
  | .invalidCharEscape => "invalid escape sequence in character literal"
  | .emptyChar => "empty character literal"
  | .longChar => "character literal may only contain one character"
  | .invalidSuffix text => s!"invalid suffix `{text}` for number literal"
  | .missingDigits => "missing digits after the integer base prefix"
  | .floatRadix => "float literals must be written in decimal"
  | .integerSuffixOnFloat => "integer suffix on a float literal"
  | .integerTooLarge => "integer literal is too large"

/-- A problem with a part of a token, given by characters counted from the token's first. -/
structure Fault where
  problem : Problem
  first : Nat
  last : Nat

/-- What a token at the head of a text is. It takes the first character and `more` behind it. -/
structure Lexeme where
  kind : TokenKind
  more : Nat
  value : Option Literal := none
  faults : List Fault := []

def Lexeme.invalid (more : Nat) (problem : Problem) : Lexeme :=
  { kind := .error, more, faults := [{ problem, first := 0, last := more + 1 }] }

/-! ## Kinds of tokens -/

/-- The characters a block comment takes after its opening, and whether it is closed. Comments
nest; `depth` of them are open around this one. -/
def readBlockComment (taken depth : Nat) : List Char → Nat × Bool
  | '/' :: '*' :: cs => readBlockComment (taken + 2) (depth + 1) cs
  | '*' :: '/' :: cs =>
    match depth with
    | 0 => (taken + 2, true)
    | depth + 1 => readBlockComment (taken + 2) depth cs
  | _ :: cs => readBlockComment (taken + 1) depth cs
  | [] => (taken, false)

def blockComment (cs : List Char) : Lexeme :=
  match readBlockComment 1 0 (cs.drop 1) with
  | (more, true) => { kind := .blockComment, more }
  | (more, false) => .invalid more .unterminatedComment

def string (cs : List Char) : Lexeme :=
  let body := readQuoted Text.doubleQuote 0 cs
  let faults := body.invalid.map fun (first, last) =>
    { problem := .invalidStringEscape, first := first + 1, last := last + 1 : Fault }
  if !body.closed then
    let open_ := Lexeme.invalid body.length .unterminatedString
    { open_ with faults := faults ++ open_.faults }
  else if !faults.isEmpty then { kind := .error, more := body.length, faults }
  else { kind := .stringLiteral, more := body.length, value := some (.str (String.ofList body.chars)) }

def char (cs : List Char) : Lexeme :=
  let body := readQuoted Text.singleQuote 0 cs
  let faults := body.invalid.map fun (first, last) =>
    { problem := .invalidCharEscape, first := first + 1, last := last + 1 : Fault }
  if !body.closed then
    let open_ := Lexeme.invalid body.length .unterminatedChar
    { open_ with faults := faults ++ open_.faults }
  else if !faults.isEmpty then { kind := .error, more := body.length, faults }
  else match body.chars with
    | [c] => { kind := .charLiteral, more := body.length, value := some (.char c) }
    | [] => .invalid body.length .emptyChar
    | _ => .invalid body.length .longChar

def number (afterDot : Bool) (cs : List Char) : Lexeme :=
  let parts := readNumber afterDot cs
  let more := parts.length - 1
  let suffix := String.ofList parts.suffix
  let intSuffix := IntTy.ofName? suffix
  let floatSuffix := FloatTy.ofName? suffix
  if !parts.suffix.isEmpty && intSuffix.isNone && floatSuffix.isNone then
    .invalid (more + (invalidRun (cs.drop parts.length)).length) (.invalidSuffix suffix)
  else if parts.whole.all (· == '_') then .invalid more .missingDigits
  else if parts.isFloat || floatSuffix.isSome then
    if parts.radix != 10 then .invalid more .floatRadix
    else if intSuffix.isSome then .invalid more .integerSuffixOnFloat
    else { kind := .floatLiteral, more, value := some (.float parts.toDouble floatSuffix) }
  else
    let value := numeral parts.radix parts.whole
    if value < pow2 64 then { kind := .intLiteral, more, value := some (.int value intSuffix) }
    else .invalid more .integerTooLarge

def word (c : Char) (cs : List Char) : Lexeme :=
  let rest := cs.takeWhile isNamePart
  let kind := match keywordTable.lookup (String.ofList (c :: rest)) with
    | some k => .keyword k
    | none => .ident
  { kind, more := rest.length }

def symbol? (cs : List Char) : Option (String × Symbol) :=
  symbolTable.find? fun (text, _) => text.toList.isPrefixOf cs

/-- The token at the head of `c :: cs`, where `c` is no blank. -/
def lexeme (afterDot : Bool) (c : Char) (cs : List Char) : Lexeme :=
  if c == '/' && cs.head? == some '/' then
    { kind := .lineComment, more := (cs.takeWhile (· ≠ '\n')).length }
  else if c == '/' && cs.head? == some '*' then blockComment cs
  else if c == Text.doubleQuote then string cs
  else if c == Text.singleQuote then char cs
  else if c.isDigit then number afterDot (c :: cs)
  else if isNameStart c then word c cs
  else match symbol? (c :: cs) with
    | some (text, s) => { kind := .symbol s, more := text.length - 1 }
    | none => .invalid (invalidRun cs).length (.unexpectedCharacter c)

/-! ## Positions -/

structure Position where
  offset : Nat := 0
  line : Nat := 1
  column : Nat := 1

def Position.step (p : Position) (c : Char) : Position :=
  if c == '\n' then { offset := p.offset + 1, line := p.line + 1, column := 1 }
  else { p with offset := p.offset + c.utf8Size, column := p.column + 1 }

def Position.after (p : Position) (cs : List Char) : Position := cs.foldl Position.step p

def Position.span (p : Position) (file : FileId) (text : List Char) : Span :=
  { file, start := p.offset, stop := (p.after text).offset, line := p.line, column := p.column }

def Fault.diagnostic (file : FileId) (p : Position) (text : List Char) (fault : Fault) : Diagnostic :=
  let start := p.after (text.take fault.first)
  let span := start.span file ((text.take fault.last).drop fault.first)
  Diagnostic.error .lexical fault.problem.code span fault.problem.message

/-! ## The whole text -/

structure Tokens where
  tokens : Array Token := #[]
  diagnostics : Array Diagnostic := #[]

/-- Reads the text that stands at `p`. `afterDot` says whether the last token that was no
comment was a dot. -/
def tokensFrom (file : FileId) (out : Tokens) (afterDot : Bool) (p : Position) : List Char → Tokens
  | [] =>
    let eof : Token := { kind := .eof, span := p.span file [] }
    { out with tokens := out.tokens.push eof }
  | c :: cs =>
    if isBlank c then tokensFrom file out afterDot (p.step c) cs
    else
      let lx := lexeme afterDot c cs
      let text := c :: cs.take lx.more
      let token : Token :=
        { kind := lx.kind, span := p.span file text, text := String.ofList text, value := lx.value }
      let out := { out with
        tokens := out.tokens.push token
        diagnostics := out.diagnostics ++ lx.faults.map (Fault.diagnostic file p text) }
      let afterDot := if lx.kind.isTrivia then afterDot else lx.kind == .symbol .dot
      tokensFrom file out afterDot (p.after text) (cs.drop lx.more)
termination_by cs => cs.length
decreasing_by all_goals (simp only [List.length_drop, List.length_cons]; omega)

end Kite.Lexical

namespace Kite

def lex (file : FileId) (source : String) : Lexical.Tokens := Lexical.tokensFrom file {} false {} source.toList

end Kite
