/-
Tokens: keywords, symbols, names and literals. The tables of keywords and symbols are the only
place where their spelling is written down.
-/
import Kite.Number.Double
import Kite.Source.Span

namespace Kite

inductive Keyword where
  | kwAs | kwAssert | kwBreak | kwClass | kwComptime | kwConst | kwContinue | kwDefer | kwElse
  | kwEnum | kwExternal | kwFalse | kwFor | kwFunction | kwIf | kwImpl | kwImport | kwIn | kwLet
  | kwLoop | kwMatch | kwMut | kwNone | kwRaw | kwReturn | kwSome | kwStatic | kwStruct | kwThis
  | kwTrait | kwTrue | kwUnchecked | kwWhile
  deriving DecidableEq, Inhabited

inductive Symbol where
  | lparen | rparen | lbrace | rbrace | lbracket | rbracket
  | comma | semi | colon | colonColon | dot | dotDot | dotDotEq | arrow | fatArrow | question
  | plus | minus | star | slash | percent | amp | pipe | caret | tilde | bang | eq | lt | gt
  | plusEq | minusEq | starEq | slashEq | percentEq | ampEq | pipeEq | caretEq | shlEq | shrEq
  | shl | shr | eqEq | bangEq | ltEq | gtEq | ampAmp | pipePipe
  deriving DecidableEq, Inhabited

inductive TokenKind where
  | eof
  /-- Text that is no token; a diagnostic says why. -/
  | error
  | lineComment
  | blockComment
  | ident
  | intLiteral
  | floatLiteral
  | stringLiteral
  | charLiteral
  | symbol (s : Symbol)
  | keyword (k : Keyword)
  deriving DecidableEq, Inhabited

/-! ## Spelling -/

/-- Symbols by their text, longer ones before those they begin with. -/
def symbolTable : List (String × Symbol) :=
  [("<<=", .shlEq), (">>=", .shrEq), ("..=", .dotDotEq), ("::", .colonColon), ("->", .arrow),
   ("=>", .fatArrow), ("==", .eqEq), ("!=", .bangEq), ("<=", .ltEq), (">=", .gtEq),
   ("&&", .ampAmp), ("||", .pipePipe), ("<<", .shl), (">>", .shr), ("+=", .plusEq),
   ("-=", .minusEq), ("*=", .starEq), ("/=", .slashEq), ("%=", .percentEq), ("&=", .ampEq),
   ("|=", .pipeEq), ("^=", .caretEq), ("..", .dotDot), ("(", .lparen), (")", .rparen),
   ("\x7b", .lbrace), ("\x7d", .rbrace), ("[", .lbracket), ("]", .rbracket), (",", .comma),
   (";", .semi), (":", .colon), (".", .dot), ("?", .question), ("+", .plus), ("-", .minus),
   ("*", .star), ("/", .slash), ("%", .percent), ("&", .amp), ("|", .pipe), ("^", .caret),
   ("~", .tilde), ("!", .bang), ("=", .eq), ("<", .lt), (">", .gt)]

def keywordTable : List (String × Keyword) :=
  [("as", .kwAs), ("assert", .kwAssert), ("break", .kwBreak), ("class", .kwClass),
   ("comptime", .kwComptime), ("const", .kwConst), ("continue", .kwContinue),
   ("defer", .kwDefer), ("else", .kwElse), ("enum", .kwEnum), ("extern", .kwExternal),
   ("false", .kwFalse), ("for", .kwFor), ("function", .kwFunction), ("if", .kwIf),
   ("impl", .kwImpl), ("import", .kwImport), ("in", .kwIn), ("let", .kwLet), ("loop", .kwLoop),
   ("match", .kwMatch), ("mut", .kwMut), ("none", .kwNone), ("raw", .kwRaw),
   ("return", .kwReturn), ("some", .kwSome), ("static", .kwStatic), ("struct", .kwStruct),
   ("this", .kwThis), ("trait", .kwTrait), ("true", .kwTrue), ("unsafe", .kwUnchecked),
   ("while", .kwWhile)]

def spelling [DecidableEq α] (table : List (String × α)) (entry : α) : String :=
  ((table.find? (·.2 == entry)).map (·.1)).getD ""

def Keyword.text (k : Keyword) : String := spelling keywordTable k

def Symbol.text (s : Symbol) : String := spelling symbolTable s

namespace TokenKind

/-- Comments, which the grammar does not see. -/
def isTrivia : TokenKind → Bool
  | .lineComment | .blockComment => true
  | _ => false

def isKeyword : TokenKind → Bool
  | .keyword _ => true
  | _ => false

def describe : TokenKind → String
  | .keyword k => k.text
  | .symbol s => s.text
  | .eof => "end of input"
  | .error => "invalid token"
  | .lineComment | .blockComment => "comment"
  | .ident => "identifier"
  | .intLiteral => "integer literal"
  | .floatLiteral => "float literal"
  | .stringLiteral => "string literal"
  | .charLiteral => "character literal"

end TokenKind

/-! ## Literals and tokens -/

inductive Literal where
  | int (value : Nat) (suffix : Option IntTy)
  | float (value : Double) (suffix : Option FloatTy)
  | str (value : String)
  | char (value : Char)
  | bool (value : Bool)
  deriving DecidableEq, Inhabited

structure Token where
  kind : TokenKind
  span : Span
  text : String := ""
  value : Option Literal := none
  deriving DecidableEq, Inhabited

end Kite
