/-
Source files and the positions in them. Offsets count bytes of the UTF-8 encoding; lines end at
a newline; columns count characters. An offset inside a character has no character column, and
is given the number of bytes since the start of its line instead.
-/
import Kite.Source.Span

namespace Kite

/-! ## Cutting text at byte offsets -/

def byteLength (cs : List Char) : Nat := cs.foldl (fun n c => n + c.utf8Size) 0

/-- What follows the first `n` bytes, if they end between two characters. -/
def dropBytes : Nat → List Char → Option (List Char)
  | 0, cs => some cs
  | _ + 1, [] => none
  | n + 1, c :: cs => if c.utf8Size ≤ n + 1 then dropBytes (n + 1 - c.utf8Size) cs else none

def takeBytes : Nat → List Char → Option (List Char)
  | 0, _ => some []
  | _ + 1, [] => none
  | n + 1, c :: cs => if c.utf8Size ≤ n + 1 then (takeBytes (n + 1 - c.utf8Size) cs).map (c :: ·) else none

/-- The characters between two byte offsets, if both are between characters and in order. -/
def sliceBytes (cs : List Char) (start stop : Nat) : Option (List Char) :=
  if start ≤ stop then (dropBytes start cs).bind (takeBytes (stop - start)) else none

/-! ## Files -/

structure SourceFile where
  name : String
  text : String
  deriving DecidableEq, Inhabited

variable (file : SourceFile)

namespace SourceFile

/-- Byte offsets just after each newline of `cs`, which itself starts at `offset`. -/
def lineStartsFrom : Nat → List Char → List Nat
  | _, [] => []
  | offset, c :: cs =>
    let next := offset + c.utf8Size
    if c = '\n' then next :: lineStartsFrom next cs else lineStartsFrom next cs

def lineStarts : List Nat := 0 :: lineStartsFrom 0 file.text.toList

/-- Line and column of a byte offset. Offsets past the end are taken to be at the end of the
last line. -/
def lineColumn (offset : Nat) : Nat × Nat :=
  let before := file.lineStarts.filter (· ≤ offset)
  let lineStart := before.getLastD 0
  let stop := min offset file.text.utf8ByteSize
  let column := match sliceBytes file.text.toList lineStart stop with
    | some cs => cs.length
    | none => stop - lineStart
  (before.length, column + 1)

/-- The text of a line, without its terminator. Lines that do not exist are empty, and line
zero stands for the first. -/
def lineText (line : Nat) : String :=
  let lines := file.text.splitOn "\n"
  let cs := (lines.getD (line - 1) "").toList
  String.ofList (cs.reverse.dropWhile (· = '\r')).reverse

/-- The text a span covers; empty when the span does not fall on characters of the file. -/
def slice (span : Span) : String :=
  String.ofList ((sliceBytes file.text.toList span.start span.stop).getD [])

end SourceFile

structure SourceMap where
  files : Array SourceFile := #[]
  deriving DecidableEq, Inhabited

variable (sources : SourceMap)

namespace SourceMap

def add (name text : String) : FileId × SourceMap :=
  (⟨sources.files.size⟩, ⟨sources.files.push { name, text }⟩)

def get? (file : FileId) : Option SourceFile := sources.files[file.index]?

def name (sources : SourceMap) (file : FileId) : String :=
  match sources.get? file with
  | some source => source.name
  | none => "<unknown>"

def find? (name : String) : Option FileId :=
  (sources.files.findIdx? (·.name == name)).map FileId.mk

def names : List String := sources.files.toList.map (·.name)

end SourceMap

end Kite
