/-
Places in source text. A span is a half-open range of byte offsets into one file together with
the line and column of its first byte, both counted from one. Line zero means that the position
is not known and has to be computed from the text.
-/
namespace Kite

/-- A source file, by its index in a `SourceMap`. -/
structure FileId where
  index : Nat
  deriving DecidableEq, Ord, Inhabited

def FileId.label (file : FileId) : String := s!"unit#{file.index}"

/-- A half-open byte range `[start, stop)` of a file, with the position of `start`. -/
structure Span where
  file : FileId := ⟨0⟩
  start : Nat := 0
  stop : Nat := 0
  line : Nat := 0
  column : Nat := 0
  deriving DecidableEq, Ord, Inhabited

namespace Span

def ofFile (file : FileId) : Span := { file }

/-- The zero-width span where `s` ends. It keeps the line and column of `s`. -/
def endPoint (s : Span) : Span := { s with start := s.stop }

/-- The least span that covers both. The position is that of the span that starts first;
spans of different files are not joined. -/
def through (a b : Span) : Span :=
  if b.file = a.file then
    let first := if a.start ≤ b.start then a else b
    { file := a.file
      start := min a.start b.start
      stop := max a.stop b.stop
      line := first.line
      column := first.column }
  else a

def length (s : Span) : Nat := s.stop - s.start

def isEmpty (s : Span) : Bool := s.start == s.stop

/-- Whether a byte offset lies in the span. An empty span holds its own start. -/
def contains (s : Span) (offset : Nat) : Bool := s.start ≤ offset && offset < max s.stop (s.start + 1)

end Span

end Kite
