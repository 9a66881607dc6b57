/-
Libraries: directories of units that programs can import by name. A unit is named by its file
without the extension; when two files have one name the first one counts.
-/
namespace Kite

structure LibraryFile where
  path : String
  text : String
  deriving DecidableEq, Inhabited

structure LibraryUnit where
  name : String
  path : String
  text : String
  deriving DecidableEq, Inhabited

namespace Library

def components (path : String) : List String := (path.splitOn "/").filter (!·.isEmpty)

/-- Whether one list of names comes before another; a directory is read where its name stands. -/
def comesBefore : List String → List String → Bool
  | [], _ => true
  | _ :: _, [] => false
  | a :: as, b :: bs => if a == b then comesBefore as bs else decide (a < b)

/-- The files in the order in which a directory is read: depth first, by name. Of two files with
one path the later is there. -/
def inOrder (files : List LibraryFile) : List LibraryFile :=
  let last := files.foldl (fun kept file => kept.filter (·.path != file.path) ++ [file]) []
  last.mergeSort fun a b => comesBefore (components a.path) (components b.path)

/-- The part of a file name after its last dot, which is not its first character; and the part
before. -/
def splitExtension (name : String) : String × Option String :=
  let reversed := name.toList.reverse
  let ext := reversed.takeWhile (· != '.')
  match reversed.drop ext.length with
  | _ :: stem@(_ :: _) => (String.ofList stem.reverse, some (String.ofList ext.reverse))
  | _ => (name, none)

def unitOf? (file : LibraryFile) : Option LibraryUnit := do
  let name ← (components file.path).getLast?
  match splitExtension name with
  | (stem, some "kite") => some { name := stem, path := file.path, text := file.text }
  | _ => none

def units (files : List LibraryFile) : List LibraryUnit :=
  let found := (inOrder files).filterMap unitOf?
  let first := found.foldl (fun kept unit =>
    if kept.any (·.name == unit.name) then kept else kept ++ [unit]) []
  first.mergeSort fun a b => a.name ≤ b.name

end Library

inductive LibraryRoot where
  | none
  /-- A directory that does not exist. -/
  | missing (path : String)
  | files (files : List LibraryFile)

end Kite

namespace Kite.Library

/-- Integer functions that also work in constant expressions. -/
def mathText : String :=
  "\n".intercalate ["// Integer helpers. Every function here also works in constant expressions.",
    "",
    "comptime function abs(x: i64) -> i64 \x7b",
    "    if x < 0 \x7b -x \x7d else \x7b x \x7d",
    "\x7d",
    "",
    "comptime function min(a: i64, b: i64) -> i64 \x7b",
    "    if a < b \x7b a \x7d else \x7b b \x7d",
    "\x7d",
    "",
    "comptime function max(a: i64, b: i64) -> i64 \x7b",
    "    if a > b \x7b a \x7d else \x7b b \x7d",
    "\x7d",
    "",
    "comptime function clamp(x: i64, low: i64, high: i64) -> i64 \x7b",
    "    min(max(x, low), high)",
    "\x7d",
    "",
    "comptime function gcd(a: i64, b: i64) -> i64 \x7b",
    "    if b == 0 \x7b abs(a) \x7d else \x7b gcd(b, a % b) \x7d",
    "\x7d",
    "",
    "comptime function pow(base: i64, exp: u32) -> i64 \x7b",
    "    let mut result = 1;",
    "    let mut i: u32 = 0;",
    "    while i < exp \x7b",
    "        result *= base;",
    "        i += 1;",
    "    \x7d",
    "    result",
    "\x7d",
    "",
    "comptime function is_even(x: i64) -> bool \x7b",
    "    x % 2 == 0",
    "\x7d"] ++ "\n"

def bundled : List LibraryFile := [{ path := "math.kite", text := mathText }]

end Kite.Library
