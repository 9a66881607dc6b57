/-
The emitted names of declarations and instances. `Box<i32>` becomes `Box__i32`, a generic function
at `i64` becomes `identity__i64`, and the method `get` of `Box<i32>` becomes `Box__i32_get`.
Declarations outside the entry unit have the name of their unit in front.
-/
import Kite.Program

/-! ## Identifiers -/

namespace Kite.Emission

/-- Names that may not stand for themselves in the output. -/
def reserved : List String :=
  ["alignas", "alignof", "and", "and_eq", "asm", "auto", "bitand", "bitor", "bool", "case", "catch",
    "char", "char8_t", "char16_t", "char32_t", "compl", "concept", "consteval", "constexpr",
    "constinit", "const_cast", "co_await", "co_return", "co_yield", "decltype", "default", "delete",
    "do", "double", "dynamic_cast", "explicit", "export", "float", "friend", "goto", "inline", "int",
    "long", "namespace", "new", "noexcept", "not", "not_eq", "nullptr", "operator", "or", "or_eq",
    "private", "protected", "public", "register", "reinterpret_cast", "requires", "short", "signed",
    "sizeof", "static_assert", "static_cast", "switch", "template", "thread_local", "throw", "try",
    "typedef", "typeid", "typename", "union", "unsigned", "using", "virtual", "void", "volatile",
    "wchar_t", "xor", "xor_eq", "main", "std", "self", "NULL", "EOF", "errno", "assert", "const",
    "enum", "struct", "class", "extern", "static", "this", "true", "false", "if", "else", "for",
    "while", "break", "continue", "return"]

def supportStart : String := "kite_"

def escapeIdent (name : String) : String :=
  if reserved.contains name || name.startsWith supportStart then name ++ "_" else name

end Kite.Emission

/-! ## Names -/

namespace Kite

open Emission

/-- How names are chosen: by the unit that the program starts in. -/
structure Naming where
  entry : UnitId
  deriving DecidableEq, Inhabited

variable (n : Naming) (p : Program)

namespace Naming

def start : String := "kite_main"

def base (id : DefId) : String :=
  let d := p.getDef id
  if d.unit == n.entry then
    if d.name == "main" && (p.function? id).isSome then start else escapeIdent d.name
  else p.unitName d.unit ++ "_" ++ d.name

/-- The spelling of a type inside a name, where `param` spells the parameters. A compound is closed
with a `_`. -/
def fragmentFrom (n : Naming) (p : Program) (param : ParamId → String → String) :
    Nat → TypeId → String
  | 0, _ => ""
  | k + 1, id =>
    let part (id : TypeId) : String := fragmentFrom n p param k id
    let parts (ids : List TypeId) : String := "_".intercalate (ids.map (fragmentFrom n p param k))
    match p.types.shape id with
    | .param q name => param q name
    | .named decl _ args =>
      if args.isEmpty then n.base p decl else n.base p decl ++ "_" ++ parts args ++ "_"
    | .vector element => "vec_" ++ part element ++ "_"
    | .array element length => "arr_" ++ part element ++ "_" ++ part length ++ "_"
    | .optional inner => "opt_" ++ part inner ++ "_"
    | .tuple items => "tup_" ++ parts items ++ "_"
    | .view isMut inner => (if isMut then "mut_" else "ref_") ++ part inner ++ "_"
    | .raw inner => "raw_" ++ part inner ++ "_"
    | .function params result => "fn_" ++ parts params ++ "_" ++ part result ++ "_"
    | _ => p.types.display id

def fragment (id : TypeId) : String :=
  n.fragmentFrom p (fun _ name => name) (id.index + 1) id

/-- The spelling of a type in which bound parameters stand for their types. -/
def fragmentWith (s : Subst) (id : TypeId) : String :=
  let param (q : ParamId) (name : String) : String :=
    match s.get? q with
    | some bound => n.fragment p bound
    | none => name
  n.fragmentFrom p param (id.index + 1) id

def withArgs (name : String) (args : List String) : String :=
  name ++ String.join (args.map ("__" ++ ·))

def typeNameWith (s : Subst) (id : TypeId) : String :=
  match p.types.shape id with
  | .named decl _ args => withArgs (n.base p decl) (args.map (n.fragmentWith p s))
  | _ => n.fragmentWith p s id

def typeName (id : TypeId) : String := n.typeNameWith p [] id

/-- The name of a function for arguments to all its generics. A method is named after the type
that its implementation is for. -/
def functionName (id : DefId) (args : List TypeId) : String :=
  match p.function? id with
  | none => n.base p id
  | some f =>
    if f.isForeign then p.defName id
    else
      match f.owner.bind (p.impls[·]?) with
      | some impl =>
        let receiver := n.typeNameWith p (Program.bindings impl.generics args) impl.target
        withArgs (receiver ++ "_" ++ p.defName id)
          ((args.drop impl.generics.length).map (n.fragment p))
      | none => withArgs (n.base p id) (args.map (n.fragment p))

end Naming

end Kite
