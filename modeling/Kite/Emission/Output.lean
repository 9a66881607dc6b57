/-
A whole program as C++: the support code, the types, the functions that are defined elsewhere, the
prototypes, the globals with their values, the functions, and the start of the program.
-/
import Kite.Emission.Lower
import Kite.Instance.Collect

namespace Kite.Emission

/-! ## Support code -/

def supportLines : List String :=
  ["#include <array>", "#include <cmath>", "#include <cstddef>", "#include <cstdint>",
    "#include <cstdlib>",
    "#include <functional>",
    "#include <initializer_list>",
    "#include <iostream>",
    "#include <limits>",
    "#include <memory>",
    "#include <optional>",
    "#include <sstream>",
    "#include <string>",
    "#include <tuple>",
    "#include <type_traits>",
    "#include <utility>",
    "#include <variant>",
    "#include <vector>",
    "",
    "namespace kite_rt \x7b",
    "",
    "[[noreturn]] inline void panic(const std::string& message) \x7b",
    "    std::cout.flush();",
    "    std::cerr << \"panic: \" << message << std::endl;",
    "    std::exit(101);",
    "\x7d",
    "",
    "[[noreturn]] inline void unreachable() \x7b",
    "    panic(\"entered unreachable code\");",
    "\x7d",
    "",
    "inline std::string show(const std::string& value) \x7b",
    "    return value;",
    "\x7d",
    "",
    "inline std::string show(bool value) \x7b",
    "    return value ? \"true\" : \"false\";",
    "\x7d",
    "",
    "inline std::string show(char32_t value) \x7b",
    "    std::string out;",
    "    auto code = static_cast<std::uint32_t>(value);",
    "    if (code < 0x80) \x7b",
    "        out += static_cast<char>(code);",
    "    \x7d else if (code < 0x800) \x7b",
    "        out += static_cast<char>(0xC0 | (code >> 6));",
    "        out += static_cast<char>(0x80 | (code & 0x3F));",
    "    \x7d else if (code < 0x10000) \x7b",
    "        out += static_cast<char>(0xE0 | (code >> 12));",
    "        out += static_cast<char>(0x80 | ((code >> 6) & 0x3F));",
    "        out += static_cast<char>(0x80 | (code & 0x3F));",
    "    \x7d else \x7b",
    "        out += static_cast<char>(0xF0 | (code >> 18));",
    "        out += static_cast<char>(0x80 | ((code >> 12) & 0x3F));",
    "        out += static_cast<char>(0x80 | ((code >> 6) & 0x3F));",
    "        out += static_cast<char>(0x80 | (code & 0x3F));",
    "    \x7d",
    "    return out;",
    "\x7d",
    "",
    "inline std::string show(double value) \x7b",
    "    std::ostringstream out;",
    "    out << value;",
    "    return out.str();",
    "\x7d",
    "",
    "inline std::string show(float value) \x7b",
    "    return show(static_cast<double>(value));",
    "\x7d",
    "",
    "template <typename T, typename = std::enable_if_t<std::is_integral_v<T>>>",
    "std::string show(T value) \x7b",
    "    if constexpr (std::is_signed_v<T>) \x7b",
    "        return std::to_string(static_cast<long long>(value));",
    "    \x7d else \x7b",
    "        return std::to_string(static_cast<unsigned long long>(value));",
    "    \x7d",
    "\x7d",
    "",
    "inline std::string format(const std::string& pattern, std::initializer_list<std::string> args) \x7b",
    "    std::string out;",
    "    auto next = args.begin();",
    "    for (std::size_t i = 0; i < pattern.size(); ++i) \x7b",
    "        char c = pattern[i];",
    "        if ((c == '\x7b' || c == '\x7d') && i + 1 < pattern.size() && pattern[i + 1] == c) \x7b",
    "            out += c;",
    "            ++i;",
    "        \x7d else if (c == '\x7b' && i + 1 < pattern.size() && pattern[i + 1] == '\x7d') \x7b",
    "            if (next != args.end()) \x7b",
    "                out += *next;",
    "                ++next;",
    "            \x7d",
    "            ++i;",
    "        \x7d else \x7b",
    "            out += c;",
    "        \x7d",
    "    \x7d",
    "    return out;",
    "\x7d",
    "",
    "inline void print(const std::string& text) \x7b",
    "    std::cout << text;",
    "\x7d",
    "",
    "inline void println(const std::string& text) \x7b",
    "    std::cout << text << '\\n';",
    "\x7d",
    "",
    "inline void eprintln(const std::string& text) \x7b",
    "    std::cerr << text << '\\n';",
    "\x7d",
    "",
    "template <typename Index>",
    "std::size_t checked_index(Index index, std::size_t size) \x7b",
    "    if constexpr (std::is_signed_v<Index>) \x7b",
    "        if (index < 0) \x7b",
    "            panic(\"index \" + show(index) + \" out of bounds for length \" + show(size));",
    "        \x7d",
    "    \x7d",
    "    auto position = static_cast<std::size_t>(index);",
    "    if (position >= size) \x7b",
    "        panic(\"index \" + show(index) + \" out of bounds for length \" + show(size));",
    "    \x7d",
    "    return position;",
    "\x7d",
    "",
    "template <typename Container, typename Index>",
    "auto at(Container&& container, Index index) -> decltype(container[0]) \x7b",
    "    return container[checked_index(index, container.size())];",
    "\x7d",
    "",
    "inline std::string slice(const std::string& text, std::size_t start, std::size_t end) \x7b",
    "    if (start > end || end > text.size()) \x7b",
    "        panic(\"slice \" + show(start) + \"..\" + show(end) + \" out of bounds for length \" + show(text.size()));",
    "    \x7d",
    "    return text.substr(start, end - start);",
    "\x7d",
    "",
    "template <typename Container>",
    "auto slice(const Container& items, std::size_t start, std::size_t end) \x7b",
    "    if (start > end || end > items.size()) \x7b",
    "        panic(\"slice \" + show(start) + \"..\" + show(end) + \" out of bounds for length \" + show(items.size()));",
    "    \x7d",
    "    using Item = typename Container::value_type;",
    "    return std::vector<Item>(items.begin() + start, items.begin() + end);",
    "\x7d",
    "",
    "template <typename T>",
    "std::optional<T> pop(std::vector<T>& items) \x7b",
    "    if (items.empty()) \x7b",
    "        return std::nullopt;",
    "    \x7d",
    "    T last = std::move(items.back());",
    "    items.pop_back();",
    "    return last;",
    "\x7d",
    "",
    "template <typename T, std::size_t N>",
    "std::array<T, N> fill(const T& value) \x7b",
    "    std::array<T, N> items;",
    "    items.fill(value);",
    "    return items;",
    "\x7d",
    "",
    "class Defer \x7b",
    "public:",
    "    explicit Defer(std::function<void()> action) : action_(std::move(action)) \x7b\x7d",
    "    Defer(const Defer&) = delete;",
    "    Defer& operator=(const Defer&) = delete;",
    "    ~Defer() \x7b",
    "        action_();",
    "    \x7d",
    "",
    "private:",
    "    std::function<void()> action_;",
    "\x7d;",
    "",
    "\x7d  // namespace kite_rt"]

def supportText : String := String.join (supportLines.map (· ++ "\n"))

/-! ## Functions -/

def localBase (name : String) : String := if name == "this" then "self" else escapeIdent name

/-- The names of the locals of a body. A local that an earlier one has taken the name of is told
apart by its index. -/
def localNames (locals : List Typed.Local) : List String :=
  let bases := locals.map fun l => localBase l.name
  bases.zipIdx.map fun (base, i) => if (bases.take i).contains base then s!"{base}_{i}" else base

/-- The types of the parameters, with the value that a method is called on as the first. -/
def paramTexts (f : FunctionDef) : EmitM (List String) := do
  let self ← match f.receiver, f.selfType with
    | some receiver, some type => do
      let type ← bodyTypeText type
      pure [match receiver with
        | .view => s!"{type} const&"
        | .mutable => s!"{type}&"]
    | _, _ => pure []
  let params ← f.paramTypes.mapM bodyTypeText
  return self ++ params

def signature (name : String) (f : FunctionDef) (paramNames : Option (List String)) : EmitM String := do
  let result ← bodyTypeText f.result
  let types ← paramTexts f
  let params := match paramNames with
    | some names => types.zipWith (fun type name => s!"{type} {name}") names
    | none => types
  return s!"{result} {name}({commas params})"

def withInstance (i : Instance) (x : EmitM α) : EmitM α := do
  let bindings := i.bindings (← program)
  withReader (fun c => { c with bindings }) x

def emitForeign (decl : DefId) : EmitM Unit := do
  let p ← program
  match p.function? decl with
  | some f =>
    let head ← signature (p.defName decl) f none
    line s!"extern \"C\" {head};"
  | none => return

def emitPrototype (i : Instance) : EmitM Unit := do
  match (← program).function? i.decl with
  | some f =>
    withInstance i do
      let head ← signature i.name f none
      line s!"{head};"
  | none => return

/-- The body of a function. Nothing is returned where there is no value. -/
def emitBody (f : FunctionDef) (body : Typed.Body) : EmitM Unit := do
  let isVoid ← isVoidLike (← concrete f.result)
  (lower body.expr).branch (if isVoid then .discard else .ret)

def emitFunction (i : Instance) : EmitM Unit := do
  match (← program).function? i.decl with
  | none => return
  | some f =>
    match f.body with
    | none => return
    | some body =>
      let names := (localNames body.locals.toList).toArray
      modify fun s => { s with temps := 0 }
      withInstance i <| withReader (fun c => { c with
          localNames := names
          localTypes := body.locals.map (·.type) }) do
        let params ← body.params.mapM localName
        let head ← signature i.name f (some params)
        inBraces s!"{head} " "" (emitBody f body)

/-! ## Globals -/

def emitGlobal (decl : DefId) : EmitM Unit := do
  let d := (← program).getDef decl
  match (← program).global? decl with
  | none => return
  | some g =>
    let name ← baseName decl
    match g.value with
    | none => violation s!"`{name}` has no compile-time value" d.span
    | some value =>
      let type ← typeText g.type
      let init ← valueText value g.type
      let isConst := match d.kind with
        | .const _ => true
        | _ => !g.isMut
      let qualifier := if isConst then "const " else ""
      line s!"{qualifier}{type} {name} = {init};"

/-! ## The program -/

/-- The first declaration of a unit named `main`, if it is a function. -/
def mainFunction? (p : Program) (unit : UnitId) : Option FunctionDef := do
  let info ← p.units[unit.index]?
  let decl ← info.defs.toList.find? fun decl => p.defName decl == "main"
  p.function? decl

/-- The start of the program. An integer that `main` gives is the answer of the program. -/
def emitMain : EmitM Unit := do
  let p ← program
  match mainFunction? p (← read).naming.entry with
  | none => return
  | some f =>
    blank
    inBraces "int main() " "" do
      if p.types.isInteger f.result then line s!"return static_cast<int>({Naming.start}());"
      else
        line s!"{Naming.start}();"
        line "return 0;"

/-- A part of the program after an empty line, unless there is nothing in it. -/
def paragraph (items : List α) (emit : α → EmitM Unit) : EmitM Unit := do
  if !items.isEmpty then
    blank
    items.forM emit

def emitProgram (instances : Instances) (hasMain : Bool) : EmitM Unit := do
  line "// Generated by kitec. Do not edit."
  write (·.append supportText)
  if !instances.types.isEmpty then
    blank
    defineTypes instances.types
  paragraph instances.foreign emitForeign
  paragraph instances.functions emitPrototype
  paragraph instances.globals emitGlobal
  instances.functions.forM fun i => do
    blank
    emitFunction i
  if hasMain then emitMain

def generate (p : Program) (entry : UnitId) (hasMain : Bool) : Except ToolError String := do
  match collectInstances p entry with
  | none => throw .endlessInstances
  | some (instances, p) =>
    let ((), stop) ← ((emitProgram instances hasMain).run { naming := { entry } }).run { program := p }
    return stop.out.text

end Kite.Emission
