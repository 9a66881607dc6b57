/-
Paths in expressions: locals, constant parameters, declarations, variants, associated functions
and builtins; and calls of methods.
-/
import Kite.Check.Calls

namespace Kite.Check

variable (env : Env) (path : List PathPart)

structure PathPart where
  ident : Ident
  args : List TypeReading

inductive PathTarget where
  | item (decl : DefId) (args : List TypeReading)
  | variant (decl : DefId) (index : Nat) (args : List TypeReading)
  | method (decl : DefId) (bindings : Subst) (args : List TypeReading)
  | builtin (fn : BuiltinFn)
  | failed

def localOrGeneric : BodyM (Option Typed.Expr) := do
  match path with
  | [⟨ident, []⟩] =>
    match (← get).scopes.lookup ident.name, env.generic? ident.name with
    | some id, _ => return some (← useLocal id ident.span)
    | none, none => return none
    | none, some generic =>
      match generic.constType with
      | some type => return some ⟨.constParam generic.id, type, ident.span⟩
      | none =>
        report ident.span (.typeParamAsValue ident.name)
        return some (.error ident.span)
  | _ => return none

def undeclaredPath (path : List Ident) (span : Span) : CheckM PathTarget := do
  match path with
  | [name] =>
    match BuiltinFn.ofName? name.name with
    | some fn => return .builtin fn
    | none =>
      report span (.unknownName name.name)
      return .failed
  | _ =>
    report span (.unresolvedPath (pathText path))
    return .failed

def memberPath (decl : DefId) (owner member : PathPart) (span : Span) : CheckM PathTarget := do
  let p ← program
  let name := member.ident
  match (p.enum? decl).bind (·.variantIndex? name.name), findAssociated? p decl name.name with
  | some index, _ =>
    if !member.args.isEmpty then
      report name.span (.argsOnVariant (p.defName decl) name.name)
    match (← get).variantSymbols.lookup (decl, index) with
    | some symbol => referTo name.span symbol
    | none => pure ()
    return .variant decl index owner.args
  | none, some (method, impl) =>
    referToDef name.span method
    if owner.args.isEmpty then return .method method [] member.args
    let type ← instantiate env decl owner.args span
    let (_, bindings) := ((← types).matchTypes impl.target type).run []
    return .method method bindings member.args
  | none, none =>
    report name.span (.noMember (p.defName decl) name.name)
    return .failed

def resolvePath (span : Span) : CheckM PathTarget := do
  let idents := path.map (·.ident)
  match ← lookupItem env.unit idents with
  | .failed => return .failed
  | .notFound => undeclaredPath idents span
  | .found decl segments =>
    match path.drop (segments - 1) with
    | [item] => return .item decl item.args
    | [owner, member] => memberPath env decl owner member span
    | _ =>
      report span (.unresolvedPath (pathText idents))
      return .failed

/-- A function as a value. All generic arguments of a generic function have to be written. -/
def functionValue (decl : DefId) (s : Subst) (explicit : List TypeReading)
    (span : Span) : BodyM Typed.Expr := do
  env.demand.signature decl span
  let p ← program
  match p.function? decl with
  | none => return .error span
  | some f =>
    let name := p.defName decl
    if f.receiver.isSome then
      report span (.methodAsValue name)
      return .error span
    let s ← bindExplicit env name (f.generics.drop (p.ownerGenerics f)) explicit s span
    match ← genericArgs name f.generics s span with
    | none => return .error span
    | some args =>
      let type ← build do
        let params ← f.paramTypes.mapM (TypeM.subst s)
        let result ← TypeM.subst s f.result
        TypeM.function params result
      return ⟨.functionRef decl args, type, span⟩

def valuePath (pathSpan : Span) (expected : Option TypeId)
    (span : Span) : BodyM Typed.Expr := do
  match ← localOrGeneric env path with
  | some value => return value
  | none =>
    match ← resolvePath env path pathSpan with
    | .item decl args =>
      let d ← getDef decl
      match d.kind with
      | .function _ => functionValue env decl [] args span
      | .const _ | .static _ => return ⟨.global decl, ← env.demand.globalType decl, span⟩
      | kind =>
        report span (.notAValue kind.describe d.name)
        return .error span
    | .variant decl index args => variantExpr env decl index args none expected span
    | .method decl bindings args => functionValue env decl bindings args span
    | .builtin fn =>
      report span (.builtinAsValue fn.name)
      return .error span
    | .failed => return .error span

/-! ## Calls through paths and values -/

def indirectArgs : List ArgReading → List TypeId → BodyM (List Typed.Expr)
  | arg :: args, param :: params => do
    match arg.label with
    | some label => report label.span .indirectLabel
    | none => pure ()
    let value ← takeAgainst arg.check (some param)
    return value :: (← indirectArgs args params)
  | _, _ => return []

def indirectCall (callee : Typed.Expr) (args : List ArgReading) (span : Span) : BodyM Typed.Expr := do
  let table ← types
  let type := table.stripViews callee.type
  match table.shape type with
  | .function params result =>
    if args.length != params.length then
      failCall args span span (.indirectArgCount params.length args.length)
    else
      let values ← indirectArgs args params
      return ⟨.call (.indirect callee) values, result, span⟩
  | _ =>
    if !type.isAbsorbing then
      report callee.span (.valueNotCallable (table.display callee.type))
    checkForErrors args
    return .error span

def isPrintable (p : Program) (type : TypeId) : Bool :=
  match p.types.shape (p.types.stripViews type) with
  | .error | .never | .bool | .char | .string | .int _ | .float _ => true
  | .named decl _ _ => p.isPlainEnum decl
  | _ => false

def formatArgs : List ArgReading → BodyM (List Typed.Expr)
  | [] => return []
  | arg :: rest => do
    let value ← synth arg.check none
    let p ← program
    if !isPrintable p value.type then
      report value.span (.notPrintable (p.types.display value.type))
    return value :: (← formatArgs rest)

def panicCall (args : List ArgReading) (span : Span) : BodyM Typed.Expr := do
  match args with
  | [arg] =>
    let message ← checkAgainst arg.check (some .string)
    return ⟨.call (.builtin .panic) [message], .never, span⟩
  | _ =>
    report span (.panicArgCount args.length)
    checkForErrors args
    return ⟨.error, .never, span⟩

/-- Output by a format, which has to be a literal. -/
def formatCall (fn : BuiltinFn) (args : List ArgReading) (span : Span) : BodyM Typed.Expr := do
  match args with
  | [] =>
    if fn == .println then return ⟨.call (.builtin fn) [], .void, span⟩
    report span (.noFormat fn.name)
    return .error span
  | format :: rest =>
    match format.text with
    | none => failCall args span format.span (.formatNotLiteral fn.name)
    | some text =>
      let holes := formatHoles text
      if holes != rest.length then report format.span (.formatCount holes rest.length)
      let values ← formatArgs rest
      return ⟨.call (.builtin fn) (⟨.str text, .string, format.span⟩ :: values), .void, span⟩

def builtinCall (fn : BuiltinFn) (generics : List TypeReading) (args : List ArgReading)
    (span : Span) : BodyM Typed.Expr := do
  match generics with
  | first :: _ => report first.span (.builtinTakesNoArgs fn.name)
  | [] => pure ()
  for arg in args do
    match arg.label with
    | some label => report label.span (.builtinLabel fn.name)
    | none => pure ()
  if fn == .panic then panicCall args span else formatCall fn args span

def callPath (pathSpan calleeSpan : Span)
    (args : List ArgReading) (expected : Option TypeId) (span : Span) : BodyM Typed.Expr := do
  match ← localOrGeneric env path with
  | some callee => indirectCall callee args span
  | none =>
    match ← resolvePath env path pathSpan with
    | .item decl explicit =>
      let d ← getDef decl
      match d.kind with
      | .function _ => callTo env decl [] explicit none args expected span
      | .struct _ => constructor env decl explicit args expected span
      | .const _ | .static _ =>
        let type ← env.demand.globalType decl
        indirectCall ⟨.global decl, type, calleeSpan⟩ args span
      | kind => failCall args span calleeSpan (.itemNotCallable kind.describe d.name)
    | .variant decl index explicit => variantExpr env decl index explicit (some args) expected span
    | .method decl bindings explicit =>
      let p ← program
      if (p.function? decl).any (·.receiver.isSome) then
        failCall args span calleeSpan (.methodCalledByPath (p.defName decl))
      else callTo env decl bindings explicit none args expected span
    | .builtin fn => builtinCall fn ((path.getLast?.map (·.args)).getD []) args span
    | .failed =>
      checkForErrors args
      return .error span

/-! ## Method calls -/

def receiverShape? : TypeShape → Option ReceiverShape
  | .string => some .string
  | .vector _ => some .vector
  | .array .. => some .array
  | .optional _ => some .optional
  | _ => none

def builtinResult (element : TypeId) : BuiltinMethod → TypeM TypeId
  | .stringLen | .vectorLen | .arrayLen => return .usize
  | .stringIsEmpty | .vectorIsEmpty | .optionalHasValue => return .bool
  | .vectorPush => return .void
  | .vectorPop => TypeM.optional element

def builtinMethodCall (method : BuiltinMethod) (receiver : Typed.Expr) (type : TypeId)
    (args : List ArgReading) (span : Span) : BodyM Typed.Expr := do
  if args.length != method.arity then
    failCall args span span (.methodArgCount method.name method.arity args.length)
  else
    if method.mutates then
      let _ ← requireMutableThrough receiver "mutating method call on"
    let element := match (← types).shape type with
      | .vector element => element
      | _ => .error
    let values ← args.mapM fun arg => takeAgainst arg.check (some element)
    let result ← build (builtinResult element method)
    return ⟨.call (.builtinMethod method) (receiver :: values), result, span⟩

def traitArgs : List ArgReading → List TypeId → BodyM (List Typed.Expr)
  | arg :: args, param :: params => do
    let value ← takeAgainst arg.check (some param)
    return value :: (← traitArgs args params)
  | _, _ => return []

/-- A `mut this` method needs a receiver that can be written to. -/
def checkReceiver (kind : Receiver) (receiver : Typed.Expr) : BodyM Unit := do
  if kind == .mutable then
    let _ ← requireMutableThrough receiver "calling a `mut this` method on"

def traitMethodCall (traitDef : DefId) (method : TraitMethod) (receiver : Typed.Expr)
    (selfType : TypeId) (args : List ArgReading) (span : Span) : BodyM Typed.Expr := do
  match method.receiver with
  | none => failCall args span span (.traitMethodWithoutThis method.name)
  | some kind =>
    checkReceiver kind receiver
    if args.length != method.params.length then
      failCall args span span (.methodArgCount method.name method.params.length args.length)
    else
      let values ← traitArgs args method.params
      return ⟨.call (.traitMethod traitDef method.name selfType) (receiver :: values),
        method.result, span⟩

def boundMethod? (p : Program) (bounds : List DefId) (name : String) : Option (DefId × TraitMethod) :=
  bounds.findSome? fun traitDef => do
    let t ← p.trait? traitDef
    let method ← t.methods.find? (·.name == name)
    return (traitDef, method)

def implMethodCall (env : Env) (receiver : Typed.Expr) (type : TypeId) (method : Ident) (generics : List TypeReading)
    (args : List ArgReading) (expected : Option TypeId) (span : Span) : BodyM Typed.Expr := do
  let p ← program
  match p.findMethod? type method.name with
  | none => failCall args span method.span (.noMethod method.name (p.types.display type))
  | some (decl, s) =>
    referToDef method.span decl
    match (p.function? decl).bind (·.receiver) with
    | none => failCall args span method.span (.methodWithoutThis method.name (p.types.display type))
    | some kind =>
      checkReceiver kind receiver
      callTo env decl s generics (some receiver) args expected span

def methodCall (env : Env) (receiver : ExprCheck) (method : Ident) (generics : List TypeReading)
    (args : List ArgReading) (expected : Option TypeId) (span : Span) : BodyM Typed.Expr := do
  let receiver ← synth receiver none
  let p ← program
  let type := p.types.stripViews receiver.type
  if type.isAbsorbing then
    checkForErrors args
    return .error span
  let shape := p.types.shape type
  match (receiverShape? shape).bind (BuiltinMethod.find? · method.name), shape with
  | some builtin, _ => builtinMethodCall builtin receiver type args span
  | none, .param id name =>
    let bounds := ((env.param? id).map (·.bounds)).getD []
    match boundMethod? p bounds method.name with
    | some (traitDef, signature) => traitMethodCall traitDef signature receiver type args span
    | none => failCall args span method.span (.noMethodForParam method.name name)
  | none, _ => implMethodCall env receiver type method generics args expected span

end Kite.Check
