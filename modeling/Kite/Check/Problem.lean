/-
What can be wrong with a program that parses. A problem names its cause; the wording, the code and
the notes of the report are all here. Types, paths and declarations appear in problems as text.
-/
import Kite.Diagnostic

namespace Kite.Check

def plural (count : Nat) : String := if count == 1 then "" else "s"

def supplied (count : Nat) : String :=
  s!"{count} " ++ (if count == 1 then "was" else "were") ++ " supplied"

inductive Declared where
  | item (name : String)
  | method (name : String)
  | traitMethod (name : String)
  | field (name : String)
  | variant (name : String)
  | variable (name : String)

namespace Declared

def describe : Declared → String
  | .item name | .variable name => s!"`{name}`"
  | .method name | .traitMethod name => s!"method `{name}`"
  | .field name => s!"field `{name}`"
  | .variant name => s!"variant `{name}`"

def earlier : Declared → String
  | .item _ | .method _ => "first defined here"
  | .traitMethod _ | .field _ | .variant _ => "first declared here"
  | .variable _ => "previous definition in this scope"

end Declared

inductive Problem where
  -- Names
  | unresolvedImport (unit : String)
  | redefinition (what : Declared) (previous : Span)
  | unknownName (name : String)
  | unknownType (path : String)
  | unknownTrait (path : String)
  | unknownEnum (path : String)
  | unresolvedPath (path : String)
  | missingInUnit (unit name : String)
  | ambiguous (name : String) (units : List String) (example_ : String)
  | noMember (owner name : String)
  | noVariant (enum name : String)
  | notATrait (what path : String)
  | notAType (what name : String)
  | notAValue (what name : String)
  | notAnEnum (what name : String)
  | constAsType
  | constParamAsType (name : String)
  | typeParamAsLength (name : String)
  | typeParamAsValue (name : String)
  | builtinAsValue (name : String)
  | implForParam
  | thisInFunction (name : String)
  | thisOutsideMethod
  -- Generic arguments
  | traitTakesNoArgs (path : String)
  | takesNoArgs (name : String)
  | typeParamTakesNoArgs (name : String)
  | builtinTakesNoArgs (name : String)
  | traitMethodGeneric (name : String)
  | genericArgCount (name : String) (wanted given : Nat)
  | explicitArgCount (name : String) (wanted given : Nat)
  | argsOnVariant (enum variant : String)
  | typeArgIsConst (param : String)
  | constArgIsTypeParam (param name : String)
  | constArgExpected (param : String)
  | constArgIsName (param name : String)
  | constArgNotInteger (name : String)
  | constArgNegative (value : Int)
  | cannotInfer (params : List String) (name : String)
  -- Declarations
  | constParamNotInteger (name type : String)
  | reprNotInteger (type : String)
  | reprWithPayload (enum variant : String)
  | explicitDiscriminant
  | discriminantRange (value : Int) (variant type : String)
  | discriminantReused (value : Int) (variant other : String) (previous : Span)
  | foreignWithBody (name : String)
  | foreignComptime (name : String)
  | foreignGeneric (name : String)
  | noBody (name : String)
  | traitMethodBody (name : String)
  | infiniteSize (name : String) (isEnum : Bool)
  | inferredFromItself (name : String)
  -- Traits
  | notImplemented (traitName type : String)
  | boundNotMet (traitName type param owner : String)
  | missingMethods (methods : List String) (traitName type : String)
  | signatureDiffers (method traitName expected found : String) (declared : Span)
  | notInTrait (method traitName : String)
  | conflictingImpls (traitName type : String) (previous : Span)
  -- Types
  | mismatch (expected found : String)
  | patternMismatch (expected what : String)
  | branchMismatch (first second : String)
  | armMismatch (first second : String)
  | literalRange (type : String)
  | untypedNone
  | untypedLiteral
  | noField (name type : String)
  | noMethod (name type : String)
  | noMethodForParam (name param : String)
  | methodWithoutThis (name type : String)
  | traitMethodWithoutThis (name : String)
  | methodAsValue (name : String)
  | methodCalledByPath (name : String)
  | ifWithoutElse
  | blockArm
  | nonExhaustive (missing : List String)
  | bindInAlternatives (name : String)
  | jumpOutsideLoop (keyword : String)
  | returnOutsideFunction
  -- Operators
  | negateUnsigned (type : String)
  | negate (type : String)
  | complement (type : String)
  | dereference (type : String)
  | shiftOperands (op left right : String)
  | operandMismatch (op left right : String)
  | operatorUnsupported (op type : String)
  | compoundAssign (op left right : String)
  | cast (source target : String)
  | rawDereference
  | rawCast
  | rangeValue
  | sliceOf (type : String)
  | indexInto (type : String)
  | indexNotInteger (type : String)
  | unwrapOf (type : String)
  | deferredLet
  | rangeBounds (first second : String)
  | iterate (type : String)
  | floatPattern
  -- Calls
  | itemNotCallable (what name : String)
  | valueNotCallable (type : String)
  | argCount (name : String) (wanted given : Nat)
  | indirectArgCount (wanted given : Nat)
  | methodArgCount (name : String) (wanted given : Nat)
  | panicArgCount (given : Nat)
  | fieldCount (name : String) (wanted given : Nat)
  | variantNeedsPayload (enum variant : String) (wanted : Nat)
  | variantArgCount (enum variant : String) (wanted given : Nat)
  | patternFieldCount (enum variant : String) (wanted given : Nat)
  | noFormat (name : String)
  | formatNotLiteral (name : String)
  | formatCount (holes given : Nat)
  | notPrintable (type : String)
  | labelMismatch (label param : String)
  | labelsMixed
  | labelUnknown (name label : String)
  | labelTwice (label : String)
  | fieldsMissing (fields : List String) (name : String)
  | variantLabel
  | indirectLabel
  | builtinLabel (name : String)
  -- Ownership
  | movedValue (name : String) (moved : Span)
  | movedInLoop (name : String)
  | immutable (action what : String)
  | behindView (action : String)
  | notAPlace (action : String)

namespace Problem

def quoted (names : List String) (separator : String) : String :=
  separator.intercalate (names.map fun name => s!"`{name}`")

def category : Problem → Category
  | .unresolvedImport _ | .redefinition .. | .unknownName _ | .unknownType _ | .unknownTrait _
  | .unknownEnum _ | .unresolvedPath _ | .missingInUnit .. | .ambiguous .. | .noMember ..
  | .noVariant .. | .notATrait .. | .thisInFunction _ | .thisOutsideMethod => .nameResolution
  | .traitTakesNoArgs _ | .takesNoArgs _ | .typeParamTakesNoArgs _ | .builtinTakesNoArgs _
  | .traitMethodGeneric _ | .genericArgCount .. | .explicitArgCount .. | .argsOnVariant ..
  | .typeArgIsConst _ | .constArgIsTypeParam .. | .constArgExpected _ | .constArgIsName ..
  | .constArgNotInteger _ | .constArgNegative _ | .cannotInfer .. => .genericBinding
  | _ => .type

def code : Problem → String
  | .unknownName _ | .unknownType _ | .unknownTrait _ | .unknownEnum _ | .unresolvedPath _
  | .missingInUnit .. | .noMember .. | .noVariant .. => "E0201"
  | .ambiguous .. => "E0202"
  | .redefinition .. => "E0203"
  | .unresolvedImport _ => "E0204"
  | .thisInFunction _ | .thisOutsideMethod => "E0205"
  | .notATrait .. | .notAType .. | .notAValue .. | .notAnEnum .. | .constAsType
  | .constParamAsType _ | .typeParamAsLength _ | .typeParamAsValue _ | .builtinAsValue _
  | .implForParam => "E0206"
  | .constParamNotInteger .. | .reprNotInteger _ | .mismatch .. | .patternMismatch ..
  | .branchMismatch .. | .armMismatch .. => "E0301"
  | .literalRange _ | .discriminantRange .. => "E0302"
  | .inferredFromItself _ | .untypedNone | .untypedLiteral => "E0303"
  | .argCount .. | .indirectArgCount .. | .methodArgCount .. | .panicArgCount _ | .fieldCount ..
  | .variantNeedsPayload .. | .variantArgCount .. | .patternFieldCount .. | .noFormat _ => "E0304"
  | .noMethod .. | .noMethodForParam .. | .methodWithoutThis .. | .traitMethodWithoutThis _
  | .methodAsValue _ | .methodCalledByPath _ => "E0305"
  | .noField .. => "E0306"
  | .negateUnsigned _ | .negate _ | .complement _ | .dereference _ | .shiftOperands ..
  | .operandMismatch .. | .operatorUnsupported .. | .compoundAssign .. | .rangeValue | .sliceOf _
  | .indexInto _ | .indexNotInteger _ | .unwrapOf _ | .deferredLet | .rangeBounds .. | .iterate _
  | .floatPattern | .itemNotCallable .. | .valueNotCallable _ => "E0307"
  | .labelMismatch .. | .labelsMixed | .labelUnknown .. | .labelTwice _ | .fieldsMissing ..
  | .variantLabel | .indirectLabel | .builtinLabel _ => "E0308"
  | .rawDereference | .rawCast => "E0309"
  | .cast .. => "E0310"
  | .ifWithoutElse | .blockArm => "E0311"
  | .jumpOutsideLoop _ | .returnOutsideFunction => "E0312"
  | .formatNotLiteral _ | .formatCount .. | .notPrintable _ => "E0313"
  | .foreignWithBody _ | .foreignComptime _ | .foreignGeneric _ | .noBody _ | .traitMethodBody _ =>
    "E0314"
  | .reprWithPayload .. | .explicitDiscriminant => "E0315"
  | .movedValue .. => "E0320"
  | .movedInLoop _ => "E0321"
  | .nonExhaustive _ => "E0330"
  | .bindInAlternatives _ => "E0331"
  | .notImplemented .. | .boundNotMet .. => "E0340"
  | .missingMethods .. => "E0341"
  | .signatureDiffers .. => "E0342"
  | .notInTrait .. => "E0343"
  | .conflictingImpls .. => "E0344"
  | .infiniteSize .. => "E0350"
  | .discriminantReused .. => "E0351"
  | .notAPlace _ => "E0360"
  | .immutable .. | .behindView _ => "E0361"
  | .traitTakesNoArgs _ | .takesNoArgs _ | .typeParamTakesNoArgs _ | .builtinTakesNoArgs _
  | .traitMethodGeneric _ | .genericArgCount .. | .explicitArgCount .. | .argsOnVariant ..
  | .typeArgIsConst _ | .constArgIsTypeParam .. | .constArgExpected _ | .constArgIsName ..
  | .constArgNotInteger _ | .constArgNegative _ => "E0401"
  | .cannotInfer .. => "E0402"

/-- A number with its noun, such as `2 arguments`. -/
def counted (count : Nat) (noun : String) : String := s!"{count} {noun}{plural count}"

def argsSupplied (count : Nat) : String :=
  counted count "argument" ++ (if count == 1 then " was" else " were") ++ " supplied"

def message : Problem → String
  | .unresolvedImport unit => s!"unresolved import `{unit}`"
  | .redefinition what _ => s!"redefinition of {what.describe}"
  | .unknownName name => s!"cannot find `{name}` in this scope"
  | .unknownType path => s!"cannot find type `{path}` in this scope"
  | .unknownTrait path => s!"cannot find trait `{path}` in this scope"
  | .unknownEnum path => s!"cannot find enum `{path}` in this scope"
  | .unresolvedPath path => s!"cannot resolve path `{path}`"
  | .missingInUnit unit name => s!"unit `{unit}` has no declaration named `{name}`"
  | .ambiguous name units _ => s!"`{name}` is ambiguous: it is declared in " ++ quoted units " and "
  | .noMember owner name => s!"`{owner}` has no variant or associated function named `{name}`"
  | .noVariant enum name => s!"no variant `{name}` in enum `{enum}`"
  | .notATrait what path => s!"expected a trait, found {what} `{path}`"
  | .notAType what name => s!"expected a type, found {what} `{name}`"
  | .notAValue what name => s!"expected a value, found {what} `{name}`"
  | .notAnEnum what name => s!"expected an enum, found {what} `{name}`"
  | .constAsType => "expected a type, found a constant expression"
  | .constParamAsType name => s!"const parameter `{name}` used as a type"
  | .typeParamAsLength name => s!"type parameter `{name}` used as an array length"
  | .typeParamAsValue name => s!"type parameter `{name}` cannot be used as a value"
  | .builtinAsValue name => s!"builtin `{name}` can only be called"
  | .implForParam => "methods cannot be implemented for a bare type parameter"
  | .thisInFunction name => s!"`{name}` takes `this` but is not a method"
  | .thisOutsideMethod => "`this` is only available inside methods"
  | .traitTakesNoArgs path => s!"trait `{path}` takes no generic arguments"
  | .takesNoArgs name => s!"`{name}` takes no generic arguments"
  | .typeParamTakesNoArgs name => s!"type parameter `{name}` takes no generic arguments"
  | .builtinTakesNoArgs name => s!"builtin `{name}` takes no generic arguments"
  | .traitMethodGeneric name => s!"trait method `{name}` cannot declare generic parameters"
  | .genericArgCount name wanted given =>
    s!"`{name}` takes " ++ counted wanted "generic argument" ++ " but " ++ supplied given
  | .explicitArgCount name wanted given =>
    s!"`{name}` takes " ++ counted wanted "generic argument" ++ s!" but {given} were supplied"
  | .argsOnVariant enum variant =>
    s!"generic arguments belong on the enum: write `{enum}::<..>::{variant}`"
  | .typeArgIsConst param => s!"expected a type for `{param}`, found a constant"
  | .constArgIsTypeParam param name =>
    s!"expected a constant for `{param}`, found type parameter `{name}`"
  | .constArgExpected param => s!"expected a constant for `{param}`"
  | .constArgIsName param name => s!"expected a constant for `{param}`, found `{name}`"
  | .constArgNotInteger name => s!"constant `{name}` is not an integer"
  | .constArgNegative value => s!"const arguments must not be negative, found {value}"
  | .cannotInfer params name =>
    s!"cannot infer generic parameter{plural params.length} " ++ quoted params ", "
      ++ s!" of `{name}`"
  | .constParamNotInteger name type =>
    s!"const parameter `{name}` must have an integer type, found `{type}`"
  | .reprNotInteger type => s!"an enum representation must be an integer type, found `{type}`"
  | .reprWithPayload enum variant =>
    s!"enum `{enum}` has an integer representation but variant `{variant}` carries data"
  | .explicitDiscriminant =>
    "only enums without payloads or generics can have explicit discriminants"
  | .discriminantRange value variant type =>
    s!"discriminant {value} of `{variant}` does not fit in `{type}`"
  | .discriminantReused value variant other _ =>
    s!"discriminant {value} of `{variant}` is already used by `{other}`"
  | .foreignWithBody name => s!"extern function `{name}` cannot have a body"
  | .foreignComptime name => s!"extern function `{name}` cannot be comptime"
  | .foreignGeneric name => s!"extern function `{name}` cannot be generic"
  | .noBody name => s!"function `{name}` has no body"
  | .traitMethodBody name => s!"trait method `{name}` cannot have a body"
  | .infiniteSize name _ => s!"recursive type `{name}` has infinite size"
  | .inferredFromItself name =>
    s!"cannot infer the return type of `{name}` while checking its own body"
  | .notImplemented traitName type | .boundNotMet traitName type _ _ =>
    s!"the trait `{traitName}` is not implemented for `{type}`"
  | .missingMethods methods traitName type =>
    s!"missing method{plural methods.length} " ++ quoted methods ", "
      ++ s!" required by trait `{traitName}` for `{type}`"
  | .signatureDiffers method traitName expected found _ =>
    s!"method `{method}` does not match its declaration in trait `{traitName}`: "
      ++ s!"expected `{expected}`, found `{found}`"
  | .notInTrait method traitName => s!"method `{method}` is not a member of trait `{traitName}`"
  | .conflictingImpls traitName type _ =>
    s!"conflicting implementations of trait `{traitName}` for `{type}`"
  | .mismatch expected found => s!"mismatched types: expected `{expected}`, found `{found}`"
  | .patternMismatch expected what =>
    s!"mismatched types: expected `{expected}`, found {what} pattern"
  | .branchMismatch first second =>
    s!"`if` and `else` have incompatible types: `{first}` and `{second}`"
  | .armMismatch first second => s!"`match` arms have incompatible types: `{first}` and `{second}`"
  | .literalRange type => s!"integer literal out of range for `{type}`"
  | .untypedNone => "cannot infer the type of `none`"
  | .untypedLiteral => "cannot infer the element type of an empty literal"
  | .noField name type => s!"no field `{name}` on type `{type}`"
  | .noMethod name type => s!"no method named `{name}` found for type `{type}`"
  | .noMethodForParam name param => s!"no method `{name}` found for type parameter `{param}`"
  | .methodWithoutThis name type =>
    s!"`{name}` has no `this` parameter; call it as `{type}::{name}(..)`"
  | .traitMethodWithoutThis name => s!"trait method `{name}` has no `this` parameter"
  | .methodAsValue name => s!"method `{name}` takes `this` and cannot be used as a value"
  | .methodCalledByPath name =>
    s!"`{name}` takes `this`; call it with method syntax `value.{name}(..)`"
  | .ifWithoutElse => "`if` without `else` cannot produce a value"
  | .blockArm => "block arms are only allowed when `match` is used as a statement"
  | .nonExhaustive missing => "non-exhaustive match: missing " ++ quoted missing ", "
  | .bindInAlternatives name => s!"cannot bind `{name}` in a pattern with `|` alternatives"
  | .jumpOutsideLoop keyword => s!"`{keyword}` outside of a loop"
  | .returnOutsideFunction => "`return` outside of a function"
  | .negateUnsigned type => s!"cannot negate a value of unsigned type `{type}`"
  | .negate type => s!"cannot negate a value of type `{type}`"
  | .complement type => s!"cannot apply `~` to a value of type `{type}`"
  | .dereference type => s!"cannot dereference a value of type `{type}`"
  | .shiftOperands op left right =>
    s!"operator `{op}` needs integer operands, found `{left}` and `{right}`"
  | .operandMismatch op left right =>
    s!"mismatched operand types for `{op}`: `{left}` and `{right}`"
  | .operatorUnsupported op type => s!"operator `{op}` cannot be applied to `{type}`"
  | .compoundAssign op left right => s!"cannot apply `{op}=` to `{left}` and `{right}`"
  | .cast source target => s!"cannot cast `{source}` to `{target}`"
  | .rawDereference => "dereference of a raw pointer requires an `unsafe` block"
  | .rawCast => "casting between raw pointer types requires an `unsafe` block"
  | .rangeValue => "ranges are only allowed in `for` loops and slices"
  | .sliceOf type => s!"cannot slice a value of type `{type}`"
  | .indexInto type => s!"cannot index into a value of type `{type}`"
  | .indexNotInteger type => s!"indices must be integers, found `{type}`"
  | .unwrapOf type => s!"`!` unwraps an optional, found `{type}`"
  | .deferredLet => "`defer` takes an expression or a block, not a `let`"
  | .rangeBounds first second =>
    s!"range bounds must be integers of one type, found `{first}` and `{second}`"
  | .iterate type => s!"cannot iterate over a value of type `{type}`"
  | .floatPattern => "floating-point literals cannot be used in patterns"
  | .itemNotCallable what name => s!"{what} `{name}` is not callable"
  | .valueNotCallable type => s!"a value of type `{type}` is not callable"
  | .argCount name wanted given =>
    s!"`{name}` takes " ++ counted wanted "argument" ++ " but " ++ supplied given
  | .indirectArgCount wanted given =>
    "this function takes " ++ counted wanted "argument" ++ s!" but {given} were supplied"
  | .methodArgCount name wanted given =>
    s!"method `{name}` takes " ++ counted wanted "argument" ++ s!" but {given} were supplied"
  | .panicArgCount given => s!"`panic` takes 1 argument but {given} were supplied"
  | .fieldCount name wanted given =>
    s!"`{name}` has " ++ counted wanted "field" ++ " but " ++ argsSupplied given
  | .variantNeedsPayload enum variant wanted =>
    s!"variant `{enum}::{variant}` carries " ++ counted wanted "value"
      ++ s!"; construct it with `{enum}::{variant}(..)`"
  | .variantArgCount enum variant wanted given =>
    s!"variant `{enum}::{variant}` takes " ++ counted wanted "value" ++ " but " ++ supplied given
  | .patternFieldCount enum variant wanted given =>
    s!"variant `{enum}::{variant}` has " ++ counted wanted "field"
      ++ s!" but the pattern has {given}"
  | .noFormat name => s!"`{name}` takes a format string"
  | .formatNotLiteral name => s!"the format string of `{name}` must be a string literal"
  | .formatCount holes given =>
    "format string has " ++ counted holes "placeholder" ++ " but " ++ argsSupplied given
  | .notPrintable type => s!"values of type `{type}` cannot be formatted"
  | .labelMismatch label param => s!"argument label `{label}` does not match parameter `{param}`"
  | .labelsMixed => "constructor arguments must be either all labelled or all positional"
  | .labelUnknown name label => s!"`{name}` has no field named `{label}`"
  | .labelTwice label => s!"field `{label}` is specified more than once"
  | .fieldsMissing fields name =>
    s!"missing field{plural fields.length} " ++ quoted fields ", "
      ++ s!" in constructor of `{name}`"
  | .variantLabel => "variant payloads are positional and take no labels"
  | .indirectLabel => "calls through function values take no argument labels"
  | .builtinLabel name => s!"builtin `{name}` takes no argument labels"
  | .movedValue name _ => s!"use of moved value `{name}`"
  | .movedInLoop name =>
    s!"value `{name}` is moved inside a loop and would be used again in the next iteration"
  | .immutable action what => s!"{action} immutable {what}"
  | .behindView action => s!"{action} data behind a `&` view"
  | .notAPlace action => s!"{action} a value that is not a place"

def related : Problem → List Related
  | .redefinition what previous => [{ span := previous, message := what.earlier }]
  | .discriminantReused _ _ _ previous => [{ span := previous, message := "first used here" }]
  | .conflictingImpls _ _ previous => [{ span := previous, message := "first implementation here" }]
  | .signatureDiffers _ _ _ _ declared => [{ span := declared, message := "declared here" }]
  | .movedValue _ moved => [{ span := moved, message := "value moved here" }]
  | _ => []

def notes : Problem → List String
  | .ambiguous _ _ name => [s!"qualify the name, for example `{name}`"]
  | .inferredFromItself _ => ["add an explicit return type"]
  | .traitMethodBody _ => ["implement it in an `impl` block"]
  | .infiniteSize _ true => ["store the recursive payload in a vector"]
  | .infiniteSize name false =>
    [s!"store the recursive field in a vector or declare `{name}` as a class"]
  | .cannotInfer params name =>
    let what := if params.length == 1 then "it" else "them"
    [s!"specify {what} with a turbofish: `{name}::<..>`"]
  | .boundNotMet _ _ param owner => [s!"required by the bound on `{param}` of `{owner}`"]
  | .untypedNone => ["add a type annotation such as `let x: i64? = none;`"]
  | .untypedLiteral => ["add a type annotation such as `let v: [i64] = [];`"]
  | .noMethodForParam name param => [s!"add a trait bound to `{param}` that declares `{name}`"]
  | .blockArm => ["write the arm as a single expression"]
  | .nonExhaustive _ => ["add the missing arms or a `_` arm"]
  | _ => []

def toDiagnostic (problem : Problem) (span : Span) : Diagnostic :=
  { Diagnostic.error problem.category problem.code span problem.message with
    related := problem.related
    notes := problem.notes }

end Problem

end Kite.Check
