/-
Errors of compilation.

* `Payload.Fault`: a media query or a keyframes rule that is not shaped as it must be, and where;
* `Directive.Reserved`: the keys that are directives;
* `CompileError`: every way in which a descriptor can fail to compile;
* `CompileError.message`: the text of an error.
-/
import Stylesheet.Value

namespace Stylesheet

/-! ### Faults of payloads -/

namespace Payload

/-- The parts of a payload that must be lists or mappings. -/
inductive Part where
  | mediaList
  | mediaQuery
  | ruleBody
  | keyframesList
  | keyframesRule
  | keyframesStep
  | propertyMapping
  deriving DecidableEq, Repr

/-- A part of a payload as error messages name it. -/
def Part.describe : Part → String
  | .mediaList => "a list of media queries"
  | .mediaQuery => "a media query mapping"
  | .ruleBody => "a rule body"
  | .keyframesList => "a list of keyframes rules"
  | .keyframesRule => "a keyframes rule"
  | .keyframesStep => "a keyframes step"
  | .propertyMapping => "a property mapping"

/-- What is wrong with a payload. -/
inductive Cause where
  /-- A part has another shape than it must have. -/
  | misshapen (part : Part) (found : Shape)
  | featureNotLiteral (found : Shape)
  | queryWithoutCss
  | ruleWithoutName
  | ruleWithoutSteps
  | percentageWithoutCss
  | stepIncomplete
  deriving DecidableEq, Repr

/-- A cause in words. -/
def Cause.describe : Cause → String
  | .misshapen part found => s!"expected {part.describe}, found {found.describe}"
  | .featureNotLiteral found => s!"media feature value must be a literal, found {found.describe}"
  | .queryWithoutCss => "media query without a `css` payload"
  | .ruleWithoutName => "keyframes rule without a `name`"
  | .ruleWithoutSteps => "expected a list of keyframes steps"
  | .percentageWithoutCss => "percentage step without a `css` mapping"
  | .stepIncomplete => "keyframes step needs either `from` and `to` or `percentage` and `css`"

/-- A payload that is not shaped as it must be, with the path of the part at fault. -/
structure Fault where
  path : String
  cause : Cause
  deriving DecidableEq, Repr

end Payload

/-! ### Errors -/

/-- The keys that are directives, whatever they stand next to. -/
inductive Directive.Reserved where
  | atRules
  | keyframes
  | mixins
  | media
  | overrides
  deriving DecidableEq, Repr

/-- A reserved key as it is written. -/
def Directive.Reserved.key : Directive.Reserved → String
  | .atRules => "atRules"
  | .keyframes => "keyframes"
  | .mixins => "mixins"
  | .media => "media"
  | .overrides => "overrides"

/-- The scopes that a directive can attach its output to. -/
inductive Host where
  | global
  | rule
  | globalOrMedia
  deriving DecidableEq, Repr

/-- A host as error messages name it. -/
def Host.describe : Host → String
  | .global => "global"
  | .rule => "rule"
  | .globalOrMedia => "global or media"

/-- What the value of a key must be. -/
inductive Expectation where
  | list
  | atRuleList
  | mixinMapping
  | overrideList
  | nestedBody
  | mixinBody
  | ruleBody
  | propertyLiteral
  deriving DecidableEq, Repr

/-- An expectation as error messages name it. -/
def Expectation.describe : Expectation → String
  | .list => "a list"
  | .atRuleList => "a list of at-rule strings"
  | .mixinMapping => "a mapping of mixin names"
  | .overrideList => "a list of property mappings"
  | .nestedBody => "a nested rule body"
  | .mixinBody => "a mixin rule body"
  | .ruleBody => "a rule body"
  | .propertyLiteral => "a literal property value"

/-- The ways in which a descriptor can fail to compile. -/
inductive CompileError where
  /-- A directive stands where no scope around it can take its output. -/
  | orphanedScope (directive : Directive.Reserved) (required : Host)
  /-- A nesting key has no selector after its marker. -/
  | invalidNesting (key : String)
  /-- A directive stands in the payload of a media query, where it has no meaning. -/
  | unsupportedNesting (directive : Directive.Reserved)
  /-- The value of a key has another shape than it must have. -/
  | unexpectedValue (key : String) (expected : Expectation) (found : Shape)
  /-- A media query or a keyframes rule is not shaped as it must be. -/
  | payload (fault : Payload.Fault)
  deriving DecidableEq, Repr

/-- The text of an error. -/
def CompileError.message : CompileError → String
  | .orphanedScope directive required =>
    s!"`{directive.key}` has no enclosing {required.describe} scope to attach to"
  | .invalidNesting key =>
    "Invalid nesting key `" ++ key ++ "`: expected a selector after `&`"
  | .unsupportedNesting directive =>
    s!"`{directive.key}` is not supported inside a media query payload"
  | .unexpectedValue key expected found =>
    s!"Unexpected value for `{key}`: expected {expected.describe}, found {found.describe}"
  | .payload fault => s!"Descriptor error at `{fault.path}`: {fault.cause.describe}"

end Stylesheet
