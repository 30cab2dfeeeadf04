/-
Keyframes rules.

* `Keyframes`: a named animation and its steps;
* `Keyframes.read`, `Keyframes.readList`: rules from descriptor values;
* `Keyframes.css`: the text of a rule.
-/
import Stylesheet.Declaration
import Stylesheet.Payload.Items
import Stylesheet.Text.Blank

namespace Stylesheet

/-- One step of an animation. -/
inductive Keyframes.Step where
  /-- The two ends of the animation. -/
  | ends (start finish : Descriptor)
  /-- A point between them, as a percentage written without its sign. -/
  | percentage (share : String) (css : Descriptor)

/-- A named animation. -/
structure Keyframes where
  name : String
  steps : List Keyframes.Step

namespace Keyframes

/-! ### Reading -/

/-- The mapping under a key of a step, if there is one. -/
def readMapping (step : Descriptor) (path key : String) :
    Except Payload.Fault (Option Descriptor) :=
  match step.get? key with
  | none => .ok none
  | some .absent => .ok none
  | some (.block entries) => .ok (some ⟨entries⟩)
  | some other => .error ⟨Path.field path key, .misshapen .propertyMapping other.shape⟩

/-- Reads a step. A literal percentage decides for a point between the ends; signs at its end are
dropped. -/
def readStep (value : Value) (path : String) : Except Payload.Fault Step :=
  match value.block? with
  | none => .error ⟨path, .misshapen .keyframesStep value.shape⟩
  | some step =>
    match step.literal? "percentage" with
    | some share => do
      match ← readMapping step path "css" with
      | some css => .ok (.percentage (Text.dropEnd (· == '%') share.css) css)
      | none => .error ⟨path, .percentageWithoutCss⟩
    | none => do
      match ← readMapping step path "from", ← readMapping step path "to" with
      | some start, some finish => .ok (.ends start finish)
      | _, _ => .error ⟨path, .stepIncomplete⟩

/-- The name of a rule: a literal that is not blank. -/
def name? (rule : Descriptor) : Option String :=
  ((rule.literal? "name").map Literal.css).filter fun name => !Text.allBlank name

/-- Reads a rule from a value. -/
def read (value : Value) (path : String) : Except Payload.Fault Keyframes :=
  match value.block? with
  | none => .error ⟨path, .misshapen .keyframesRule value.shape⟩
  | some rule =>
    match name? rule with
    | none => .error ⟨path, .ruleWithoutName⟩
    | some name =>
      match (rule.get? "steps").bind Value.list? with
      | none => .error ⟨Path.field path "steps", .ruleWithoutSteps⟩
      | some items => do
        let steps ← Payload.readItems readStep (Path.field path "steps") 0 items
        .ok ⟨name, steps⟩

/-- Reads a list of rules. -/
def readList : Value → String → Except Payload.Fault (List Keyframes) :=
  Payload.readList .keyframesList read

/-! ### Text -/

/-- A selector and, in braces, its declarations. -/
def block (selector : String) (css : Descriptor) : Except CompileError String := do
  let declarations ← Declaration.textOf css
  .ok (selector ++ " \x7b" ++ declarations ++ "\x7d")

/-- The text of one step. -/
def Step.css : Step → Except CompileError String
  | .ends start finish => do
    let first ← block "from" start
    let last ← block "to" finish
    .ok (first ++ last)
  | .percentage share css => block (share ++ "%") css

/-- The texts of some steps, one after another. -/
def stepsCss : List Step → Except CompileError String
  | [] => .ok ""
  | step :: rest => do
    let first ← step.css
    let others ← stepsCss rest
    .ok (first ++ others)

/-- The text of a rule, a complete at-rule. -/
def css (rule : Keyframes) : Except CompileError String := do
  let steps ← stepsCss rule.steps
  .ok ("@keyframes " ++ rule.name ++ "\x7b" ++ steps ++ "\x7d")

end Keyframes

end Stylesheet
