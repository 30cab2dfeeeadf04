/-
Sheets: descriptors bound to a seed.

* `Sheet.className`, `Sheet.classes`: class names that agree with the selectors of the sheet;
* `Sheet.plan`, `Sheet.css`: the compiled sheet;
* `Sheet.extend`: a sheet with further entries and the same seed.
-/
import Stylesheet.Plan.Build
import Stylesheet.Statement

namespace Stylesheet

/-- The version of the compiler. -/
def version : String := "0.4.0"

/-- A descriptor and the seed under which it is compiled. -/
structure Sheet where
  descriptor : Descriptor
  seed : Seed

namespace Sheet

/-- The tokens that are there, with spaces between them. -/
def joinTokens (tokens : List (Option String)) : String :=
  " ".intercalate (tokens.filterMap id)

/-- The class name for a token: that of the rule which it names, or else the token itself. -/
def className (sheet : Sheet) (token : String) : String :=
  if sheet.descriptor.contains token && !Directive.isReservedKey token then sheet.seed.apply token
  else token

/-- The class names for the tokens that are there, with spaces between them. -/
def classes (sheet : Sheet) (tokens : List (Option String)) : String :=
  joinTokens (tokens.map fun t => t.map sheet.className)

/-- The plan of a sheet. -/
def plan (sheet : Sheet) : Except CompileError Plan :=
  Plan.ofDescriptor sheet.descriptor sheet.seed

/-- The stylesheet of a sheet. -/
def css (sheet : Sheet) : Except CompileError String := do
  let plan ← sheet.plan
  .ok plan.css

/-- The sheet with the entries of another descriptor put in after its own. -/
def extend (sheet : Sheet) (extension : Descriptor) : Sheet :=
  { sheet with descriptor := sheet.descriptor.merge extension }

end Sheet

end Stylesheet
