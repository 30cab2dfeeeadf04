/-
What the commands answer.

* `Output`: an exit code and the texts on the two output channels;
* `Invocation.respond`: the answer to an invocation, given what its file holds: an output, or a text
  to be written first;
* `Writing.finish`: the output after writing;
* `Arguments.Stop.output`: the output where there is no invocation;
* `Directory.run`: a whole command in a directory.
-/
import Stylesheet.Command.Arguments
import Stylesheet.Command.Directory
import Stylesheet.Json.Document
import Stylesheet.Json.Reader
import Stylesheet.Sheet

namespace Stylesheet

/-- An exit code, and the texts on standard output and on standard error. -/
structure Output where
  code : Nat
  stdout : String := ""
  stderr : String := ""
  deriving DecidableEq, Repr

/-- The output of a command that failed, after what it has told. -/
def Output.failed (told line : String) : Output :=
  { code := 1, stderr := told ++ line ++ "\n" }

/-- A stylesheet to be written, and what was told before. -/
structure Writing where
  path : String
  css : String
  verbose : Bool
  told : String

/-- The answer to an invocation. -/
inductive Response where
  | finished (output : Output)
  | writing (w : Writing)

/-! ### Telling -/

/-- A line that is told only if that was asked for. -/
def tell (verbose : Bool) (level target text : String) : String :=
  if verbose then "[" ++ level ++ " " ++ target ++ "] " ++ text ++ "\n" else ""

/-- The line on a plan that was built. -/
def tellPlan (verbose : Bool) (plan : Plan) : String :=
  tell verbose "DEBUG" "stylight_compiler::plan"
    ("built plan with " ++ toString plan.size ++ " scopes")

/-- The line on a stylesheet that was put together. -/
def tellCss (verbose : Bool) (plan : Plan) (css : String) : String :=
  tell verbose "DEBUG" "stylight_compiler::emit"
    ("emitted " ++ toString css.utf8ByteSize ++ " bytes from " ++ toString plan.size ++ " scopes")

/-- The line on a stylesheet that was written. -/
def tellWritten (verbose : Bool) (css : String) : String :=
  tell verbose "INFO " "stylight" ("wrote " ++ toString css.utf8ByteSize ++ " bytes")

/-! ### Commands -/

/-- The descriptor that a file holds, or the line on why there is none. -/
def descriptorOf (path : String) (content : Except FileFault String) :
    Except String Descriptor :=
  match content with
  | .error .noEntry => .error ("Error: file not found: " ++ path)
  | .error fault => .error ("Error reading " ++ path ++ ": " ++ fault.describe)
  | .ok source =>
    match Descriptor.ofJson source with
    | .ok d => .ok d
    | .error fault => .error ("Invalid descriptor in " ++ path ++ ": " ++ fault.message source)

/-- The plan of the descriptor that a file holds, or the line on why there is none. -/
def planOf (path : String) (seed : Seed) (content : Except FileFault String) :
    Except String Plan := do
  let d ← descriptorOf path content
  match Sheet.plan ⟨d, seed⟩ with
  | .ok plan => .ok plan
  | .error e => .error ("Compile error: " ++ e.message)

/-- The answer to a command, given what its file holds. -/
def Command.respond (verbose : Bool) (content : Except FileFault String) : Command → Response
  | .build path seed output =>
    match planOf path (.ofKey? seed) content with
    | .error line => .finished (.failed "" line)
    | .ok plan =>
      let css := plan.css
      .writing
        { path := output.getD (Directory.defaultOutput path)
          css := css
          verbose := verbose
          told := tellPlan verbose plan ++ tellCss verbose plan css }
  | .explain path seed =>
    match planOf path (.ofKey? seed) content with
    | .error line => .finished (.failed "" line)
    | .ok plan =>
      .finished
        { code := 0
          stdout := plan.tree.document.pretty 0 ++ "\n"
          stderr := tellPlan verbose plan }
  | .check path =>
    match planOf path .identity content with
    | .error line => .finished (.failed "" line)
    | .ok plan =>
      .finished { code := 0, stderr := tellPlan verbose plan ++ "OK: " ++ path ++ "\n" }

/-- The answer to an invocation, given what its file holds. -/
def Invocation.respond (invocation : Invocation) (content : Except FileFault String) : Response :=
  invocation.command.respond invocation.verbose content

/-- The output after an attempt to write. -/
def Writing.finish (w : Writing) : Except FileFault Unit → Output
  | .error fault => .failed w.told ("Error writing " ++ w.path ++ ": " ++ fault.describe)
  | .ok () =>
    { code := 0, stderr := w.told ++ tellWritten w.verbose w.css ++ "Built: " ++ w.path ++ "\n" }

/-! ### Help -/

/-- The help text. -/
def helpText : String :=
  "\n".intercalate
    ["stylight — compiles nested style descriptors into flat stylesheets",
      "",
      "Usage: stylight [OPTIONS] <COMMAND>",
      "",
      "Commands:",
      "  build    Compile a JSON style descriptor to CSS",
      "  explain  Print the scope tree built for a descriptor as JSON",
      "  check    Check a descriptor for errors without writing output",
      "  help     Print this message or the help of the given subcommand(s)",
      "",
      "Options:",
      "  -v, --verbose  Log compilation details",
      "  -h, --help     Print help",
      "  -V, --version  Print version",
      ""]

/-- The output where the arguments stand for no invocation. -/
def Arguments.Stop.output : Arguments.Stop → Output
  | .version => { code := 0, stdout := "stylight " ++ Stylesheet.version ++ "\n" }
  | .help => { code := 0, stdout := helpText }
  | .misuse => { code := 2, stderr := helpText }

/-! ### Runs -/

/-- Runs a command in a directory. The answer is the output and the directory after it. -/
def Directory.run (d : Directory) (environmentSeed : Option String) (args : List String) :
    Output × Directory :=
  match Arguments.parse environmentSeed args with
  | .error stop => (stop.output, d)
  | .ok invocation =>
    match invocation.respond (d.read invocation.command.path) with
    | .finished output => (output, d)
    | .writing w =>
      match d.write w.path w.css with
      | .ok after => (w.finish (.ok ()), after)
      | .error fault => (w.finish (.error fault), d)

end Stylesheet
