/-
The command line.

* `Command`: what can be asked for, and `Invocation`, a command with what goes for all of them;
* `Arguments.parse`: the invocation that some arguments stand for.

Options and positional arguments may come in any order behind the name of a command. A value comes
after an equals sign, or as the next argument, which then must not look like an option; the value of
a letter may also come right behind it. After `--` every argument is positional. No option may be
given twice, but `-v` may stand before the name of the command and behind it.
-/

namespace Stylesheet

/-- What can be asked for. The seed is the key that names are encoded behind. -/
inductive Command where
  /-- Compile a descriptor into a file. -/
  | build (path : String) (seed output : Option String)
  /-- Show the plan of a descriptor. -/
  | explain (path : String) (seed : Option String)
  /-- Compile a descriptor and show nothing but its faults. -/
  | check (path : String)
  deriving DecidableEq, Repr

/-- The file that a command reads. -/
def Command.path : Command → String
  | .build path _ _ => path
  | .explain path _ => path
  | .check path => path

/-- A command, and whether to tell what is done. -/
structure Invocation where
  verbose : Bool
  command : Command
  deriving DecidableEq, Repr

namespace Arguments

/-! ### Single arguments -/

/-- The names of the commands. -/
inductive Name where
  | build
  | explain
  | check
  deriving DecidableEq, Repr

/-- The command of a name. -/
def Name.ofText? : String → Option Name
  | "build" => some .build
  | "explain" => some .explain
  | "check" => some .check
  | _ => none

/-- The word that asks for help in the place of a command. Behind it may stand one name, of what
help is asked with: a command, or help itself. -/
def helpWord : String := "help"

/-- Whether help can be asked with something of that name. -/
def isTopic (text : String) : Bool :=
  (Name.ofText? text).isSome || text == helpWord

/-- The options that take a value. -/
inductive Valued where
  | seed
  | output
  deriving DecidableEq, Repr

/-- Whether a command takes an option. -/
def Name.takes : Name → Valued → Bool
  | .build, _ => true
  | .explain, .seed => true
  | _, _ => false

/-- An argument by its looks. -/
inductive Argument where
  /-- The mark `--`. -/
  | close
  /-- An option by name, and what stands after its equals sign. -/
  | long (name : String) (value : Option String)
  /-- Options by letter. -/
  | letters (cs : List Char)
  /-- Anything else, a single hyphen among it. -/
  | plain (text : String)
  deriving DecidableEq, Repr

/-- What stands before the first equals sign, and what stands after it. -/
def splitValue (cs : List Char) : String × Option String :=
  let name := cs.takeWhile (· != '=')
  match cs.dropWhile (· != '=') with
  | [] => (String.ofList name, none)
  | _ :: value => (String.ofList name, some (String.ofList value))

/-- An argument by its looks. -/
def Argument.ofText (text : String) : Argument :=
  match text.toList with
  | ['-', '-'] => .close
  | '-' :: '-' :: cs => let (name, value) := splitValue cs; .long name value
  | '-' :: c :: cs => .letters (c :: cs)
  | _ => .plain text

/-! ### All arguments -/

/-- Why arguments stand for no invocation. -/
inductive Stop where
  /-- The version is asked for. -/
  | version
  /-- Help is asked for. -/
  | help
  /-- They break a rule. -/
  | misuse
  deriving DecidableEq, Repr

/-- What was given so far. -/
structure Given where
  name : Option Name := none
  /-- Whether `-v` stood before the name of the command. -/
  verboseBefore : Bool := false
  /-- Whether `-v` stood behind the name of the command. -/
  verboseBehind : Bool := false
  path : Option String := none
  seed : Option String := none
  output : Option String := none
  /-- The option whose value comes next. -/
  pending : Option Valued := none
  /-- Whether all that comes is positional. -/
  closed : Bool := false
  /-- Whether help was asked for by its word. -/
  helped : Bool := false
  /-- Whether the word for help was followed by what help is asked with. -/
  topical : Bool := false

namespace Given

/-- Takes `-v`. -/
def takeVerbose (g : Given) : Except Stop Given :=
  if g.name.isNone then
    if g.verboseBefore then .error .misuse else .ok { g with verboseBefore := true }
  else if g.verboseBehind then .error .misuse
  else .ok { g with verboseBehind := true }

/-- Takes the value of an option. -/
def takeValue (g : Given) (option : Valued) (value : String) : Except Stop Given :=
  match option with
  | .seed => if g.seed.isSome then .error .misuse else .ok { g with seed := some value }
  | .output => if g.output.isSome then .error .misuse else .ok { g with output := some value }

/-- Takes an option whose value may be there already. -/
def takeOption (g : Given) (option : Valued) (value : Option String) : Except Stop Given :=
  if g.name.any fun name => name.takes option then
    match value with
    | some v => g.takeValue option v
    | none => .ok { g with pending := some option }
  else .error .misuse

/-- Takes an option by name. -/
def takeLong (g : Given) (name : String) (value : Option String) : Except Stop Given :=
  match name, value with
  | "verbose", none => g.takeVerbose
  | "help", none => .error .help
  | "version", none => .error (if g.name.isNone then .version else .misuse)
  | "seed", _ => g.takeOption .seed value
  | "output", _ => g.takeOption .output value
  | _, _ => .error .misuse

/-- Takes options by letter. -/
def takeLetters (g : Given) : List Char → Except Stop Given
  | [] => .ok g
  | 'v' :: rest => do (← g.takeVerbose).takeLetters rest
  | 'h' :: _ => .error .help
  | 'V' :: _ => .error (if g.name.isNone then .version else .misuse)
  | ['o'] => g.takeOption .output none
  | 'o' :: '=' :: value => g.takeOption .output (some (String.ofList value))
  | 'o' :: value => g.takeOption .output (some (String.ofList value))
  | _ => .error .misuse

/-- Takes a positional argument: the name of a command first, then its path. -/
def takePlain (g : Given) (text : String) : Except Stop Given :=
  match g.name, g.path with
  | none, _ =>
    match Name.ofText? text with
    | some name => if g.closed then .error .misuse else .ok { g with name := some name }
    | none =>
      if text = helpWord ∧ !g.closed then .ok { g with helped := true } else .error .misuse
  | some _, none => .ok { g with path := some text }
  | some _, some _ => .error .misuse

/-- Takes an argument behind the word for help. -/
def takeTopic (g : Given) (text : String) : Except Stop Given :=
  if !g.topical && isTopic text then .ok { g with topical := true } else .error .misuse

/-- Takes the next argument. -/
def take (g : Given) (text : String) : Except Stop Given :=
  if g.helped then g.takeTopic text
  else if g.closed then g.takePlain text
  else
    match g.pending, Argument.ofText text with
    | some option, .plain value => { g with pending := none }.takeValue option value
    | some _, _ => .error .misuse
    | none, .close => .ok { g with closed := true }
    | none, .long name value => g.takeLong name value
    | none, .letters cs => g.takeLetters cs
    | none, .plain text => g.takePlain text

/-- The invocation that was given; a seed that was not may come from elsewhere. -/
def finish (g : Given) (otherSeed : Option String) : Except Stop Invocation :=
  if g.helped then .error .help
  else match g.pending, g.name, g.path with
  | none, some name, some path =>
    let seed := g.seed.orElse fun _ => otherSeed
    let command :=
      match name with
      | .build => .build path seed g.output
      | .explain => .explain path seed
      | .check => .check path
    .ok ⟨g.verboseBefore || g.verboseBehind, command⟩
  | _, _, _ => .error .misuse

end Given

/-- The invocation that some arguments stand for. Where they give no seed, the one of the
environment is taken. -/
def parse (environmentSeed : Option String) (args : List String) : Except Stop Invocation := do
  let given ← args.foldlM Given.take {}
  given.finish environmentSeed

end Arguments

end Stylesheet
