/-
The program: runs one command in the working directory, on the disk.
-/
import Stylesheet.Command.Response

namespace Stylesheet

/-- The fault that an error of the system is. -/
def FileFault.ofError : IO.Error → FileFault
  | .noFileOrDirectory _ _ _ => .noEntry
  | .inappropriateType _ 21 _ => .isFolder
  | .inappropriateType _ _ _ => .notFolder
  | .invalidArgument _ 36 _ => .nameTooLong
  | e => .other (toString e)

/-- The text of a file on the disk. -/
def readDisk (path : String) : IO (Except FileFault String) := do
  try
    match String.fromUTF8? (← IO.FS.readBinFile path) with
    | some text => return .ok text
    | none => return .error .notText
  catch e =>
    match FileFault.ofError e with
    | .notFolder => return .error .noEntry
    | fault => return .error fault

/-- Writes a text to a file on the disk. -/
def writeDisk (path text : String) : IO (Except FileFault Unit) := do
  try
    IO.FS.writeFile path text
    return .ok ()
  catch e => return .error (.ofError e)

/-- Writes an output to the two output channels, and gives its exit code. -/
def Output.put (output : Output) : IO UInt32 := do
  IO.print output.stdout
  IO.eprint output.stderr
  return UInt32.ofNat output.code

end Stylesheet

open Stylesheet in
/-- Runs the command that the arguments stand for. -/
def main (args : List String) : IO UInt32 := do
  match Arguments.parse (← IO.getEnv "STYLIGHT_SEED") args with
  | .error stop => stop.output.put
  | .ok invocation =>
    match invocation.respond (← readDisk invocation.command.path) with
    | .finished output => output.put
    | .writing w => (w.finish (← writeDisk w.path w.css)).put
