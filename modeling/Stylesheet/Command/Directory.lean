/-
A directory as commands see it.

* `Directory`: files with their bytes, and folders, by the path from the working directory;
* `Directory.read`, `Directory.write`: what reading a text and writing one come to;
* `FileFault`: why they fail;
* `defaultOutput`: the path of a stylesheet next to its descriptor;
* `Directory.changes`: the files that are new or hold something else than before.

A path is walked name by name. Every name but the last must be that of a folder, a single point
stands for the folder it is in, and two points for the one around it. A name has at most 255 bytes,
and a path at most 4095. Nothing is known of what is around the working directory.
-/

namespace Stylesheet

/-- Why a file could not be read or written. -/
inductive FileFault where
  | noEntry
  | notFolder
  | isFolder
  | notText
  | nameTooLong
  /-- Another reason, in words. -/
  | other (reason : String)
  deriving DecidableEq, Repr

/-- A fault as messages name it. -/
def FileFault.describe : FileFault → String
  | .noEntry => "No such file or directory (os error 2)"
  | .notFolder => "Not a directory (os error 20)"
  | .isFolder => "Is a directory (os error 21)"
  | .notText => "stream did not contain valid UTF-8"
  | .nameTooLong => "File name too long (os error 36)"
  | .other reason => reason

/-- What stands under a name. -/
inductive DirectoryEntry where
  | file (bytes : ByteArray)
  | folder

/-- The files and folders under the working directory, each by the names on the way to it. -/
structure Directory where
  entries : List (List String × DirectoryEntry) := []

namespace Directory

/-! ### Walking -/

/-- Where a walk has come to. -/
inductive Spot where
  /-- The names on the way from the working directory. -/
  | inside (names : List String)
  /-- A folder around the working directory. -/
  | around
  /-- Somewhere else; nothing is known to be there. -/
  | elsewhere
  deriving DecidableEq, Repr

/-- What stands at a place in the directory. What is on the way to an entry is a folder. -/
def find? (d : Directory) (names : List String) : Option DirectoryEntry :=
  if names.isEmpty then some .folder
  else
    match d.entries.lookup names with
    | some e => some e
    | none =>
      if d.entries.any fun e => names.isPrefixOf e.1 then some .folder else none

/-- Checks that a walk has come to a folder. -/
def needFolder (d : Directory) : Spot → Except FileFault Unit
  | .around => .ok ()
  | .elsewhere => .error .noEntry
  | .inside names =>
    match d.find? names with
    | some .folder => .ok ()
    | some (.file _) => .error .notFolder
    | none => .error .noEntry

/-- Goes one name on. -/
def next (spot : Spot) (name : String) : Spot :=
  if name = "" ∨ name = "." then spot
  else
    match spot with
    | .elsewhere => .elsewhere
    | .around => if name = ".." then .around else .elsewhere
    | .inside names =>
      if name = ".." then if names.isEmpty then .around else .inside names.dropLast
      else .inside (names ++ [name])

/-- Walks along names. -/
def walk (d : Directory) : Spot → List String → Except FileFault Spot
  | spot, [] => .ok spot
  | spot, name :: rest => do
    d.needFolder spot
    if name.utf8ByteSize ≤ 255 then d.walk (next spot name) rest else .error .nameTooLong

/-- Where the names of a path start from. -/
def start (path : String) : Spot :=
  if path.startsWith "/" then .around else .inside []

/-- Walks along a path. -/
def locate (d : Directory) (path : String) : Except FileFault Spot :=
  if path.isEmpty then .error .noEntry
  else if path.utf8ByteSize ≤ 4095 then d.walk (start path) (path.splitOn "/")
  else .error .nameTooLong

/-! ### Reading and writing -/

/-- The text of a file. A path that leads nowhere is not told from a file that is not there. -/
def read (d : Directory) (path : String) : Except FileFault String :=
  match d.locate path with
  | .error _ => .error .noEntry
  | .ok .elsewhere => .error .noEntry
  | .ok .around => .error .isFolder
  | .ok (.inside names) =>
    match d.find? names with
    | none => .error .noEntry
    | some .folder => .error .isFolder
    | some (.file bytes) =>
      match String.fromUTF8? bytes with
      | some text => .ok text
      | none => .error .notText

/-- Puts a file in the place of what stands there. -/
def put (names : List String) (bytes : ByteArray) :
    List (List String × DirectoryEntry) → List (List String × DirectoryEntry)
  | [] => [(names, .file bytes)]
  | e :: rest => if e.1 = names then (names, .file bytes) :: rest else e :: put names bytes rest

/-- The names of a path up to the folder that its last name is looked for in, where the path ends in
slashes. -/
def namesBeforeLast (path : String) : List String :=
  ((path.splitOn "/").reverse.dropWhile String.isEmpty).reverse.dropLast

/-- The names of the file that a text can be written to. A path that ends in a slash names a folder,
be it there or not. -/
def target (d : Directory) (path : String) : Except FileFault (List String) := do
  if path.endsWith "/" ∧ path.utf8ByteSize ≤ 4095 then
    let folder ← d.walk (start path) (namesBeforeLast path)
    d.needFolder folder
    .error .isFolder
  else
    match ← d.locate path with
    | .elsewhere => .error .noEntry
    | .around => .error .isFolder
    | .inside names =>
      match d.find? names with
      | some .folder => .error .isFolder
      | _ => .ok names

/-- The directory after writing a text to a file. -/
def write (d : Directory) (path text : String) : Except FileFault Directory := do
  let names ← d.target path
  .ok ⟨put names text.toUTF8 d.entries⟩

/-! ### Names and changes -/

/-- A file name with its extension replaced. What stands before the last point is kept, but a point
at the start marks no extension. Where only two points would be left before the new extension, they
stand for the folder around and take none. -/
def withExtension (name : List Char) (extension : List Char) : List Char :=
  let behind := name.reverse.takeWhile (· != '.')
  let stem := name.take (name.length - behind.length - 1)
  if behind.length = name.length ∨ stem.isEmpty then name ++ '.' :: extension
  else if stem = ['.'] then ['.', '.']
  else stem ++ '.' :: extension

/-- The path of a stylesheet next to its descriptor. -/
def defaultOutput (path : String) : String :=
  let cs := path.toList
  let name := (cs.reverse.takeWhile (· != '/')).reverse
  String.ofList (cs.take (cs.length - name.length) ++ withExtension name ['c', 's', 's'])

/-- The files that are new, or hold something else than before, with their paths. -/
def changes (before after : Directory) : List (String × ByteArray) :=
  after.entries.filterMap fun e =>
    match e.2 with
    | .folder => none
    | .file bytes =>
      match before.entries.lookup e.1 with
      | some (.file old) =>
        if old.data = bytes.data then none else some ("/".intercalate e.1, bytes)
      | _ => some ("/".intercalate e.1, bytes)

end Directory

end Stylesheet
