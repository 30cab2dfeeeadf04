/-
JSON text of plans.

* `Json.Document`: texts, arrays and objects;
* `Json.Document.pretty`: a document over several lines, two spaces further in for each bracket;
* `Tree.document`: a tree of scopes as a document, without the lists that are empty.
-/
import Stylesheet.Plan.Tree

namespace Stylesheet

namespace Json

/-- A JSON value of the kinds that plans are written with. -/
inductive Document where
  | text (s : String)
  | array (items : List Document)
  | object (fields : List (String × Document))

/-! ### Texts -/

/-- A code point below 256 as four hexadecimal digits. -/
def fourDigits (n : Nat) : List Char :=
  ['0', '0', Nat.digitChar (n / 16), Nat.digitChar (n % 16)]

/-- A character as it stands between quotes. Only quotes, backslashes and control characters below
the space are escaped. -/
def escape (c : Char) : List Char :=
  match c with
  | '"' => ['\\', '"']
  | '\\' => ['\\', '\\']
  | '\x08' => ['\\', 'b']
  | '\t' => ['\\', 't']
  | '\n' => ['\\', 'n']
  | '\x0c' => ['\\', 'f']
  | '\r' => ['\\', 'r']
  | _ => if c.toNat < 0x20 then '\\' :: 'u' :: fourDigits c.toNat else [c]

/-- A text between quotes. -/
def textOf (s : String) : String :=
  String.ofList ('"' :: (s.toList.flatMap escape ++ ['"']))

/-! ### Layout -/

/-- The start of a line. -/
def indent (depth : Nat) : String :=
  String.ofList (List.replicate (2 * depth) ' ')

/-- Lines between brackets, with commas between them. Brackets with nothing in them close at once.
-/
def bracketed (opening closing : String) (depth : Nat) (lines : List String) : String :=
  if lines.isEmpty then opening ++ closing
  else
    opening ++ "\n" ++ ",\n".intercalate (lines.map fun l => indent (depth + 1) ++ l)
      ++ "\n" ++ indent depth ++ closing

mutual

/-- A document whose first line starts at a depth. -/
def Document.pretty (depth : Nat) : Document → String
  | .text s => textOf s
  | .array items => bracketed "[" "]" depth (Document.prettyItems (depth + 1) items)
  | .object fields => bracketed "\x7b" "\x7d" depth (Document.prettyFields (depth + 1) fields)

/-- The items of an array. -/
def Document.prettyItems (depth : Nat) : List Document → List String
  | [] => []
  | d :: rest => d.pretty depth :: Document.prettyItems depth rest

/-- The fields of an object. -/
def Document.prettyFields (depth : Nat) : List (String × Document) → List String
  | [] => []
  | (key, d) :: rest =>
    (textOf key ++ ": " ++ d.pretty depth) :: Document.prettyFields depth rest

end

end Json

/-! ### Plans -/

/-- A field for a list, unless the list is empty. -/
def Json.Document.listField (key : String) (items : List Json.Document) :
    List (String × Json.Document) :=
  if items.isEmpty then [] else [(key, .array items)]

mutual

/-- A tree of scopes as a document. -/
def Tree.document : Tree → Json.Document
  | .node _ s ts =>
    .object <|
      ("kind", .text s.kind.name) :: ("fragment", .text s.fragment)
        :: (Json.Document.listField "declarations" (s.declarations.map .text)
          ++ Json.Document.listField "children" (Tree.documents ts))

/-- Some trees as documents. -/
def Tree.documents : List Tree → List Json.Document
  | [] => []
  | t :: ts => t.document :: Tree.documents ts

end

end Stylesheet
