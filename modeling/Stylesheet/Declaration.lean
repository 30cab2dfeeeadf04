/-
Declarations.

* `Declaration.propertyName`: the name of a property, from a key written with capitals;
* `Declaration.text`: one declaration;
* `Declaration.textOf`: the declarations of a flat mapping, joined by semicolons.
-/
import Stylesheet.CompileError
import Stylesheet.Descriptor

namespace Stylesheet.Declaration

/-! ### Property names -/

/-- A capital letter is written as a hyphen and its small letter; any other character stands. -/
def hyphenated (c : Char) : List Char :=
  if c.isUpper then ['-', c.toLower] else [c]

/-- Whether a key starts with `ms` and a capital letter: the one vendor prefix whose keys start with
a small letter. -/
def hasSmallVendorPrefix : List Char → Bool
  | 'm' :: 's' :: c :: _ => c.isUpper
  | _ => false

/-- The name of a property. A hyphen goes before each capital letter, which becomes small, and
before the vendor prefix `ms`. Only the letters `A` to `Z` are capitals here. -/
def propertyName (key : String) : String :=
  let cs := key.toList
  String.ofList ((if hasSmallVendorPrefix cs then ['-'] else []) ++ cs.flatMap hyphenated)

/-! ### Declaration text -/

/-- One declaration: the name of the property, a colon, and the value. -/
def text (key : String) (value : Literal) : String :=
  propertyName key ++ ":" ++ value.css

/-- The declarations of a sequence of entries. Absent values are left out; what is no literal is
refused. -/
def textsOf : List (String × Value) → Except CompileError (List String)
  | [] => .ok []
  | (key, value) :: rest =>
    match value with
    | .absent => textsOf rest
    | .literal l => do
      let texts ← textsOf rest
      .ok (text key l :: texts)
    | other => .error (.unexpectedValue key .propertyLiteral other.shape)

/-- The declarations of a flat mapping, joined by semicolons. -/
def textOf (mapping : Descriptor) : Except CompileError String := do
  let texts ← textsOf mapping.entries
  .ok (";".intercalate texts)

end Stylesheet.Declaration
