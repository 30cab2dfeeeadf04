/-
Faults of JSON text.

* `Json.Cause`: what is wrong with a text;
* `Json.Fault`: a cause and the text that was still unread when it showed;
* `Json.Position`: a line and a column, counted in bytes of UTF-8;
* `Json.Fault.message`: a fault in words, with its position in the whole text.
-/
import Stylesheet.Decimal.Shortest
import Stylesheet.Text.Quoted

namespace Stylesheet.Json

/-! ### Causes -/

/-- What a text holds where a mapping must be. -/
inductive Found where
  | null
  | boolean (b : Bool)
  | integer (n : Int)
  | fraction (x : Float)
  | text (s : String)
  | sequence

/-- A finding in words. -/
def Found.describe : Found → String
  | .null => "null"
  | .boolean b => "boolean `" ++ (if b then "true" else "false") ++ "`"
  | .integer n => "integer `" ++ toString n ++ "`"
  | .fraction x => "floating point `" ++ Decimal.fractional x ++ "`"
  | .text s => "string " ++ Text.quoted s
  | .sequence => "sequence"

/-- What is wrong with a text. All but the last make it no JSON text at all, or one that is nested
too deeply or has a number out of range. -/
inductive Cause where
  | endInValue
  | endInList
  | endInObject
  | endInText
  | noColon
  | noListCommaOrEnd
  | noObjectCommaOrEnd
  | noWord
  | noValue
  | invalidEscape
  | invalidNumber
  | numberOutOfRange
  | loneSurrogate
  | endOfEscape
  | controlCharacter
  | keyNotText
  | trailingComma
  | trailingCharacters
  | nestedTooDeeply
  /-- The text is JSON as far as it was read, but holds something else than a mapping. -/
  | notMapping (found : Found)

/-- A cause in words. -/
def Cause.describe : Cause → String
  | .endInValue => "EOF while parsing a value"
  | .endInList => "EOF while parsing a list"
  | .endInObject => "EOF while parsing an object"
  | .endInText => "EOF while parsing a string"
  | .noColon => "expected `:`"
  | .noListCommaOrEnd => "expected `,` or `]`"
  | .noObjectCommaOrEnd => "expected `,` or `\x7d`"
  | .noWord => "expected ident"
  | .noValue => "expected value"
  | .invalidEscape => "invalid escape"
  | .invalidNumber => "invalid number"
  | .numberOutOfRange => "number out of range"
  | .loneSurrogate => "lone leading surrogate in hex escape"
  | .endOfEscape => "unexpected end of hex escape"
  | .controlCharacter => "control character (\\u0000-\\u001F) found while parsing a string"
  | .keyNotText => "key must be a string"
  | .trailingComma => "trailing comma"
  | .trailingCharacters => "trailing characters"
  | .nestedTooDeeply => "recursion limit exceeded"
  | .notMapping found => "invalid type: " ++ found.describe ++ ", expected a style mapping"

/-! ### Positions -/

/-- A position in a text: the line, counted from one, and the number of bytes before it on its line.
-/
structure Position where
  line : Nat := 1
  column : Nat := 0
  deriving DecidableEq, Repr

/-- The position after a character. -/
def Position.advance (p : Position) (c : Char) : Position :=
  if c = '\n' then ⟨p.line + 1, 0⟩ else ⟨p.line, p.column + c.utf8Size⟩

/-- The position some bytes into a text, or at its end. It may be within a character. -/
def Position.skip (p : Position) : Nat → List Char → Position
  | _, [] => p
  | bytes, c :: rest =>
    if c.utf8Size ≤ bytes then (p.advance c).skip (bytes - c.utf8Size) rest
    else ⟨p.line, p.column + bytes⟩

/-- A fault of a text: its cause, the text that was unread, and how many bytes of it the position of
the fault takes in. -/
structure Fault where
  cause : Cause
  unread : List Char
  ahead : Nat := 0

/-- The fault that the next character gives rise to. -/
def Fault.at (cause : Cause) (unread : List Char) : Fault :=
  ⟨cause, unread, 1⟩

/-- The fault that a text ends too early. -/
def Fault.atEnd (cause : Cause) : Fault :=
  ⟨cause, [], 0⟩

/-- The position of a fault in the whole text. -/
def Fault.position (source : List Char) (fault : Fault) : Position :=
  let read := source.take (source.length - fault.unread.length)
  (read.foldl Position.advance {}).skip fault.ahead fault.unread

/-- A fault in words, with its position in the whole text. -/
def Fault.message (source : String) (fault : Fault) : String :=
  let p := fault.position source.toList
  fault.cause.describe ++ " at line " ++ toString p.line ++ " column " ++ toString p.column

end Stylesheet.Json
