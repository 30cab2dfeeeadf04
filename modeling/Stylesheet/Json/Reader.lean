/-
Descriptors from JSON text.

* `Json.Scalar`: a value without parts, and `Json.readScalar`;
* `Json.readSequence`: the elements between two brackets, whatever an element is;
* `Json.readValue`: a value, at most so many brackets deep;
* `Value.ofJson`, `Descriptor.ofJson`: the value, or the descriptor, of a whole text.

A null is an absent value, and the words `true` and `false` are texts. A key that is repeated keeps
its first place and takes its last value.
-/
import Stylesheet.Descriptor
import Stylesheet.Json.Numeral
import Stylesheet.Json.Text

namespace Stylesheet.Json

/-! ### Scalars -/

/-- The characters that may stand between the tokens of a text. -/
def isSpace (c : Char) : Bool :=
  c == ' ' || c == '\n' || c == '\t' || c == '\r'

/-- A text without the space at its start. -/
def skipSpace (text : List Char) : List Char :=
  text.dropWhile isSpace

/-- A value without parts. -/
inductive Scalar where
  | null
  | boolean (b : Bool)
  | number (x : Number)
  | text (s : String)

/-- A scalar as a value of a descriptor. -/
def Scalar.value : Scalar → Value
  | .null => .absent
  | .boolean b => .literal (.text (if b then "true" else "false"))
  | .number x => .literal (.number x.toFloat)
  | .text s => .literal (.text s)

/-- A scalar as a finding. -/
def Scalar.found : Scalar → Found
  | .null => .null
  | .boolean b => .boolean b
  | .number (.integer n) => .integer n
  | .number (.fraction x) => .fraction x
  | .text s => .text s

/-- Reads the letters of a word, and gives the scalar that the word stands for. -/
def readWord (scalar : Scalar) : List Char → List Char → Except Fault (Scalar × List Char)
  | [], rest => .ok (scalar, rest)
  | _ :: _, [] => .error (.atEnd .endInValue)
  | letter :: letters, c :: rest =>
    if c = letter then readWord scalar letters rest else .error (.at .noWord (c :: rest))

/-- Reads a scalar from the start of a text. -/
def readScalar (text : List Char) : Except Fault (Scalar × List Char) :=
  match text with
  | [] => .error (.atEnd .endInValue)
  | 'n' :: rest => readWord .null ['u', 'l', 'l'] rest
  | 't' :: rest => readWord (.boolean true) ['r', 'u', 'e'] rest
  | 'f' :: rest => readWord (.boolean false) ['a', 'l', 's', 'e'] rest
  | '"' :: rest => do
    let (cs, rest) ← readText .none rest
    .ok (.text (String.ofList cs), rest)
  | c :: _ =>
    if c = '-' ∨ c.isDigit then do
      let (x, rest) ← readNumber text
      .ok (.number x, rest)
    else .error (.at .noValue text)

/-! ### Sequences -/

/-- What is said of a sequence of elements in brackets. -/
structure Brackets where
  close : Char
  unfinished : Cause
  noCommaOrEnd : Cause

/-- The brackets of a list. -/
def listBrackets : Brackets := ⟨']', .endInList, .noListCommaOrEnd⟩

/-- The brackets of an object. -/
def objectBrackets : Brackets := ⟨'\x7d', .endInObject, .noObjectCommaOrEnd⟩

/-- The text of the next element, past the comma that goes before each element but the first. -/
def nextElement (b : Brackets) (first : Bool) (c : Char) (rest : List Char) :
    Except Fault (List Char) :=
  if first then .ok (c :: rest)
  else if c = ',' then
    match skipSpace rest with
    | [] => .error (.atEnd .endInValue)
    | d :: after =>
      if d = b.close then .error (.at .trailingComma (d :: after)) else .ok (d :: after)
  else .error (.at b.noCommaOrEnd (c :: rest))

/-- Reads elements up to the closing bracket. An element takes at least one character, so that the
length of the text bounds the number of rounds. -/
def readSequence {α : Type} (b : Brackets)
    (element : List Char → Except Fault (α × List Char)) :
    Bool → Nat → List Char → Except Fault (List α × List Char)
  | _, 0, _ => .error (.atEnd b.unfinished)
  | first, rounds + 1, text =>
    match skipSpace text with
    | [] => .error (.atEnd b.unfinished)
    | c :: rest =>
      if c = b.close then .ok ([], rest)
      else do
        let text ← nextElement b first c rest
        let (x, rest) ← element text
        let (xs, rest) ← readSequence b element false rounds rest
        .ok (x :: xs, rest)

/-- Reads the elements after an opening bracket. -/
def readElements {α : Type} (b : Brackets)
    (element : List Char → Except Fault (α × List Char)) (text : List Char) :
    Except Fault (List α × List Char) :=
  readSequence b element true (text.length + 1) text

/-- Reads the colon after a key. -/
def readColon (text : List Char) : Except Fault (List Char) :=
  match skipSpace text with
  | [] => .error (.atEnd .endInObject)
  | ':' :: rest => .ok rest
  | c :: rest => .error (.at .noColon (c :: rest))

/-- Reads a key, a colon and a value. -/
def readEntry (value : List Char → Except Fault (Value × List Char)) (text : List Char) :
    Except Fault ((String × Value) × List Char) :=
  match text with
  | '"' :: rest => do
    let (cs, rest) ← readText .none rest
    let rest ← readColon rest
    let (v, rest) ← value rest
    .ok ((String.ofList cs, v), rest)
  | _ => .error (.at .keyNotText text)

/-! ### Values -/

/-- Reads a value in which brackets are nested at most so deep. -/
def readValue : Nat → List Char → Except Fault (Value × List Char)
  | depth, text =>
    match skipSpace text with
    | '[' :: rest =>
      match depth with
      | 0 => .error (.at .nestedTooDeeply ('[' :: rest))
      | inner + 1 => do
        let (items, rest) ← readElements listBrackets (readValue inner) rest
        .ok (.list items, rest)
    | '\x7b' :: rest =>
      match depth with
      | 0 => .error (.at .nestedTooDeeply ('\x7b' :: rest))
      | inner + 1 => do
        let (entries, rest) ← readElements objectBrackets (readEntry (readValue inner)) rest
        .ok (.block (Descriptor.ofList entries).entries, rest)
    | scalar => do
      let (s, rest) ← readScalar scalar
      .ok (s.value, rest)

/-- The number of brackets that may be open at once. -/
def maxDepth : Nat := 127

/-- Reads a descriptor. A scalar in its place is read to its end before it is refused, a list is
refused at its bracket. -/
def readDescriptor (text : List Char) : Except Fault (Descriptor × List Char) :=
  match skipSpace text with
  | '\x7b' :: rest => do
    let (entries, rest) ← readElements objectBrackets (readEntry (readValue (maxDepth - 1))) rest
    .ok (Descriptor.ofList entries, rest)
  | '[' :: rest => .error ⟨.notMapping .sequence, '[' :: rest, 0⟩
  | scalar => do
    let (s, rest) ← readScalar scalar
    .error ⟨.notMapping s.found, rest, 0⟩

/-- Reads a whole text, with nothing but space after what is read. -/
def readAll {α : Type} (read : List Char → Except Fault (α × List Char)) (source : String) :
    Except Fault α := do
  let (x, rest) ← read source.toList
  match skipSpace rest with
  | [] => .ok x
  | c :: after => .error (.at .trailingCharacters (c :: after))

end Json

/-- The value of a JSON text. -/
def Value.ofJson (source : String) : Except Json.Fault Value :=
  Json.readAll (Json.readValue Json.maxDepth) source

/-- The descriptor of a JSON text. -/
def Descriptor.ofJson (source : String) : Except Json.Fault Descriptor :=
  Json.readAll Json.readDescriptor source

end Stylesheet
