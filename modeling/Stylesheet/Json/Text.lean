/-
Texts in JSON.

* `Json.Escape`: where a reader stands between the characters of a text;
* `Json.readText`: the characters of a text up to its closing quote, one at a time.

An escape by code names a unit of UTF-16. A character outside the basic plane takes two of them, the
high one first; no other text has surrogates in it.
-/
import Stylesheet.Json.Fault

namespace Stylesheet.Json

/-- Where a reader stands between the characters of a text. -/
inductive Escape where
  /-- Outside of escapes. -/
  | none
  /-- After the backslash. -/
  | started
  /-- In the four digits of a code; a high surrogate may come before it. The digits that were seen
  come last first. -/
  | digits (high : Option Nat) (seen : List Nat)
  /-- After a high surrogate: the backslash of the low one comes next. -/
  | pair (high : Nat)
  /-- After that backslash: the letter comes next. -/
  | pairStarted (high : Nat)

/-- The character that an escape by letter stands for. -/
def letterEscape? : Char → Option Char
  | '"' => some '"'
  | '\\' => some '\\'
  | '/' => some '/'
  | 'b' => some '\x08'
  | 'f' => some '\x0c'
  | 'n' => some '\n'
  | 'r' => some '\r'
  | 't' => some '\t'
  | _ => none

/-- The value of a hexadecimal digit. -/
def hexDigit? (c : Char) : Option Nat :=
  if c.isDigit then some (c.toNat - '0'.toNat)
  else if 'a' ≤ c ∧ c ≤ 'f' then some (c.toNat - 'a'.toNat + 10)
  else if 'A' ≤ c ∧ c ≤ 'F' then some (c.toNat - 'A'.toNat + 10)
  else none

/-- Whether a unit of UTF-16 is a high surrogate. -/
def isHighSurrogate (n : Nat) : Bool :=
  0xD800 ≤ n && n ≤ 0xDBFF

/-- Whether a unit of UTF-16 is a low surrogate. -/
def isLowSurrogate (n : Nat) : Bool :=
  0xDC00 ≤ n && n ≤ 0xDFFF

/-- The character of a surrogate pair. -/
def ofPair (high low : Nat) : Char :=
  Char.ofNat ((high - 0xD800) * 0x400 + (low - 0xDC00) + 0x10000)

/-- The fault of a code with a character that is no digit, where `missing` digits are missing. Four
bytes are taken for the code before they are looked at. -/
def badCode (missing : Nat) (unread : List Char) : Fault :=
  if (String.ofList unread).utf8ByteSize < missing then .atEnd .endInText
  else ⟨.invalidEscape, unread, missing⟩

/-- Puts a character before what was read after it. -/
def andThen (c : Char) : Except Fault (List Char × List Char) →
    Except Fault (List Char × List Char)
  | .ok (cs, rest) => .ok (c :: cs, rest)
  | .error fault => .error fault

/-- Reads the characters of a text up to its closing quote. -/
def readText : Escape → List Char → Except Fault (List Char × List Char)
  | _, [] => .error (.atEnd .endInText)
  | .none, c :: rest =>
    if c = '"' then .ok ([], rest)
    else if c = '\\' then readText .started rest
    else if c.toNat < 0x20 then .error (.at .controlCharacter (c :: rest))
    else andThen c (readText .none rest)
  | .started, c :: rest =>
    if c = 'u' then readText (.digits .none []) rest
    else
      match letterEscape? c with
      | some d => andThen d (readText .none rest)
      | Option.none => .error (.at .invalidEscape (c :: rest))
  | .digits high seen, c :: rest =>
    match hexDigit? c with
    | Option.none => .error (badCode (4 - seen.length) (c :: rest))
    | some d =>
      match seen with
      | [d₃, d₂, d₁] =>
        let code := ((d₁ * 16 + d₂) * 16 + d₃) * 16 + d
        match high with
        | Option.none =>
          if isHighSurrogate code then readText (.pair code) rest
          else if isLowSurrogate code then .error ⟨.loneSurrogate, rest, 0⟩
          else andThen (Char.ofNat code) (readText .none rest)
        | some h =>
          if isLowSurrogate code then andThen (ofPair h code) (readText .none rest)
          else .error ⟨.loneSurrogate, rest, 0⟩
      | _ => readText (.digits high (d :: seen)) rest
  | .pair high, c :: rest =>
    if c = '\\' then readText (.pairStarted high) rest
    else .error (.at .endOfEscape (c :: rest))
  | .pairStarted high, c :: rest =>
    if c = 'u' then readText (.digits (some high) []) rest
    else .error (.at .endOfEscape (c :: rest))

end Stylesheet.Json
