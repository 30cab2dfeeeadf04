/-
Numbers in JSON text.

* `Numeral`: a number as it is written, and `Numeral.read`, which takes one from a text;
* `Numeral.value`: its value. Whole numbers of 64 bits are exact. Any other number is taken as a
  significand of 64 bits and a power of ten, put together by one operation on doubles, and so may be
  off by one unit in the last place.
-/
import Stylesheet.Json.Fault

namespace Stylesheet.Json

/-! ### Written numbers -/

/-- A number as it is written, as digits before and after the point and in the exponent. A number
without a point has no digits after it. -/
structure Numeral where
  negative : Bool
  whole : List Nat
  fraction : List Nat
  /-- The sign and the digits of the exponent. -/
  exponent : Option (Bool × List Nat)
  deriving DecidableEq, Repr

/-- The value of a decimal digit. -/
def digit? (c : Char) : Option Nat :=
  if c.isDigit then some (c.toNat - '0'.toNat) else none

/-- The digits at the start of a text, and what comes after them. -/
def takeDigits : List Char → List Nat × List Char
  | [] => ([], [])
  | c :: rest =>
    match digit? c with
    | some d => let (ds, after) := takeDigits rest; (d :: ds, after)
    | none => ([], c :: rest)

/-- The digits at the start of a text that must have one. A character that is none is at fault. -/
def needDigits (text : List Char) : Except Fault (List Nat × List Char) :=
  match takeDigits text with
  | ([], []) => .error (.atEnd .endInValue)
  | ([], rest) => .error (.at .invalidNumber rest)
  | found => .ok found

namespace Numeral

/-- Reads the digits before the point. No digit comes after a zero at the start. -/
def readWhole (text : List Char) : Except Fault (List Nat × List Char) :=
  match text with
  | '0' :: rest =>
    match takeDigits rest with
    | ([], _) => .ok ([0], rest)
    | _ => .error (.at .invalidNumber rest)
  | _ => needDigits text

/-- Reads the point and the digits after it, if there is a point. -/
def readFraction : List Char → Except Fault (List Nat × List Char)
  | '.' :: rest => needDigits rest
  | text => .ok ([], text)

/-- Reads the exponent after its letter: a sign, which may be left out, and digits. -/
def readSigned (text : List Char) : Except Fault (Option (Bool × List Nat) × List Char) := do
  let (negative, digits) :=
    match text with
    | '+' :: rest => (false, rest)
    | '-' :: rest => (true, rest)
    | _ => (false, text)
  let (ds, rest) ← needDigits digits
  .ok (some (negative, ds), rest)

/-- Reads the exponent, if there is one. -/
def readExponent : List Char → Except Fault (Option (Bool × List Nat) × List Char)
  | 'e' :: rest => readSigned rest
  | 'E' :: rest => readSigned rest
  | text => .ok (none, text)

/-- Reads a number from the start of a text. -/
def read (text : List Char) : Except Fault (Numeral × List Char) := do
  let (negative, text) :=
    match text with
    | '-' :: rest => (true, rest)
    | _ => (false, text)
  let (whole, text) ← readWhole text
  let (fraction, text) ← readFraction text
  let (exponent, text) ← readExponent text
  .ok (⟨negative, whole, fraction, exponent⟩, text)

end Numeral

/-! ### Values -/

/-- The value of a written number. -/
inductive Number where
  | integer (n : Int)
  | fraction (x : Float)

/-- A number as a double. -/
def Number.toFloat : Number → Float
  | .integer n => Float.ofInt n
  | .fraction x => x

/-- Appends digits to a number as long as it stays at most `limit`, and counts the digits from the
first one on that does not fit. -/
def append (limit : Nat) : Nat → List Nat → Nat × Nat
  | n, [] => (n, 0)
  | n, d :: ds =>
    if n * 10 + d ≤ limit then append limit (n * 10 + d) ds else (n, ds.length + 1)

/-- The greatest significand. -/
def maxSignificand : Nat := Nat.pow 2 64 - 1

/-- The greatest exponent that is taken at its value. -/
def maxExponent : Nat := Nat.pow 2 31 - 1

/-- A power of ten as a double, for exponents up to 308. -/
def powerOfTen (exponent : Nat) : Float :=
  Float.ofScientific 1 false exponent

/-- The double `x · 10 ^ exponent` by one operation, after as many divisions by `10 ^ 308` as it
takes to come into its range; nothing if it is too large. -/
def scaled (x : Float) (exponent : Int) : Option Float :=
  if exponent.natAbs ≤ 308 then
    if 0 ≤ exponent then
      let y := x * powerOfTen exponent.natAbs
      if y.isInf then none else some y
    else some (x / powerOfTen exponent.natAbs)
  else if x == 0 then some x
  else if 0 ≤ exponent then none
  else scaled (x / powerOfTen 308) (exponent + 308)
termination_by exponent.natAbs
decreasing_by omega

namespace Numeral

/-- A double with the sign of a numeral. -/
def signed (n : Numeral) (x : Float) : Float :=
  if n.negative then -x else x

/-- A number without point and exponent. It is an integer if it fits the 64 bits of one of its sign;
a negative zero does not. -/
def integer? (n : Numeral) : Option Int :=
  if n.fraction.isEmpty ∧ n.exponent.isNone then
    let (size, dropped) := append maxSignificand 0 n.whole
    if 0 < dropped then none
    else if n.negative then if 0 < size ∧ size ≤ Nat.pow 2 63 then some (-size) else none
    else some size
  else none

/-- The significand of a number and the power of ten that goes with it, its exponent left aside.
Digits that do not fit are dropped; those before the point raise the power. -/
def parts (n : Numeral) : Nat × Int :=
  let (high, droppedHigh) := append maxSignificand 0 n.whole
  let (all, droppedLow) := append maxSignificand high n.fraction
  (all, (droppedHigh : Int) - ((n.fraction.length - droppedLow : Nat) : Int))

/-- The value of a number. One that is out of range is at fault where its digits end, or where its
exponent gets too large: the answer then is the number of digits behind that place. -/
def value (n : Numeral) : Except Nat Number :=
  match n.integer? with
  | some i => .ok (.integer i)
  | none =>
    let (significand, power) := n.parts
    match n.exponent with
    | none => finish significand power
    | some (negative, digits) =>
      match append maxExponent 0 digits with
      | (e, 0) => finish significand (if negative then power - e else power + e)
      | (_, dropped) =>
        if significand ≠ 0 ∧ !negative then .error (dropped - 1)
        else .ok (.fraction (n.signed 0))
where
  /-- The double of a significand and a power of ten, with the sign of the number. -/
  finish (significand : Nat) (power : Int) : Except Nat Number :=
    match scaled (Float.ofNat significand) power with
    | some x => .ok (.fraction (n.signed x))
    | none => .error 0

end Numeral

/-- Reads a number and its value from the start of a text. -/
def readNumber (text : List Char) : Except Fault (Number × List Char) := do
  let (n, rest) ← Numeral.read text
  match n.value with
  | .ok x => .ok (x, rest)
  | .error behind =>
    -- The digits behind the place at fault are the last ones before the rest.
    let size := text.length - rest.length
    .error ⟨.numberOutOfRange, text.drop (size - behind), 0⟩

end Stylesheet.Json
