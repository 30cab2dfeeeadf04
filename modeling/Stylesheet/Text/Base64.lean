/-
Base64 text.

* `Base64.symbol`: the 64 symbols, by value;
* `Base64.encode`: three bytes become four symbols, and a last group that is short is filled up
  with `=`.
-/

namespace Stylesheet.Base64

/-- The symbols in the order of their values. -/
def alphabet : List Char :=
  "ABCDEFGHIJKLMNOPQRSTUVWXYZabcdefghijklmnopqrstuvwxyz0123456789+/".toList

/-- The symbol of the last six bits of a number. -/
def symbol (n : Nat) : Char :=
  alphabet.getD (n % 64) 'A'

/-- The fill that stands for bytes that are not there. -/
def pad : Char := '='

/-- The symbols of a sequence of bytes. -/
def encodeBytes : List UInt8 → List Char
  | [] => []
  | [a] =>
    let n := a.toNat * 65536
    [symbol (n / 262144), symbol (n / 4096), pad, pad]
  | [a, b] =>
    let n := a.toNat * 65536 + b.toNat * 256
    [symbol (n / 262144), symbol (n / 4096), symbol (n / 64), pad]
  | a :: b :: c :: rest =>
    let n := a.toNat * 65536 + b.toNat * 256 + c.toNat
    symbol (n / 262144) :: symbol (n / 4096) :: symbol (n / 64) :: symbol n :: encodeBytes rest

/-- The text of a sequence of bytes. -/
def encode (bytes : List UInt8) : String :=
  String.ofList (encodeBytes bytes)

/-- The text of the bytes of a text in UTF-8. -/
def encodeText (s : String) : String :=
  encode s.toUTF8.data.toList

end Stylesheet.Base64
