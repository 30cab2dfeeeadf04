/-
Blank space in text.

* `isBlank`: the characters with the Unicode property White_Space;
* `trimEnd`: a text without the blanks at its end;
* `allBlank`: a text with nothing but blanks in it.
-/

namespace Stylesheet.Text

/-- The 25 characters with the Unicode property White_Space. The zero-width space and the byte order
mark are not among them. -/
def isBlank (c : Char) : Bool :=
  let n := c.toNat
  (0x09 ≤ n && n ≤ 0x0D) || n == 0x20 || n == 0x85 || n == 0xA0 || n == 0x1680
    || (0x2000 ≤ n && n ≤ 0x200A) || n == 0x2028 || n == 0x2029 || n == 0x202F || n == 0x205F
    || n == 0x3000

/-- Drops every character at the end of a text that satisfies `p`. -/
def dropEnd (p : Char → Bool) (s : String) : String :=
  String.ofList (s.toList.reverse.dropWhile p).reverse

/-- Drops the blanks at the end of a text. -/
def trimEnd (s : String) : String :=
  dropEnd isBlank s

/-- Whether a text holds nothing but blanks. -/
def allBlank (s : String) : Bool :=
  s.toList.all isBlank

end Stylesheet.Text
