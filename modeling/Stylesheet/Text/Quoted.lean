/-
Quoted text, for messages.

* `Text.escaped`: a character as it stands between quotes;
* `Text.quoted`: a text between quotes, with everything escaped that could not be seen.
-/
import Stylesheet.Text.Printable

namespace Stylesheet.Text

/-- A code point in hexadecimal digits, in braces. -/
def codeEscape (c : Char) : List Char :=
  '\\' :: 'u' :: '\x7b' :: (Nat.toDigits 16 c.toNat ++ ['\x7d'])

/-- A character as it stands between quotes. Quotes, backslashes and the common control characters
have escapes of their own. Characters that cannot be seen, or that would join the one before them,
are given by their code points. -/
def escaped (c : Char) : List Char :=
  match c with
  | '\x00' => ['\\', '0']
  | '\t' => ['\\', 't']
  | '\r' => ['\\', 'r']
  | '\n' => ['\\', 'n']
  | '"' => ['\\', '"']
  | '\\' => ['\\', '\\']
  | _ => if isPrintable c && !extendsGrapheme c then [c] else codeEscape c

/-- A text between quotes. -/
def quoted (s : String) : String :=
  String.ofList ('"' :: (s.toList.flatMap escaped ++ ['"']))

end Stylesheet.Text
