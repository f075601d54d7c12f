import StackLowering.Text.Unprintable
import StackLowering.Text.Combining

/-!
Quoted text.  A string is written between double quotes, and every character
that would end the quotation, be taken for an escape, or not show by itself is
escaped.
-/

namespace StackLowering.Text

/-- Whether a character is written by its code point: it does not show, or it
would merge with the character before it. -/
def needsCodePoint (c : Char) : Bool :=
  combining.contains c.toNat || unprintable.contains c.toNat

/-- A code point in hexadecimal, between braces. -/
def codePointEscape (c : Char) : List Char :=
  "\\u\x7b".toList ++ Nat.toDigits 16 c.toNat ++ "\x7d".toList

/-- The form of a character inside quotes. -/
def escape (c : Char) : List Char :=
  match c with
  | '\x00' => ['\\', '0']
  | '\t' => ['\\', 't']
  | '\n' => ['\\', 'n']
  | '\r' => ['\\', 'r']
  | '"' => ['\\', '"']
  | '\\' => ['\\', '\\']
  | _ => if needsCodePoint c then codePointEscape c else [c]

/-- A string between double quotes. -/
def quote (s : String) : String :=
  String.ofList ('"' :: s.toList.flatMap escape ++ ['"'])

end StackLowering.Text
