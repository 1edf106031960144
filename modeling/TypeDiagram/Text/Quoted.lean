import TypeDiagram.Text.Blank

/-!
# Quoted text

Names that come from outside are shown between double quotes wherever a message or an outline
mentions them, and then nothing in them may be mistaken for the end of the text or go unseen.

* A quote and a backslash get a backslash in front.
* Newline, carriage return, tab and NUL have their short escapes.
* Any other invisible character is written by its code point, in lower-case hexadecimal between
  braces.
* Everything else, the apostrophe included, stands for itself.  So do combining marks and code
  points without a character, which the tables of `Text.isInvisible` leave out.
-/

set_option autoImplicit false

namespace TypeDiagram
namespace Text

/-- The digits of a number in lower-case hexadecimal. -/
def hexDigits (n : Nat) : List Char := Nat.toDigits 16 n

/-- How one character is written inside a quoted text. -/
def escape (c : Char) : List Char :=
  match c with
  | '"' => ['\\', '"']
  | '\\' => ['\\', '\\']
  | '\n' => ['\\', 'n']
  | '\r' => ['\\', 'r']
  | '\t' => ['\\', 't']
  | '\x00' => ['\\', '0']
  | c => if isInvisible c then ['\\', 'u', '\x7b'] ++ hexDigits c.toNat ++ ['\x7d'] else [c]

/-- A text between double quotes, with its awkward characters escaped. -/
def quoted (s : String) : String :=
  String.ofList ('"' :: s.toList.flatMap escape ++ ['"'])

end Text
end TypeDiagram
