import Switchboard.Text.Unprintable

set_option autoImplicit false

/-! # Quoted text

A text between double quotation marks, as messages and summaries show it: backslash forms for NUL,
tab, carriage return, line feed, backslash and the quotation mark, and a code point in braces for
every other unprintable character.
-/

namespace Switchboard.Text

/-- A number in hexadecimal, in small digits. -/
def hexText (n : Nat) : String := String.ofList (Nat.toDigits 16 n)

/-- The form of a character between quotation marks. -/
def quotedChar (c : Char) : String :=
  match c with
  | '\x00' => "\\0"
  | '\t' => "\\t"
  | '\r' => "\\r"
  | '\n' => "\\n"
  | '\\' => "\\\\"
  | '"' => "\\\""
  | c =>
    if isUnprintable c then "\\u\x7b" ++ hexText c.toNat ++ "\x7d" else c.toString

/-- The text between quotation marks. -/
def quoted (s : String) : String := "\"" ++ String.join (s.toList.map quotedChar) ++ "\""

/-- A list of quoted texts between square brackets. -/
def quotedList (l : List String) : String := "[" ++ ", ".intercalate (l.map quoted) ++ "]"

end Switchboard.Text
