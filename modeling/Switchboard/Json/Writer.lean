import Switchboard.Text.Hex

set_option autoImplicit false

/-! # Writing JSON

The compact written form of the values that configurations hold.
-/

namespace Switchboard.Json

/-- A value to be written. -/
inductive Value where
  | null
  | natural (n : UInt64)
  | text (s : String)
  | list (items : List Value)
  | object (members : List (String × Value))

/-- The written form of a character of a string. -/
def writtenChar (c : Char) : List Char :=
  match c with
  | '"' => ['\\', '"']
  | '\\' => ['\\', '\\']
  | '\x08' => ['\\', 'b']
  | '\x0c' => ['\\', 'f']
  | '\n' => ['\\', 'n']
  | '\r' => ['\\', 'r']
  | '\t' => ['\\', 't']
  | c =>
    if c.toNat < 0x20 then
      ['\\', 'u', '0', '0', (Text.hexDigit (c.toNat / 16)).toLower,
        (Text.hexDigit (c.toNat % 16)).toLower]
    else [c]

/-- The written form of a string. -/
def writtenString (s : String) : List Char := '"' :: s.toList.flatMap writtenChar ++ ['"']

mutual

/-- The written form of a value. -/
def Value.written : Value → List Char
  | .null => ['n', 'u', 'l', 'l']
  | .natural n => (toString n).toList
  | .text s => writtenString s
  | .list items => '[' :: writtenItems items ++ [']']
  | .object members => '\x7b' :: writtenMembers members ++ ['\x7d']

/-- The written form of the items of a list, with commas between them. -/
def writtenItems : List Value → List Char
  | [] => []
  | [v] => v.written
  | v :: w :: rest => v.written ++ ',' :: writtenItems (w :: rest)

/-- The written form of the members of an object, with commas between them. -/
def writtenMembers : List (String × Value) → List Char
  | [] => []
  | [(k, v)] => writtenString k ++ ':' :: v.written
  | (k, v) :: m :: rest =>
    writtenString k ++ ':' :: v.written ++ ',' :: writtenMembers (m :: rest)

end

/-- The text of a value. -/
def Value.render (v : Value) : String := String.ofList v.written

end Switchboard.Json
