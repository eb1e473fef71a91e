import Switchboard.Http.Method

set_option autoImplicit false

/-! # Header fields

Fields are kept in the order in which they were added, under names in small letters. One name may
have several fields; reading takes the first.
-/

namespace Switchboard

/-- The fields of a message, each a name in small letters and a value. -/
abbrev Headers := List (String × String)

namespace Headers

/-- Whether the character may occur in a field name: beside those of a method, six more signs. -/
def isNameChar (c : Char) : Bool :=
  Method.isNameChar c || c ∈ ['#', '$', '%', '&', '\'', '"']

/-- A field name in small letters, if the text is a name: not empty and of name characters only. -/
def name? (name : String) : Option String :=
  if !name.isEmpty && name.toList.all isNameChar && name.length < 65536 then
    some (String.ofList (name.toList.map Char.toLower))
  else none

/-- Whether the text may be a field value: no control characters but tabs. -/
def isValue (value : String) : Bool :=
  value.toList.all fun c => c = '\t' || (0x20 ≤ c.toNat && c.toNat ≠ 0x7F)

/-- Whether the value can be shown as text: visible ASCII, spaces and tabs only. -/
def isVisible (value : String) : Bool :=
  value.toList.all fun c => c = '\t' || (0x20 ≤ c.toNat && c.toNat < 0x7F)

/-- The first value of a field. The name may be in any case; a text that is no name has no
value. -/
def first? (fields : Headers) (name : String) : Option String :=
  (name? name).bind fun n => List.lookup n fields

/-- The first value of a field, if it can be shown as text. -/
def visible? (fields : Headers) (name : String) : Option String :=
  (first? fields name).filter isVisible

/-- Adds a field at the end, if the name and the value are such. -/
def append? (fields : Headers) (name value : String) : Option Headers := do
  let n ← name? name
  if isValue value then some (fields ++ [(n, value)]) else none

/-- Replaces all fields of a name, given in small letters, by one. -/
def replace (fields : Headers) (name value : String) : Headers :=
  (name, value) :: fields.filter (·.1 ≠ name)

end Headers

end Switchboard
