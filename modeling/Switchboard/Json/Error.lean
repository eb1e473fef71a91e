import Switchboard.Json.Number
import Switchboard.Text.Quoted

set_option autoImplicit false

/-! # Errors in JSON texts

Why a text cannot be read, with the message, and what is known of the parts of a reading that did
not fail.
-/

namespace Switchboard.Json

/-- What stands in a text where something else was expected. -/
inductive Found where
  | null
  | boolean (value : Bool)
  | number (value : Num)
  | text (value : String)
  | list
  | object

def Found.message : Found → String
  | .null => "null"
  | .boolean value => s!"boolean \x60{value}\x60"
  | .number (.natural n) => s!"integer \x60{n}\x60"
  | .number (.negative n) => s!"integer \x60-{n}\x60"
  | .number (.float x) => "floating point \x60" ++ FloatLayout.message.text x ++ "\x60"
  | .text value => "string " ++ Text.quoted value
  | .list => "sequence"
  | .object => "map"

/-- Why a text cannot be read. -/
inductive Error where
  | endOfList
  | endOfObject
  | endOfText
  | endOfInput
  | expectedColon
  | expectedListEnd
  | expectedObjectEnd
  | expectedWord
  | expectedValue
  | keyNotText
  | trailingComma
  | trailingCharacters
  | invalidNumber
  | numberOutOfRange
  | controlCharacter
  | invalidEscape
  | loneSurrogate
  | unpairedSurrogate
  /-- Something of another type than the expected one. -/
  | invalidType (found : Found) (expected : String)
  /-- Something of the expected type, but outside its range. -/
  | invalidValue (found : Found) (expected : String)
  /-- A list that is too short for a record. -/
  | invalidLength (length : Nat) (expected : String)
  | unknownVariant (name : String) (known : List String)
  | missingField (name : String)
  | duplicateField (name : String)

def Error.message : Error → String
  | .endOfList => "EOF while parsing a list"
  | .endOfObject => "EOF while parsing an object"
  | .endOfText => "EOF while parsing a string"
  | .endOfInput => "EOF while parsing a value"
  | .expectedColon => "expected \x60:\x60"
  | .expectedListEnd => "expected \x60,\x60 or \x60]\x60"
  | .expectedObjectEnd => "expected \x60,\x60 or \x60\x7d\x60"
  | .expectedWord => "expected ident"
  | .expectedValue => "expected value"
  | .keyNotText => "key must be a string"
  | .trailingComma => "trailing comma"
  | .trailingCharacters => "trailing characters"
  | .invalidNumber => "invalid number"
  | .numberOutOfRange => "number out of range"
  | .controlCharacter => "control character (\\u0000-\\u001F) found while parsing a string"
  | .invalidEscape => "invalid escape"
  | .loneSurrogate => "lone leading surrogate in hex escape"
  | .unpairedSurrogate => "unexpected end of hex escape"
  | .invalidType found expected => s!"invalid type: {found.message}, expected {expected}"
  | .invalidValue found expected => s!"invalid value: {found.message}, expected {expected}"
  | .invalidLength length expected => s!"invalid length {length}, expected {expected}"
  | .unknownVariant name known =>
    s!"unknown variant \x60{name}\x60, expected one of " ++
      ", ".intercalate (known.map fun k => "\x60" ++ k ++ "\x60")
  | .missingField name => s!"missing field \x60{name}\x60"
  | .duplicateField name => s!"duplicate field \x60{name}\x60"

/-! ## Readings without an error -/

theorem ok_of_bind {α β : Type} {a : Except Error α} {f : α → Except Error β} {y : β}
    (h : a >>= f = .ok y) : ∃ x, a = .ok x ∧ f x = .ok y := by
  cases a with
  | error e => cases h
  | ok x => exact ⟨x, rfl, h⟩

theorem ok_of_map {α β : Type} {a : Except Error α} {f : α → β} {y : β}
    (h : a.map f = .ok y) : ∃ x, a = .ok x ∧ f x = y := by
  cases a with
  | error e => cases h
  | ok x => exact ⟨x, rfl, Except.ok.inj h⟩

theorem rest_of_ok {α β : Type} {x y : α} {rest rest' : β}
    (h : (.ok (x, rest) : Except Error (α × β)) = .ok (y, rest')) : rest = rest' :=
  congrArg Prod.snd (Except.ok.inj h)

end Switchboard.Json
