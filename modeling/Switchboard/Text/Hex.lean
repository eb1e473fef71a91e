set_option autoImplicit false

/-! # Hexadecimal digits -/

namespace Switchboard.Text

/-- The value of a hexadecimal digit, in either case. -/
def hexValue? (b : UInt8) : Option UInt8 :=
  if 0x30 ≤ b ∧ b ≤ 0x39 then some (b - 0x30)
  else if 0x41 ≤ b ∧ b ≤ 0x46 then some (b - 0x41 + 10)
  else if 0x61 ≤ b ∧ b ≤ 0x66 then some (b - 0x61 + 10)
  else none

/-- The byte that two hexadecimal digits stand for. -/
def hexPair? (high low : UInt8) : Option UInt8 := do
  return (← hexValue? high) * 16 + (← hexValue? low)

/-- The value of a character as a hexadecimal digit, in either case. -/
def hexDigitValue? (c : Char) : Option Nat :=
  if '0' ≤ c ∧ c ≤ '9' then some (c.toNat - '0'.toNat)
  else if 'a' ≤ c ∧ c ≤ 'f' then some (c.toNat - 'a'.toNat + 10)
  else if 'A' ≤ c ∧ c ≤ 'F' then some (c.toNat - 'A'.toNat + 10)
  else none

/-- The capital hexadecimal digit of a value below 16. -/
def hexDigit (n : Nat) : Char :=
  if n < 10 then Char.ofNat (0x30 + n) else Char.ofNat (0x41 + n - 10)

/-- Bytes in small hexadecimal digits, two for each. -/
def hexBytes (bs : List UInt8) : String :=
  String.ofList <| bs.flatMap fun b =>
    [(hexDigit (b.toNat / 16)).toLower, (hexDigit (b.toNat % 16)).toLower]

/-- The bytes that pairs of hexadecimal digits stand for. -/
def ofHexBytes? : List UInt8 → Option (List UInt8)
  | [] => some []
  | [_] => none
  | a :: b :: rest => do return (← hexPair? a b) :: (← ofHexBytes? rest)

end Switchboard.Text
