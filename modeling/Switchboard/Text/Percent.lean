import Switchboard.Text.Hex
import Switchboard.Text.Utf8

set_option autoImplicit false

/-! # Percent encoding

`decode` undoes percent signs with two hexadecimal digits and lets every other percent sign stand.
`encode` writes every byte of a text that is not unreserved (ASCII letters and digits, `-`, `.`,
`_`, `~`) as a percent sign and two capital hexadecimal digits.
-/

namespace Switchboard.Text

namespace Percent

/-- Undoes percent encoding on bytes. -/
def decodeBytes : Bytes → Bytes
  | [] => []
  | [a] => [a]
  | [a, b] => [a, b]
  | a :: b :: c :: bs =>
    if a = 0x25 then
      match hexPair? b c with
      | some x => x :: decodeBytes bs
      | none => a :: decodeBytes (b :: c :: bs)
    else a :: decodeBytes (b :: c :: bs)

/-- Undoes percent encoding; bytes that form no character become replacement characters. -/
def decode (s : String) : String := decodeLossy (decodeBytes (utf8 s))

/-- Whether the byte stands for itself in an encoded text. -/
def isUnreserved (b : UInt8) : Bool :=
  (0x30 ≤ b && b ≤ 0x39) || (0x41 ≤ b && b ≤ 0x5A) || (0x61 ≤ b && b ≤ 0x7A) ||
    b == 0x2D || b == 0x2E || b == 0x5F || b == 0x7E

/-- The encoded form of one byte. -/
def encodeByte (b : UInt8) : List Char :=
  if isUnreserved b then [Char.ofNat b.toNat]
  else ['%', hexDigit (b.toNat / 16), hexDigit (b.toNat % 16)]

/-- The encoded form of a text. -/
def encode (s : String) : String := String.ofList ((utf8 s).flatMap encodeByte)

end Percent

end Switchboard.Text
