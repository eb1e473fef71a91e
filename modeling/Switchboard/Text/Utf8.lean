set_option autoImplicit false

/-! # UTF-8

Texts as bytes and bytes as texts. Reading is total: a byte sequence is cut into pieces, each a
character or a malformed run. A run ends before the first byte that could not continue the
character begun, so `decodeLossy` puts one replacement character for each such run, and `decode?`
refuses any.
-/

namespace Switchboard.Text

/-- Byte sequences, such as bodies and the contents of files. -/
abbrev Bytes := List UInt8

/-- The bytes of a text. -/
def utf8 (s : String) : Bytes := s.toList.flatMap String.utf8EncodeChar

/-- What a first byte announces: the bits that it carries itself and the ranges that the bytes
after it must lie in. `none` for a byte that begins no character. -/
def lead? (b : UInt8) : Option (Nat × List (UInt8 × UInt8)) :=
  if b < 0x80 then some (b.toNat, [])
  else if b < 0xC2 then none
  else if b < 0xE0 then some (b.toNat - 0xC0, [(0x80, 0xBF)])
  else if b = 0xE0 then some (0, [(0xA0, 0xBF), (0x80, 0xBF)])
  else if b = 0xED then some (0xD, [(0x80, 0x9F), (0x80, 0xBF)])
  else if b < 0xF0 then some (b.toNat - 0xE0, [(0x80, 0xBF), (0x80, 0xBF)])
  else if b = 0xF0 then some (0, [(0x90, 0xBF), (0x80, 0xBF), (0x80, 0xBF)])
  else if b < 0xF4 then some (b.toNat - 0xF0, [(0x80, 0xBF), (0x80, 0xBF), (0x80, 0xBF)])
  else if b = 0xF4 then some (4, [(0x80, 0x8F), (0x80, 0xBF), (0x80, 0xBF)])
  else none

/-- Takes the bytes announced by a first byte, six bits from each, and stops at the first one out
of its range. -/
def continue? : Nat → List (UInt8 × UInt8) → Bytes → Option Char × Bytes
  | n, [], bs => (some (Char.ofNat n), bs)
  | _, _ :: _, [] => (none, [])
  | n, r :: rs, b :: bs =>
    if r.1 ≤ b ∧ b ≤ r.2 then continue? (n * 64 + b.toNat % 64) rs bs else (none, b :: bs)

theorem length_continue?_le (n : Nat) (rs : List (UInt8 × UInt8)) (bs : Bytes) :
    (continue? n rs bs).2.length ≤ bs.length := by
  induction rs generalizing n bs with
  | nil => simp [continue?]
  | cons r rs ih =>
    cases bs with
    | nil => simp [continue?]
    | cons b bs =>
      simp only [continue?]
      split
      · exact Nat.le_succ_of_le (ih _ _)
      · simp

/-- The pieces of a byte sequence: its characters, and `none` for each malformed run. -/
def pieces : Bytes → List (Option Char)
  | [] => []
  | b :: bs =>
    match lead? b with
    | none => none :: pieces bs
    | some (n, rs) =>
      have := length_continue?_le n rs bs
      (continue? n rs bs).1 :: pieces (continue? n rs bs).2
termination_by bs => bs.length
decreasing_by all_goals simp only [List.length_cons]; omega

/-- The text of a byte sequence, with a replacement character for each malformed run. -/
def decodeLossy (bs : Bytes) : String := String.ofList ((pieces bs).map (·.getD '\ufffd'))

/-- The text of a byte sequence, unless it holds a malformed run. -/
def decode? (bs : Bytes) : Option String := ((pieces bs).mapM id).map String.ofList

end Switchboard.Text
