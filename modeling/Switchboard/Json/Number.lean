import Switchboard.Number.Shortest

set_option autoImplicit false

/-! # Numbers in JSON

What a JSON number stands for: a whole number if it is written as one and fits into 64 bits, a
double otherwise. `FloatLayout` says how a double is shown.
-/

namespace Switchboard.Json

/-- How the digits of a double are laid out. -/
structure FloatLayout where
  /-- The lowest exponent of the first digit that is shown without an exponent. -/
  minFixed : Int
  /-- The highest such exponent. -/
  maxFixed : Int

namespace FloatLayout

/-- The layout of doubles in messages: `0.00001` and `1000000000000000.0` are the last without an
exponent, `1e-6` and `1e+16` the first with one. -/
def message : FloatLayout := ⟨-5, 15⟩

/-- Digits with a point after the first `whole` of them, and a digit on both sides of it. -/
def point (digits : List Char) (whole : Int) : List Char :=
  if whole ≤ 0 then '0' :: '.' :: (List.replicate (-whole).toNat '0' ++ digits)
  else
    let padded := digits ++ List.replicate (whole.toNat + 1 - digits.length) '0'
    padded.take whole.toNat ++ '.' :: padded.drop whole.toNat

/-- The text of a decimal that is not zero. -/
def decimal (l : FloatLayout) (d : Number.Decimal) : String :=
  let all := Nat.toDigits 10 d.digits
  let lead := d.exponent + all.length - 1
  let digits := (all.reverse.dropWhile (· = '0')).reverse
  if l.minFixed ≤ lead ∧ lead ≤ l.maxFixed then String.ofList (point digits (lead + 1))
  else
    let mantissa := match digits with
      | first :: second :: rest => first :: '.' :: second :: rest
      | short => short
    String.ofList <| mantissa ++ ['e', if lead < 0 then '-' else '+'] ++
      Nat.toDigits 10 lead.natAbs

/-- The text of a finite double. -/
def text (l : FloatLayout) (x : Float) : String :=
  let bits := x.toBits
  let sign := if bits.toNat / Nat.pow 2 63 = 1 then "-" else ""
  let binary := Number.Binary.ofBits bits
  sign ++ if binary.significand = 0 then "0.0" else (binary.shortest?.map l.decimal).getD ""

end FloatLayout

/-- What a JSON number stands for. -/
inductive Num where
  | natural (n : UInt64)
  /-- The number `-n`, where `n` is from 1 to `2 ^ 63`. -/
  | negative (n : Nat)
  | float (x : Float)

namespace Num

/-- A power of ten as a double. -/
def powerOfTen (n : Nat) : Float := Float.ofScientific 1 false n

/-- The largest power of ten that is a double. -/
def maxPower : Nat := 308

/-- Scales a double down, by the largest power of ten as often as the exponent asks for it. -/
def scaleDown (x : Float) (n : Nat) : Float :=
  -- more than one division rounds more than once
  if n ≤ maxPower then x / powerOfTen n
  else if x == 0 then x
  else scaleDown (x / powerOfTen maxPower) (n - maxPower)
termination_by n
decreasing_by simp only [maxPower] at *; omega

/-- The double `significand * 10 ^ exponent`, by one multiplication or by divisions; `none` if it
is too large. -/
def scaled? (significand : UInt64) (exponent : Int) : Option Float :=
  let x := significand.toFloat
  if exponent < 0 then some (scaleDown x (-exponent).toNat)
  else if exponent.toNat ≤ maxPower then
    let y := x * powerOfTen exponent.toNat
    if y.isInf then none else some y
  else if x == 0 then some x
  else none

end Num

end Switchboard.Json
