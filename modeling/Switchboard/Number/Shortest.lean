set_option autoImplicit false

/-! # Shortest decimals

The shortest decimal that reads back as a given double: `shortest?` tries the decimal grids from
the coarsest to the finest, looks on each at the two neighbours of the value, and takes the nearer
of those that round to the double. All comparisons are exact, in natural numbers.
-/

namespace Switchboard.Number

/-- The number `digits * 10 ^ exponent`. -/
structure Decimal where
  digits : Nat
  exponent : Int
deriving DecidableEq, Repr

/-- The number `significand * 2 ^ exponent`, with the distance to the next smaller double halved
at a power of two. -/
structure Binary where
  significand : Nat
  exponent : Int
  narrowBelow : Bool
deriving DecidableEq, Repr

namespace Binary

/-- The magnitude of the double with these bits. -/
def ofBits (bits : UInt64) : Binary :=
  let fraction : Nat := bits.toNat % Nat.pow 2 52
  let exponent : Nat := bits.toNat / Nat.pow 2 52 % Nat.pow 2 11
  if exponent = 0 then ⟨fraction, -1074, false⟩
  else ⟨fraction + Nat.pow 2 52, (exponent : Int) - 1075, fraction = 0 && 1 < exponent⟩

/-- Compares `quarters * 2 ^ (exponent - 2)` with a decimal. -/
def compareQuarters (b : Binary) (quarters : Nat) (d : Decimal) : Ordering :=
  let e := b.exponent - 2
  compare (quarters * Nat.pow 2 e.toNat * Nat.pow 10 (-d.exponent).toNat)
    (d.digits * Nat.pow 10 d.exponent.toNat * Nat.pow 2 (-e).toNat)

/-- Whether a decimal rounds to the number. The ends of the interval do if the significand is
even. -/
def isReadFrom (b : Binary) (d : Decimal) : Bool :=
  let ends := b.significand % 2 = 0
  let low := b.compareQuarters (4 * b.significand - if b.narrowBelow then 1 else 2) d
  let high := b.compareQuarters (4 * b.significand + 2) d
  (low = .lt || (ends && low = .eq)) && (high = .gt || (ends && high = .eq))

/-- The number as a quotient of natural numbers. -/
def quotient (b : Binary) : Nat × Nat :=
  (b.significand * Nat.pow 2 b.exponent.toNat, Nat.pow 2 (-b.exponent).toNat)

/-- The number of decimal digits. -/
def digitCount (n : Nat) : Nat := (Nat.toDigits 10 n).length

/-- The exponent of the first digit. -/
def leadExponent (b : Binary) : Int :=
  let (n, d) := b.quotient
  if d ≤ n then (digitCount (n / d) : Int) - 1
  else -(digitCount ((d + n - 1) / n - 1) : Int)

/-- The largest multiple of `10 ^ exponent` that is not above the number. -/
def floorOn (b : Binary) (exponent : Int) : Decimal :=
  let (n, d) := b.quotient
  ⟨n * Nat.pow 10 (-exponent).toNat / (d * Nat.pow 10 exponent.toNat), exponent⟩

/-- Of the two neighbours of the number on a grid, the nearer one that rounds to it; of two that
are equally near, the one with an even last digit. -/
def nearestOn? (b : Binary) (exponent : Int) : Option Decimal :=
  let below := b.floorOn exponent
  let above := { below with digits := below.digits + 1 }
  match b.isReadFrom below, b.isReadFrom above with
  | false, false => none
  | true, false => some below
  | false, true => some above
  | true, true =>
    -- the point halfway between the neighbours, on the next finer grid
    let middle : Decimal := ⟨10 * below.digits + 5, exponent - 1⟩
    match b.compareQuarters (4 * b.significand) middle with
    | .lt => some below
    | .gt => some above
    | .eq => some (if below.digits % 2 = 0 then below else above)

/-- The shortest decimal that rounds to the number, which must not be zero. Seventeen digits
always suffice. -/
def shortest? (b : Binary) : Option Decimal :=
  (List.range 17).findSome? fun (n : Nat) => b.nearestOn? (b.leadExponent - n)

end Binary

end Switchboard.Number
