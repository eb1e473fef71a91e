import Switchboard.Json.Error

set_option autoImplicit false

/-! # Numbers in JSON

`scanNumber` reads a number after its sign, `skipNumber` passes over one. Digits are gathered as
long as their value fits into 64 bits; those after that only move the exponent.
-/

namespace Switchboard.Json

/-- The bound of whole numbers in 64 bits. -/
def wordBound : Nat := Nat.pow 2 64

/-- The value of a digit. -/
def digit (c : Char) : Nat := c.toNat - '0'.toNat

/-- Reads the digits of a number as long as its value stays below 64 bits. -/
def scanDigits (n : Nat) : List Char → Nat × List Char
  | [] => (n, [])
  | c :: cs =>
    if c.isDigit && n * 10 + digit c < wordBound then scanDigits (n * 10 + digit c) cs
    else (n, c :: cs)

/-- The digits in front and the text after them. -/
def splitDigits (cs : List Char) : List Char × List Char :=
  (cs.takeWhile Char.isDigit, cs.dropWhile Char.isDigit)

/-- The value of digits. -/
def digitsValue (ds : List Char) : Nat := ds.foldl (fun n c => n * 10 + digit c) 0

/-- The double of a sign, a significand and an exponent. -/
def makeFloat (negative : Bool) (significand : Nat) (exponent : Int) : Except Error Float :=
  match Num.scaled? significand.toUInt64 exponent with
  | some x => .ok (if negative then -x else x)
  | none => .error .numberOutOfRange

/-- The largest exponent that counts. -/
def exponentBound : Nat := Nat.pow 2 31

/-- An exponent moved by another one, kept within 32 bits. -/
def moveExponent (start move : Int) : Int := max (-2147483648) (min 2147483647 (start + move))

/-- Whether there is a minus sign in front, and the text after the sign if there is any. -/
def splitSign : List Char → Bool × List Char
  | '+' :: cs => (false, cs)
  | '-' :: cs => (true, cs)
  | cs => (false, cs)

/-- Reads an exponent after its letter. -/
def scanExponent (negative : Bool) (significand : Nat) (start : Int) (cs : List Char) :
    Except Error (Float × List Char) := do
  let (down, cs) := splitSign cs
  match cs with
  | [] => .error .endOfInput
  | c :: _ =>
    let (ds, rest) := splitDigits cs
    let n := digitsValue ds
    if !c.isDigit then .error .invalidNumber
    else if n < exponentBound then
      let x ← makeFloat negative significand (moveExponent start (if down then -n else n))
      .ok (x, rest)
    -- with such an exponent only zero and the infinities are left
    else if significand ≠ 0 && !down then .error .numberOutOfRange
    else .ok (if negative then -0.0 else 0.0, rest)

/-- Ends a number that is a double, with an exponent or without. -/
def scanFloatEnd (negative : Bool) (significand : Nat) (exponent : Int) (cs : List Char) :
    Except Error (Float × List Char) :=
  match cs with
  | 'e' :: cs | 'E' :: cs => scanExponent negative significand exponent cs
  | cs => do .ok (← makeFloat negative significand exponent, cs)

/-- Reads the digits after a decimal point. Digits that would not fit into 64 bits any more are
left out. -/
def scanFraction (negative : Bool) (significand : Nat) (exponent : Int) (cs : List Char) :
    Except Error (Float × List Char) :=
  let (n, rest) := scanDigits significand cs
  let count := cs.length - rest.length
  match rest with
  | c :: _ =>
    -- a digit here is one that did not fit
    if c.isDigit then
      scanFloatEnd negative n (exponent - count) (splitDigits rest).2
    else if count = 0 then .error .invalidNumber
    else scanFloatEnd negative n (exponent - count) rest
  | [] => if count = 0 then .error .endOfInput else scanFloatEnd negative n (exponent - count) []

/-- The whole number with a sign, or its double if it does not fit. -/
def wholeNumber (negative : Bool) (n : Nat) : Num :=
  if !negative then .natural n.toUInt64
  else if 1 ≤ n ∧ n ≤ Nat.pow 2 63 then .negative n
  else .float (-n.toUInt64.toFloat)

/-- Reads a number after its sign. -/
def scanNumber (negative : Bool) (cs : List Char) : Except Error (Num × List Char) := do
  match cs with
  | [] => .error .endOfInput
  | c :: after =>
    if !c.isDigit then .error .invalidNumber
    else if c = '0' && after.head?.any Char.isDigit then .error .invalidNumber
    else
      -- the digits in `more` did not fit, so they only raise the exponent
      let (n, rest) := scanDigits 0 cs
      let (more, rest) := splitDigits rest
      match rest with
      | '.' :: rest =>
        let (x, rest) ← scanFraction negative n more.length rest
        .ok (.float x, rest)
      | 'e' :: rest | 'E' :: rest =>
        let (x, rest) ← scanExponent negative n more.length rest
        .ok (.float x, rest)
      | rest =>
        if more.isEmpty then .ok (wholeNumber negative n, rest)
        else .ok (.float (← makeFloat negative n more.length), rest)

/-- Passes over an exponent after its letter. -/
def skipExponent (cs : List Char) : Except Error (List Char) :=
  let digits := (splitSign cs).2
  if digits.head?.any Char.isDigit then .ok (splitDigits digits).2 else .error .invalidNumber

/-- Passes over the exponent of a number, if it has one. -/
def skipFloatEnd : List Char → Except Error (List Char)
  | 'e' :: cs | 'E' :: cs => skipExponent cs
  | cs => .ok cs

/-- Passes over a number after its sign. -/
def skipNumber : List Char → Except Error (List Char)
  | [] => .error .invalidNumber
  | c :: after =>
    if !c.isDigit then .error .invalidNumber
    else if c = '0' && after.head?.any Char.isDigit then .error .invalidNumber
    else
      match (splitDigits (c :: after)).2 with
      | '.' :: fraction =>
        if fraction.head?.any Char.isDigit then skipFloatEnd (splitDigits fraction).2
        else .error .invalidNumber
      | rest => skipFloatEnd rest

theorem length_splitDigits_le (cs : List Char) : (splitDigits cs).2.length ≤ cs.length :=
  (List.dropWhile_sublist _).length_le

theorem length_splitDigits_cons_le {c : Char} (h : c.isDigit) (cs : List Char) :
    (splitDigits (c :: cs)).2.length ≤ cs.length := by
  simp only [splitDigits, List.dropWhile_cons, h]
  exact (List.dropWhile_sublist _).length_le

theorem length_splitSign_le (cs : List Char) : (splitSign cs).2.length ≤ cs.length := by
  unfold splitSign
  split <;> simp

theorem length_skipExponent_le {cs rest : List Char} (h : skipExponent cs = .ok rest) :
    rest.length ≤ cs.length := by
  simp only [skipExponent] at h
  split at h
  · cases h
    exact Nat.le_trans (length_splitDigits_le _) (length_splitSign_le cs)
  · cases h

theorem length_skipFloatEnd_le {cs rest : List Char} (h : skipFloatEnd cs = .ok rest) :
    rest.length ≤ cs.length := by
  unfold skipFloatEnd at h
  split at h
  · exact Nat.le_succ_of_le (length_skipExponent_le h)
  · exact Nat.le_succ_of_le (length_skipExponent_le h)
  · cases h
    exact Nat.le_refl _

theorem length_skipNumber_lt {cs rest : List Char} (h : skipNumber cs = .ok rest) :
    rest.length < cs.length := by
  unfold skipNumber at h
  split at h
  · cases h
  · next c after =>
    split at h
    · cases h
    · next hc =>
      have hdigits := length_splitDigits_cons_le (by simpa using hc) after
      split at h
      · cases h
      · split at h
        · next fraction hpoint =>
          rw [hpoint, List.length_cons] at hdigits
          split at h
          · have hfraction := length_splitDigits_le fraction
            have hend := length_skipFloatEnd_le h
            rw [List.length_cons]
            omega
          · cases h
        · exact Nat.lt_succ_of_le (Nat.le_trans (length_skipFloatEnd_le h) hdigits)

/-! ## How much is read -/

theorem length_scanDigits_le (n : Nat) (cs : List Char) :
    (scanDigits n cs).2.length ≤ cs.length := by
  induction cs generalizing n with
  | nil => simp [scanDigits]
  | cons c cs ih =>
    simp only [scanDigits]
    split
    · exact Nat.le_succ_of_le (ih _)
    · simp

theorem length_scanDigits_cons_le {c : Char} (h : c.isDigit) (cs : List Char) :
    (scanDigits 0 (c :: cs)).2.length ≤ cs.length := by
  have hd : digit c < wordBound :=
    Nat.lt_of_le_of_lt (Nat.sub_le _ _) (Nat.lt_trans c.val.toNat_lt (by decide))
  simp only [scanDigits, h, Bool.true_and, Nat.zero_mul, Nat.zero_add, hd, decide_true]
  exact length_scanDigits_le _ _

theorem length_scanExponent_le {negative : Bool} {n : Nat} {start : Int} {cs rest : List Char}
    {x : Float} (h : scanExponent negative n start cs = .ok (x, rest)) :
    rest.length ≤ cs.length := by
  have hsplit : (splitDigits (splitSign cs).2).2.length ≤ cs.length :=
    Nat.le_trans (length_splitDigits_le _) (length_splitSign_le cs)
  simp only [scanExponent] at h
  split at h
  · cases h
  · split at h
    · cases h
    · split at h
      · obtain ⟨y, -, h⟩ := ok_of_bind h
        exact rest_of_ok h ▸ hsplit
      · split at h
        · cases h
        · exact rest_of_ok h ▸ hsplit

theorem length_scanFloatEnd_le {negative : Bool} {n : Nat} {exponent : Int} {cs rest : List Char}
    {x : Float} (h : scanFloatEnd negative n exponent cs = .ok (x, rest)) :
    rest.length ≤ cs.length := by
  unfold scanFloatEnd at h
  split at h
  · exact Nat.le_succ_of_le (length_scanExponent_le h)
  · exact Nat.le_succ_of_le (length_scanExponent_le h)
  · obtain ⟨y, -, ⟨⟩⟩ := ok_of_bind h
    exact Nat.le_refl _

theorem length_scanFraction_le {negative : Bool} {n : Nat} {exponent : Int} {cs rest : List Char}
    {x : Float} (h : scanFraction negative n exponent cs = .ok (x, rest)) :
    rest.length ≤ cs.length := by
  have hdigits := length_scanDigits_le n cs
  simp only [scanFraction] at h
  split at h
  · split at h
    · have hmore := length_splitDigits_le (scanDigits n cs).2
      exact Nat.le_trans (length_scanFloatEnd_le h) (Nat.le_trans hmore hdigits)
    · split at h
      · cases h
      · exact Nat.le_trans (length_scanFloatEnd_le h) hdigits
  · split at h
    · cases h
    · exact Nat.le_trans (length_scanFloatEnd_le h) (Nat.zero_le _)

theorem length_scanNumber_lt {negative : Bool} {cs rest : List Char} {x : Num}
    (h : scanNumber negative cs = .ok (x, rest)) : rest.length < cs.length := by
  unfold scanNumber at h
  split at h
  · cases h
  · next c after =>
    split at h
    · cases h
    · next hc =>
      -- the digits in front and those that did not fit
      have hdigits : (splitDigits (scanDigits 0 (c :: after)).2).2.length ≤ after.length :=
        Nat.le_trans (length_splitDigits_le _) (length_scanDigits_cons_le (by simpa using hc) after)
      have hbehind {d : Char} {ds : List Char}
          (hrest : (splitDigits (scanDigits 0 (c :: after)).2).2 = d :: ds)
          (hle : rest.length ≤ ds.length) : rest.length < (c :: after).length := by
        rw [hrest, List.length_cons] at hdigits
        rw [List.length_cons]
        omega
      split at h
      · cases h
      · simp only at h
        split at h
        · next hpoint =>
          obtain ⟨y, hfraction, ⟨⟩⟩ := ok_of_bind h
          exact hbehind hpoint (length_scanFraction_le hfraction)
        · next hletter =>
          obtain ⟨y, hexponent, ⟨⟩⟩ := ok_of_bind h
          exact hbehind hletter (length_scanExponent_le hexponent)
        · next hletter =>
          obtain ⟨y, hexponent, ⟨⟩⟩ := ok_of_bind h
          exact hbehind hletter (length_scanExponent_le hexponent)
        · split at h
          · cases h
            exact Nat.lt_succ_of_le hdigits
          · obtain ⟨y, -, ⟨⟩⟩ := ok_of_bind h
            exact Nat.lt_succ_of_le hdigits

end Switchboard.Json
