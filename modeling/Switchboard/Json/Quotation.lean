import Switchboard.Json.Error
import Switchboard.Text.Hex
import Switchboard.Text.Pieces

set_option autoImplicit false

/-! # Strings in JSON

`scanString` reads a string after its first quotation mark, `skipString` passes over one. The
difference shows in escapes: a passed-over string may hold halves of characters without partners.
-/

namespace Switchboard.Json

open Text (hexDigitValue?)

/-- The number that four hexadecimal digits stand for. -/
def quad? (a b c d : Char) : Option Nat := do
  return (← hexDigitValue? a) * 4096 + (← hexDigitValue? b) * 256 + (← hexDigitValue? c) * 16 +
    (← hexDigitValue? d)

/-- Reads four hexadecimal digits. A text that ends within the next four bytes is cut off; any
other character among them makes the escape invalid. -/
def scanQuad (cs : List Char) : Except Error (Nat × List Char) :=
  if Text.byteLength (cs.take 4) < 4 then .error .endOfText
  else
    match cs with
    | a :: b :: c :: d :: rest =>
      match quad? a b c d with
      | some n => .ok (n, rest)
      | none => .error .invalidEscape
    | _ => .error .invalidEscape

/-- The character of an escape of one letter. -/
def escapeLetter? : Char → Option Char
  | '"' => some '"'
  | '\\' => some '\\'
  | '/' => some '/'
  | 'b' => some '\x08'
  | 'f' => some '\x0c'
  | 'n' => some '\n'
  | 'r' => some '\r'
  | 't' => some '\t'
  | _ => none

/-- Whether the number announces a character outside the basic plane. -/
def isHighSurrogate (n : Nat) : Bool := 0xD800 ≤ n && n ≤ 0xDBFF

/-- Whether the number completes a character outside the basic plane. -/
def isLowSurrogate (n : Nat) : Bool := 0xDC00 ≤ n && n ≤ 0xDFFF

/-- Reads the second half of a character outside the basic plane. -/
def scanLowSurrogate (high : Nat) : List Char → Except Error (Char × List Char)
  | [] | ['\\'] => .error .endOfText
  | '\\' :: 'u' :: cs => do
    let (low, rest) ← scanQuad cs
    if isLowSurrogate low then
      .ok (Char.ofNat ((high - 0xD800) * 0x400 + (low - 0xDC00) + 0x10000), rest)
    else .error .loneSurrogate
  | _ => .error .unpairedSurrogate

/-- Reads what follows a backslash. -/
def scanEscape : List Char → Except Error (Char × List Char)
  | [] => .error .endOfText
  | 'u' :: cs => do
    let (n, rest) ← scanQuad cs
    -- a low half must follow a high one
    if isLowSurrogate n then .error .loneSurrogate
    else if isHighSurrogate n then scanLowSurrogate n rest
    else .ok (Char.ofNat n, rest)
  | c :: cs =>
    match escapeLetter? c with
    | some x => .ok (x, cs)
    | none => .error .invalidEscape

/-- Passes over what follows a backslash; halves of characters need no partner here. -/
def skipEscape : List Char → Except Error (List Char)
  | [] => .error .endOfText
  | 'u' :: cs => (scanQuad cs).map (·.2)
  | c :: cs => if (escapeLetter? c).isSome then .ok cs else .error .invalidEscape

theorem length_scanQuad_le {cs rest : List Char} {n : Nat} (h : scanQuad cs = .ok (n, rest)) :
    rest.length ≤ cs.length := by
  unfold scanQuad at h
  split at h
  · cases h
  · split at h
    · split at h
      · cases h
        exact Nat.le_add_right _ 4
      · cases h
    · cases h

theorem length_scanLowSurrogate_le {high : Nat} {cs rest : List Char} {c : Char}
    (h : scanLowSurrogate high cs = .ok (c, rest)) : rest.length ≤ cs.length := by
  unfold scanLowSurrogate at h
  split at h
  · cases h
  · cases h
  · next cs =>
    obtain ⟨⟨low, after⟩, hquad, h⟩ := ok_of_bind h
    have hle : after.length ≤ cs.length := length_scanQuad_le hquad
    simp only at h
    split at h
    · exact Nat.le_succ_of_le (Nat.le_succ_of_le (rest_of_ok h ▸ hle))
    · cases h
  · cases h

theorem length_scanEscape_le {cs rest : List Char} {c : Char}
    (h : scanEscape cs = .ok (c, rest)) : rest.length ≤ cs.length := by
  unfold scanEscape at h
  split at h
  · cases h
  · next cs =>
    obtain ⟨⟨n, after⟩, hquad, h⟩ := ok_of_bind h
    have hle : after.length ≤ cs.length := length_scanQuad_le hquad
    simp only at h
    split at h
    · cases h
    · split at h
      · have hlow : rest.length ≤ after.length := length_scanLowSurrogate_le h
        exact Nat.le_succ_of_le (Nat.le_trans hlow hle)
      · cases h
        exact Nat.le_succ_of_le hle
  · split at h
    · cases h
      exact Nat.le_succ _
    · cases h

theorem length_skipEscape_le {cs rest : List Char} (h : skipEscape cs = .ok rest) :
    rest.length ≤ cs.length := by
  unfold skipEscape at h
  split at h
  · cases h
  · next cs =>
    obtain ⟨⟨n, after⟩, hquad, rfl⟩ := ok_of_map h
    exact Nat.le_succ_of_le (length_scanQuad_le hquad)
  · split at h
    · cases h
      exact Nat.le_succ _
    · cases h

/-- Reads the characters of a string after its first quotation mark. -/
def scanString (cs : List Char) : Except Error (List Char × List Char) :=
  match cs with
  | [] => .error .endOfText
  | '"' :: cs => .ok ([], cs)
  | '\\' :: cs =>
    match h : scanEscape cs with
    | .error e => .error e
    | .ok (x, rest) =>
      have := length_scanEscape_le h
      (scanString rest).map fun r => (x :: r.1, r.2)
  | c :: cs =>
    if c.toNat < 0x20 then .error .controlCharacter
    else (scanString cs).map fun r => (c :: r.1, r.2)
termination_by cs.length
decreasing_by all_goals simp only [List.length_cons]; omega

/-- Passes over the rest of a string after its first quotation mark. -/
def skipString (cs : List Char) : Except Error (List Char) :=
  match cs with
  | [] => .error .endOfText
  | '"' :: cs => .ok cs
  | '\\' :: cs =>
    match h : skipEscape cs with
    | .error e => .error e
    | .ok rest =>
      have := length_skipEscape_le h
      skipString rest
  | c :: cs => if c.toNat < 0x20 then .error .controlCharacter else skipString cs
termination_by cs.length
decreasing_by all_goals simp only [List.length_cons]; omega

theorem length_skipString_lt {cs rest : List Char} (h : skipString cs = .ok rest) :
    rest.length < cs.length := by
  fun_induction skipString cs with
  | case1 => cases h
  | case2 cs =>
    cases h
    exact Nat.lt_succ_self _
  | case3 => cases h
  | case4 cs after _ hescape ih =>
    have hlt : rest.length < after.length := ih h
    exact Nat.lt_succ_of_lt (Nat.lt_of_lt_of_le hlt hescape)
  | case5 => cases h
  | case6 c cs _ _ _ ih => exact Nat.lt_succ_of_lt (ih h)

theorem length_scanString_lt {cs rest : List Char} {x : List Char}
    (h : scanString cs = .ok (x, rest)) : rest.length < cs.length := by
  fun_induction scanString cs generalizing x with
  | case1 => cases h
  | case2 cs =>
    cases h
    exact Nat.lt_succ_self _
  | case3 => cases h
  | case4 cs y after _ hescape ih =>
    obtain ⟨⟨xs, last⟩, hscan, ⟨⟩⟩ := ok_of_map h
    have hlt : last.length < after.length := ih hscan
    exact Nat.lt_succ_of_lt (Nat.lt_of_lt_of_le hlt hescape)
  | case5 => cases h
  | case6 c cs _ _ _ ih =>
    obtain ⟨⟨xs, _⟩, hscan, ⟨⟩⟩ := ok_of_map h
    exact Nat.lt_succ_of_lt (ih hscan)

end Switchboard.Json
