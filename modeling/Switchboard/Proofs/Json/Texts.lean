import Switchboard.Proofs.Json.Skipping

set_option autoImplicit false

/-! # Reading back strings

What spells a text between quotation marks is read as this text, whatever the spelling is
(`scanString_append`). A written string spells its text (`spells_written`).
-/

namespace Switchboard.Json

open Text (hexDigit hexDigitValue?)

/-! ## One step of the scanner -/

theorem scanString_of_scanEscape {x : Char} {cs after : List Char}
    (h : scanEscape cs = .ok (x, after)) :
    scanString ('\\' :: cs) = (scanString after).map fun r => (x :: r.1, r.2) := by
  rw [scanString]
  split
  · next e he =>
    rw [h] at he
    cases he
  · next x' after' he =>
    rw [h, Except.ok.injEq, Prod.mk.injEq] at he
    rw [he.1, he.2]

theorem scanEscape_letter {c x : Char} (h : (c, x) ∈ letterValues) (rest : List Char) :
    scanEscape (c :: rest) = .ok (x, rest) := by
  obtain ⟨hvalue, hne⟩ := escapeLetter?_of_mem _ h
  rw [scanEscape, hvalue]
  exact hne

/-- No character has the number of half a character. -/
theorem toNat_not_half (x : Char) :
    isLowSurrogate x.toNat = false ∧ isHighSurrogate x.toNat = false := by
  have hvalid : x.toNat < 0xD800 ∨ 0xDFFF < x.toNat ∧ x.toNat < 0x110000 := x.valid
  simp only [isLowSurrogate, isHighSurrogate, Bool.and_eq_false_iff, decide_eq_false_iff_not]
  omega

theorem scanEscape_quad {a b c d x : Char} (h : Quad a b c d x.toNat) (rest : List Char) :
    scanEscape ('u' :: a :: b :: c :: d :: rest) = .ok (x, rest) := by
  obtain ⟨hlow, hhigh⟩ := toNat_not_half x
  rw [scanEscape, scanQuad_append h.quad?_eq]
  simp [bind, Except.bind, hlow, hhigh, Char.ofNat_toNat]

theorem scanEscape_halves {a b c d a' b' c' d' x : Char} {high low : Nat} (hhigh : high < 0x400)
    (hlow : low < 0x400) (hx : x.toNat = 0x10000 + high * 0x400 + low)
    (hquad : Quad a b c d (0xD800 + high)) (hquad' : Quad a' b' c' d' (0xDC00 + low))
    (rest : List Char) :
    scanEscape ('u' :: a :: b :: c :: d :: '\\' :: 'u' :: a' :: b' :: c' :: d' :: rest) =
      .ok (x, rest) := by
  have hfirst : isLowSurrogate (0xD800 + high) = false ∧ isHighSurrogate (0xD800 + high) := by
    simp only [isLowSurrogate, isHighSurrogate, Bool.and_eq_true, decide_eq_true_eq,
      Bool.and_eq_false_iff, decide_eq_false_iff_not]
    omega
  have hsecond : isLowSurrogate (0xDC00 + low) := by
    simp only [isLowSurrogate, Bool.and_eq_true, decide_eq_true_eq]
    omega
  have hvalue : (0xD800 + high - 0xD800) * 0x400 + (0xDC00 + low - 0xDC00) + 0x10000 =
      x.toNat := by
    omega
  rw [scanEscape, scanQuad_append hquad.quad?_eq]
  simp only [bind, Except.bind, hfirst.1, hfirst.2, scanLowSurrogate,
    scanQuad_append hquad'.quad?_eq, hsecond, if_true, hvalue, Char.ofNat_toNat]
  rfl

/-! ## Reading -/

/-- What spells a text is read as the text. -/
theorem scanString_append {cs text : List Char} (h : Spells cs text) (rest : List Char) :
    scanString (cs ++ '"' :: rest) = .ok (text, rest) := by
  induction h with
  | nil => rw [List.nil_append, scanString]
  | plain hc hquote hback _ ih =>
      rw [List.cons_append, scanString, if_neg (Nat.not_lt.2 hc), ih]
      · rfl
      · exact hquote
      · exact hback
  | letter hletter _ ih =>
      simp only [List.cons_append]
      rw [scanString_of_scanEscape (scanEscape_letter hletter _), ih]
      rfl
  | quad hquad _ ih =>
      simp only [List.cons_append]
      rw [scanString_of_scanEscape (scanEscape_quad hquad _), ih]
      rfl
  | halves hhigh hlow hx hquad hquad' _ ih =>
      simp only [List.cons_append]
      rw [scanString_of_scanEscape (scanEscape_halves hhigh hlow hx hquad hquad' _), ih]
      rfl

/-! ## Written strings -/

theorem hexDigitValue?_toLower : ∀ n < 16, hexDigitValue? (hexDigit n).toLower = some n := by decide

/-- A control character is written with its number. -/
theorem quad_of_lt {c : Char} (h : c.toNat < 0x20) :
    Quad '0' '0' (hexDigit (c.toNat / 16)).toLower (hexDigit (c.toNat % 16)).toLower c.toNat := by
  refine ⟨0, 0, c.toNat / 16, c.toNat % 16, ?_, by omega⟩
  have hzero : hexDigitValue? '0' = some 0 := by decide
  simp only [List.map_cons, List.map_nil, hzero, hexDigitValue?_toLower (c.toNat / 16) (by omega),
    hexDigitValue?_toLower (c.toNat % 16) (by omega)]

theorem spells_writtenChar (c : Char) {cs text : List Char} (h : Spells cs text) :
    Spells (writtenChar c ++ cs) (c :: text) := by
  rw [writtenChar.eq_def]
  split
  · exact .letter (by decide) h
  · exact .letter (by decide) h
  · exact .letter (by decide) h
  · exact .letter (by decide) h
  · exact .letter (by decide) h
  · exact .letter (by decide) h
  · exact .letter (by decide) h
  · next hquote hback _ _ _ _ _ =>
    split
    · next hc => exact .quad (quad_of_lt hc) h
    · next hc => exact .plain (Nat.not_lt.1 hc) hquote hback h

/-- A written string spells its text. -/
theorem spells_written (text : List Char) : Spells (text.flatMap writtenChar) text := by
  induction text with
  | nil => exact .nil
  | cons c text ih => exact spells_writtenChar c ih

end Switchboard.Json
