import Switchboard.Proofs.Text.Percent

set_option autoImplicit false

/-! # Texts with and without escapes

An escape is a percent sign before two hexadecimal digits. Decoding leaves a text alone exactly if
it has none (`Percent.decode_eq_self_iff`). Every escape takes three characters and gives one byte,
and a byte starts at most one character, so a text with an escape gets shorter
(`Percent.length_decode_lt`).
-/

namespace Switchboard.Text

variable {b : UInt8} {n : Nat} {rs : List (UInt8 × UInt8)}

/-! ## One more byte is at most one more character -/

theorem lead?_eq_none_of_inside (h : 0x80 ≤ b) (h' : b ≤ 0xBF) : lead? b = none := by
  rw [UInt8.le_iff_toNat_le] at h h'
  have hlow : ¬ b < 0x80 := by
    rw [UInt8.lt_iff_toNat_lt]
    exact Nat.not_lt.2 h
  have hhigh : b < 0xC2 := by
    rw [UInt8.lt_iff_toNat_lt]
    exact Nat.lt_of_le_of_lt h' (by decide)
  rw [lead?, if_neg hlow, if_pos hhigh]

/-- What a character takes away of the bytes after its first one was malformed without it. -/
theorem length_pieces_continue?_le (hrs : ∀ r ∈ rs, 0x80 ≤ r.1 ∧ r.2 ≤ 0xBF) (bs : Bytes) :
    (pieces (continue? n rs bs).2).length ≤ (pieces bs).length := by
  induction rs generalizing n bs with
  | nil => exact Nat.le_refl _
  | cons r rs ih =>
      obtain ⟨hr, hrest⟩ := List.forall_mem_cons.1 hrs
      cases bs with
      | nil => exact Nat.le_refl _
      | cons b bs =>
          rw [continue?]
          split
          · next hin =>
            have hnone : lead? b = none :=
              lead?_eq_none_of_inside (UInt8.le_trans hr.1 hin.1) (UInt8.le_trans hin.2 hr.2)
            have hle := ih (n := n * 64 + b.toNat % 64) hrest bs
            rw [pieces_of_lead?_none hnone, List.length_cons]
            omega
          · exact Nat.le_refl _

theorem length_pieces_cons_le (b : UInt8) (bs : Bytes) :
    (pieces (b :: bs)).length ≤ (pieces bs).length + 1 := by
  cases h : lead? b with
  | none => exact Nat.le_of_eq (by rw [pieces_of_lead?_none h, List.length_cons])
  | some announced =>
      obtain ⟨n, rs⟩ := announced
      have hle := length_pieces_continue?_le (n := n) (inside_of_mem_lead? h) bs
      rw [pieces_of_lead? h, List.length_cons]
      omega

/-- An ASCII byte is found in the bytes of its own character only. -/
theorem eq_of_mem_utf8EncodeChar {c : Char} (hb : b < 0x80) (h : b ∈ String.utf8EncodeChar c) :
    c = Char.ofNat b.toNat := by
  obtain ⟨xs, ys, hsplit⟩ := List.append_of_mem h
  have hpieces : pieces (String.utf8EncodeChar c) = [some c] := by
    have hread := pieces_utf8EncodeChar_append c []
    rwa [List.append_nil, pieces] at hread
  rw [hsplit, pieces_append_ascii hb, pieces_ascii hb] at hpieces
  -- one character is read, so nothing stands before the byte
  have hlength := congrArg List.length hpieces
  have hxs : pieces xs = [] := by
    rw [← List.length_eq_zero_iff]
    simp only [List.length_append, List.length_cons, List.length_nil] at hlength
    omega
  rw [hxs, List.nil_append] at hpieces
  exact (Option.some.inj (List.cons.inj hpieces).1).symm

namespace Percent

/-! ## Escapes -/

/-- The character is a hexadecimal digit. -/
def IsDigit (c : Char) : Prop := (hexDigitValue? c).isSome

/-- The text goes on with an escape. -/
def Escapes (cs : List Char) : Prop :=
  ∃ a b back, cs = '%' :: a :: b :: back ∧ IsDigit a ∧ IsDigit b

/-- Somewhere in the text stands an escape. -/
def HasEscape (s : String) : Prop := ∃ cs, cs <:+ s.toList ∧ Escapes cs

/-- The bytes of characters. -/
def bytes (cs : List Char) : Bytes := cs.flatMap String.utf8EncodeChar

theorem bytes_cons (c : Char) (cs : List Char) :
    bytes (c :: cs) = String.utf8EncodeChar c ++ bytes cs := List.flatMap_cons

theorem pieces_bytes (cs : List Char) : pieces (bytes cs) = cs.map some :=
  pieces_flatMap_utf8EncodeChar cs

/-- A byte that is read as a digit is the byte of a digit. -/
theorem isDigit_of_hexValue? {d : UInt8} (h : (hexValue? d).isSome) :
    d < 0x80 ∧ IsDigit (Char.ofNat d.toNat) := by
  have hall : ∀ n < 256, (hexValue? (UInt8.ofNat n)).isSome →
      UInt8.ofNat n < 0x80 ∧ (hexDigitValue? (Char.ofNat (UInt8.ofNat n).toNat)).isSome := by
    decide +kernel
  have hd := hall d.toNat d.toNat_lt_size
  rw [UInt8.ofNat_toNat] at hd
  exact hd h

theorem IsDigit.toNat_lt {c : Char} (h : IsDigit c) : c.toNat < 0x80 := by
  have hbound : ∀ d : Char, d.toNat < 0x80 → c ≤ d → c.toNat < 0x80 :=
    fun d hd hle => Nat.lt_of_le_of_lt (UInt32.le_iff_toNat_le.1 hle) hd
  rw [IsDigit, hexDigitValue?] at h
  split_ifs at h with h0 ha hA
  · exact hbound _ (by decide) h0.2
  · exact hbound _ (by decide) ha.2
  · exact hbound _ (by decide) hA.2
  · cases h

/-- A digit has one byte, which is read as a digit. -/
theorem IsDigit.exists_byte {c : Char} (h : IsDigit c) :
    ∃ d, String.utf8EncodeChar c = [d] ∧ (hexValue? d).isSome := by
  have hall : ∀ n < 128, (hexDigitValue? (Char.ofNat n)).isSome →
      String.utf8EncodeChar (Char.ofNat n) = [UInt8.ofNat n] ∧
        (hexValue? (UInt8.ofNat n)).isSome := by
    decide +kernel
  have hc := hall c.toNat h.toNat_lt
  rw [Char.ofNat_toNat] at hc
  exact ⟨_, hc h⟩

/-! ## Decoding character by character -/

/-- An escape gives one byte. -/
theorem decodeBytes_of_escape {a b : Char} (ha : IsDigit a) (hb : IsDigit b) (back : List Char) :
    ∃ x, decodeBytes (bytes ('%' :: a :: b :: back)) = x :: decodeBytes (bytes back) := by
  obtain ⟨high, hhigh, hhighValue⟩ := ha.exists_byte
  obtain ⟨low, hlow, hlowValue⟩ := hb.exists_byte
  obtain ⟨u, hu⟩ := Option.isSome_iff_exists.1 hhighValue
  obtain ⟨v, hv⟩ := Option.isSome_iff_exists.1 hlowValue
  have hpair : hexPair? high low = some (u * 16 + v) := by
    rw [hexPair?, hu, hv]
    rfl
  refine ⟨u * 16 + v, ?_⟩
  have hbytes : bytes ('%' :: a :: b :: back) = 0x25 :: high :: low :: bytes back := by
    rw [bytes_cons, bytes_cons, bytes_cons, hhigh, hlow]
    rfl
  rw [hbytes, decodeBytes_hexPair hpair]

theorem decodeBytes_append_of_not_mem {xs : Bytes} (h : 0x25 ∉ xs) (ys : Bytes) :
    decodeBytes (xs ++ ys) = xs ++ decodeBytes ys := by
  induction xs with
  | nil => rfl
  | cons x xs ih =>
      rw [List.mem_cons, not_or] at h
      rw [List.cons_append, decodeBytes_of_ne (Ne.symm h.1), ih h.2, List.cons_append]

/-- A character with which no escape starts is let stand. -/
theorem decodeBytes_of_not_escapes {c : Char} {cs : List Char} (h : ¬ Escapes (c :: cs)) :
    decodeBytes (bytes (c :: cs)) = String.utf8EncodeChar c ++ decodeBytes (bytes cs) := by
  rw [bytes_cons]
  by_cases hc : c = '%'
  · subst hc
    have hpercent : String.utf8EncodeChar '%' = [0x25] := rfl
    rw [hpercent, List.singleton_append, List.singleton_append]
    refine decodeBytes_of_no_hexPair fun a b rest hrest => ?_
    by_contra hsome
    obtain ⟨x, hx⟩ := Option.ne_none_iff_exists'.1 hsome
    obtain ⟨u, hu, v, hv, -⟩ : ∃ u, hexValue? a = some u ∧ ∃ v, hexValue? b = some v ∧
        some (u * 16 + v) = some x := by
      simpa only [hexPair?, Option.bind_eq_bind, Option.bind_eq_some_iff, Option.pure_def] using hx
    obtain ⟨ha, hadigit⟩ := isDigit_of_hexValue? (Option.isSome_iff_exists.2 ⟨u, hu⟩)
    obtain ⟨hb, hbdigit⟩ := isDigit_of_hexValue? (Option.isSome_iff_exists.2 ⟨v, hv⟩)
    -- the two bytes are read as characters, so they are the next two of the text
    have hchars : cs.map some =
        some (Char.ofNat a.toNat) :: some (Char.ofNat b.toNat) :: pieces rest := by
      rw [← pieces_bytes, hrest, pieces_ascii ha, pieces_ascii hb]
    obtain ⟨c, cs, rfl, hc, hcs⟩ := List.map_eq_cons_iff.1 hchars
    obtain ⟨d, back, rfl, hd, -⟩ := List.map_eq_cons_iff.1 hcs
    rw [Option.some.injEq] at hc hd
    exact h ⟨c, d, back, rfl, hc ▸ hadigit, hd ▸ hbdigit⟩
  · have hno : (0x25 : UInt8) ∉ String.utf8EncodeChar c :=
      fun hmem => hc (eq_of_mem_utf8EncodeChar (by decide) hmem)
    exact decodeBytes_append_of_not_mem hno _

/-! ## What decoding does to a text -/

theorem escapes_or_of_suffix_cons {c : Char} {cs ds : List Char} (h : ds <:+ c :: cs)
    (hesc : Escapes ds) : Escapes (c :: cs) ∨ ∃ ds, ds <:+ cs ∧ Escapes ds := by
  rcases List.suffix_cons_iff.1 h with rfl | h
  · exact .inl hesc
  · exact .inr ⟨ds, h, hesc⟩

theorem decodeBytes_bytes {cs : List Char} (h : ∀ ds, ds <:+ cs → ¬ Escapes ds) :
    decodeBytes (bytes cs) = bytes cs := by
  induction cs with
  | nil => rfl
  | cons c cs ih =>
      rw [decodeBytes_of_not_escapes (h _ List.suffix_rfl), bytes_cons,
        ih fun ds hds => h ds (hds.trans (List.suffix_cons c cs))]

/-- A text is not made longer by decoding. -/
theorem length_pieces_decodeBytes_le (cs : List Char) :
    (pieces (decodeBytes (bytes cs))).length ≤ cs.length := by
  match cs with
  | [] => simp [bytes, decodeBytes, pieces]
  | c :: cs =>
    by_cases h : Escapes (c :: cs)
    · obtain ⟨a, b, back, heq, ha, hb⟩ := h
      rw [heq]
      obtain ⟨x, hx⟩ := decodeBytes_of_escape ha hb back
      have hlength : cs.length = back.length + 2 := by
        rw [(List.cons.inj heq).2]
        rfl
      have ih := length_pieces_decodeBytes_le back
      have hle := length_pieces_cons_le x (decodeBytes (bytes back))
      rw [hx]
      simp only [List.length_cons]
      omega
    · have ih := length_pieces_decodeBytes_le cs
      rw [decodeBytes_of_not_escapes h, pieces_utf8EncodeChar_append]
      simp only [List.length_cons]
      omega
termination_by cs.length
decreasing_by all_goals simp only [List.length_cons]; omega

/-- A text with an escape is made shorter. -/
theorem length_pieces_decodeBytes_lt {cs : List Char} (h : ∃ ds, ds <:+ cs ∧ Escapes ds) :
    (pieces (decodeBytes (bytes cs))).length < cs.length := by
  induction cs with
  | nil =>
      obtain ⟨ds, hds, a, b, back, rfl, -⟩ := h
      cases List.suffix_nil.1 hds
  | cons c cs ih =>
      by_cases hc : Escapes (c :: cs)
      · obtain ⟨a, b, back, heq, ha, hb⟩ := hc
        rw [heq]
        obtain ⟨x, hx⟩ := decodeBytes_of_escape ha hb back
        have hle := length_pieces_cons_le x (decodeBytes (bytes back))
        have hback := length_pieces_decodeBytes_le back
        rw [hx]
        simp only [List.length_cons]
        omega
      · obtain ⟨ds, hds, hesc⟩ := h
        have hlt := ih ((escapes_or_of_suffix_cons hds hesc).resolve_left hc)
        rw [decodeBytes_of_not_escapes hc, pieces_utf8EncodeChar_append]
        simp only [List.length_cons]
        omega

/-- Decoding makes a text with an escape shorter. -/
theorem length_decode_lt {s : String} (h : HasEscape s) : (decode s).length < s.length := by
  have hlt := length_pieces_decodeBytes_lt h
  rw [decode, decodeLossy, String.length_ofList, List.length_map]
  exact hlt

theorem decode_of_not_hasEscape {s : String} (h : ¬ HasEscape s) : decode s = s := by
  have hsame : decodeBytes (utf8 s) = utf8 s :=
    decodeBytes_bytes fun ds hds hesc => h ⟨ds, hds, hesc⟩
  rw [decode, hsame, decodeLossy_utf8]

/-- Decoding leaves a text alone exactly if there is no escape in it. -/
theorem decode_eq_self_iff {s : String} : decode s = s ↔ ¬ HasEscape s := by
  refine ⟨fun heq h => ?_, decode_of_not_hasEscape⟩
  have hlt := length_decode_lt h
  rw [heq] at hlt
  exact Nat.lt_irrefl _ hlt

end Percent

end Switchboard.Text
