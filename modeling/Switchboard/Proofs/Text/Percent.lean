import Switchboard.Proofs.Text.Utf8
import Switchboard.Text.Percent

set_option autoImplicit false

/-! # Reading back what was percent-encoded

Decoding undoes encoding (`Percent.decode_encode`). A slash stands for itself and is no hexadecimal
digit, so a text is decoded part by part between its slashes, whether it was encoded or not
(`Percent.decode_append_slash`).
-/

namespace Switchboard.Text

theorem utf8_append (s t : String) : utf8 (s ++ t) = utf8 s ++ utf8 t := by
  rw [utf8, String.toList_append, List.flatMap_append]
  rfl

namespace Percent

variable {a b c : UInt8}

/-! ## One step of the decoder -/

theorem decodeBytes_hexPair {x : UInt8} (h : hexPair? b c = some x) (bs : Bytes) :
    decodeBytes (0x25 :: b :: c :: bs) = x :: decodeBytes bs := by
  rw [decodeBytes, if_pos rfl, h]

theorem decodeBytes_of_ne (h : a ≠ 0x25) (bs : Bytes) :
    decodeBytes (a :: bs) = a :: decodeBytes bs := by
  match bs with
  | [] | [_] => rfl
  | _ :: _ :: _ => rw [decodeBytes, if_neg h]

/-- A byte stands for itself if no two digits follow, be it a percent sign or not. -/
theorem decodeBytes_of_no_hexPair {bs : Bytes}
    (h : ∀ b c rest, bs = b :: c :: rest → hexPair? b c = none) :
    decodeBytes (a :: bs) = a :: decodeBytes bs := by
  by_cases ha : a = 0x25
  · match bs with
    | [] | [_] => rfl
    | b :: c :: rest => rw [decodeBytes, if_pos ha, h b c rest rfl]
  · exact decodeBytes_of_ne ha bs

/-! ## Undoing the encoding -/

/-- The bytes of the encoded form of one byte. -/
def encodedBytes (b : UInt8) : Bytes := (encodeByte b).flatMap String.utf8EncodeChar

theorem utf8_encode (s : String) : utf8 (encode s) = (utf8 s).flatMap encodedBytes := by
  rw [utf8, encode, String.toList_ofList, List.flatMap_assoc]
  rfl

theorem hexDigit_read : ∀ n < 16, ∃ d, String.utf8EncodeChar (hexDigit n) = [d] ∧
    hexValue? d = some (UInt8.ofNat n) := by
  intro n hn
  refine ⟨UInt8.ofNat (hexDigit n).toNat, ?_⟩
  revert n
  decide

/-- The digits of the two halves of a byte stand for the byte. -/
theorem hexPair?_of_halves {high low : UInt8}
    (hhigh : hexValue? high = some (UInt8.ofNat (b.toNat / 16)))
    (hlow : hexValue? low = some (UInt8.ofNat (b.toNat % 16))) : hexPair? high low = some b := by
  have hb : b.toNat < 256 := b.toNat_lt_size
  have hvalue : UInt8.ofNat (b.toNat / 16) * 16 + UInt8.ofNat (b.toNat % 16) = b := by
    rw [← UInt8.toNat_inj]
    simp
    omega
  rw [hexPair?, hhigh, hlow]
  exact congrArg some hvalue

/-- A byte that stands for itself is an ASCII character, but neither a percent sign nor a slash. -/
theorem isUnreserved_ascii {b : UInt8} (h : isUnreserved b) :
    b.toNat < 0x80 ∧ b.toNat ≠ 0x25 ∧ b.toNat ≠ 0x2F := by
  simp only [isUnreserved, Bool.or_eq_true, Bool.and_eq_true, decide_eq_true_eq, beq_iff_eq,
    UInt8.le_iff_toNat_le, ← UInt8.toNat_inj, UInt8.reduceToNat] at h
  omega

theorem encodedBytes_of_unreserved {b : UInt8} (h : isUnreserved b) : encodedBytes b = [b] := by
  rw [encodedBytes, encodeByte, if_pos h, List.flatMap_singleton,
    utf8EncodeChar_ascii (isUnreserved_ascii h).1]

theorem decodeBytes_encodedBytes_append (b : UInt8) (bs : Bytes) :
    decodeBytes (encodedBytes b ++ bs) = b :: decodeBytes bs := by
  have hb : b.toNat < 256 := b.toNat_lt_size
  by_cases h : isUnreserved b
  · have hne : b ≠ 0x25 := fun e => (isUnreserved_ascii h).2.1 (congrArg UInt8.toNat e)
    rw [encodedBytes_of_unreserved h, List.singleton_append, decodeBytes_of_ne hne]
  · obtain ⟨high, hhigh, hhighValue⟩ := hexDigit_read (b.toNat / 16) (by omega)
    obtain ⟨low, hlow, hlowValue⟩ := hexDigit_read (b.toNat % 16) (by omega)
    have hbytes : encodedBytes b = [0x25, high, low] := by
      rw [encodedBytes, encodeByte, if_neg h, List.flatMap_cons, List.flatMap_cons,
        List.flatMap_cons, hhigh, hlow]
      rfl
    rw [hbytes]
    exact decodeBytes_hexPair (hexPair?_of_halves hhighValue hlowValue) bs

theorem decodeBytes_flatMap_encodedBytes (bs : Bytes) :
    decodeBytes (bs.flatMap encodedBytes) = bs := by
  induction bs with
  | nil => rfl
  | cons b bs ih => rw [List.flatMap_cons, decodeBytes_encodedBytes_append, ih]

/-- Decoding undoes encoding. -/
theorem decode_encode (s : String) : decode (encode s) = s := by
  rw [decode, utf8_encode, decodeBytes_flatMap_encodedBytes, decodeLossy_utf8]

theorem slash_ne_hexDigit : ∀ n < 16, hexDigit n ≠ '/' := by
  decide

theorem slash_not_mem_encodeByte (b : UInt8) : '/' ∉ encodeByte b := by
  have hb : b.toNat < 256 := b.toNat_lt_size
  rw [encodeByte]
  split
  · next h =>
    obtain ⟨hascii, -, hne⟩ := isUnreserved_ascii h
    intro hmem
    have hslash : Char.ofNat b.toNat = '/' := (List.mem_singleton.1 hmem).symm
    refine hne ?_
    rw [← toNat_ofNat (n := b.toNat) (.inl (by omega)), hslash]
    rfl
  · have hhigh := slash_ne_hexDigit (b.toNat / 16) (by omega)
    have hlow := slash_ne_hexDigit (b.toNat % 16) (by omega)
    simp [hhigh.symm, hlow.symm]

/-- No slash is left in an encoded text. -/
theorem slash_not_mem_encode (s : String) : '/' ∉ (encode s).toList := by
  rw [encode, String.toList_ofList, List.mem_flatMap]
  rintro ⟨b, -, hmem⟩
  exact slash_not_mem_encodeByte b hmem

/-! ## Slashes -/

theorem hexPair?_slash_left (c : UInt8) : hexPair? 0x2F c = none := rfl

theorem hexPair?_slash_right (b : UInt8) : hexPair? b 0x2F = none := by
  rw [hexPair?]
  cases hexValue? b <;> rfl

theorem decodeBytes_slash (bs : Bytes) : decodeBytes (0x2F :: bs) = 0x2F :: decodeBytes bs :=
  decodeBytes_of_ne (by decide) bs

/-- Bytes are decoded part by part between slashes. -/
theorem decodeBytes_append_slash (xs ys : Bytes) :
    decodeBytes (xs ++ 0x2F :: ys) = decodeBytes xs ++ 0x2F :: decodeBytes ys := by
  fun_induction decodeBytes xs with
  | case1 => exact decodeBytes_slash ys
  | case2 a =>
      have hfirst : decodeBytes (a :: 0x2F :: ys) = a :: decodeBytes (0x2F :: ys) := by
        refine decodeBytes_of_no_hexPair ?_
        rintro _ c rest ⟨⟩
        exact hexPair?_slash_left c
      rw [List.singleton_append, hfirst, decodeBytes_slash, List.singleton_append]
  | case3 a b =>
      have hsecond : decodeBytes (b :: 0x2F :: ys) = b :: decodeBytes (0x2F :: ys) := by
        refine decodeBytes_of_no_hexPair ?_
        rintro _ c rest ⟨⟩
        exact hexPair?_slash_left c
      have hfirst : decodeBytes (a :: b :: 0x2F :: ys) = a :: decodeBytes (b :: 0x2F :: ys) := by
        refine decodeBytes_of_no_hexPair ?_
        rintro b _ rest ⟨⟩
        exact hexPair?_slash_right b
      rw [List.cons_append, List.singleton_append, hfirst, hsecond, decodeBytes_slash]
      rfl
  | case4 b c bs x h ih =>
      rw [List.cons_append, List.cons_append, List.cons_append, decodeBytes_hexPair h, ih,
        List.cons_append]
  | case5 b c bs h ih =>
      have hfirst : decodeBytes (0x25 :: (b :: c :: bs ++ 0x2F :: ys)) =
          0x25 :: decodeBytes (b :: c :: bs ++ 0x2F :: ys) := by
        refine decodeBytes_of_no_hexPair ?_
        rintro _ _ _ ⟨⟩
        exact h
      rw [List.cons_append, hfirst, ih, List.cons_append]
  | case6 a b c bs h ih => rw [List.cons_append, decodeBytes_of_ne h, ih, List.cons_append]

/-- A text is decoded part by part between its slashes. -/
theorem decode_append_slash (s t : String) :
    decode (s ++ "/" ++ t) = decode s ++ "/" ++ decode t := by
  have hbytes : utf8 (s ++ "/" ++ t) = utf8 s ++ 0x2F :: utf8 t := by
    rw [utf8_append, utf8_append, List.append_assoc]
    rfl
  rw [decode, hbytes, decodeBytes_append_slash, decodeLossy_append_slash]
  rfl

theorem decode_empty : decode "" = "" := decode_encode ""

theorem decode_slash_append (t : String) : decode ("/" ++ t) = "/" ++ decode t := by
  have h := decode_append_slash "" t
  rwa [String.empty_append, decode_empty, String.empty_append] at h

theorem encode_ne_empty {s : String} (h : s ≠ "") : encode s ≠ "" := by
  intro he
  have hdecode := decode_encode s
  rw [he, decode_empty] at hdecode
  exact h hdecode.symm

/-- Texts that were encoded one by one and joined by slashes are read back as the texts joined. -/
theorem decode_intercalate_encode (l : List String) :
    decode ("/".intercalate (l.map encode)) = "/".intercalate l := by
  induction l with
  | nil => exact decode_empty
  | cons s l ih =>
      cases l with
      | nil => exact decode_encode s
      | cons t l =>
          rw [List.map_cons, List.map_cons, String.intercalate_cons_cons, decode_append_slash,
            decode_encode, ← List.map_cons, ih, String.intercalate_cons_cons]

end Percent

end Switchboard.Text
