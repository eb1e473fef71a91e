import Mathlib.Data.List.Basic
import Switchboard.Text.Utf8

set_option autoImplicit false

/-! # Reading back what was written in UTF-8

The bytes of a text are read as that text (`Text.decodeLossy_utf8`). An ASCII byte never belongs to
a character or a malformed run that began before it, so bytes may be cut in front of one and read
part by part (`Text.pieces_append_ascii`); between slashes this is `Text.decodeLossy_append_slash`.
-/

namespace Switchboard.Text

variable {b : UInt8} {n : Nat} {rs : List (UInt8 × UInt8)}

/-! ## One step of the reader -/

theorem pieces_of_lead?_none (h : lead? b = none) (bs : Bytes) :
    pieces (b :: bs) = none :: pieces bs := by
  rw [pieces, h]

theorem pieces_of_lead? (h : lead? b = some (n, rs)) (bs : Bytes) :
    pieces (b :: bs) = (continue? n rs bs).1 :: pieces (continue? n rs bs).2 := by
  rw [pieces, h]

theorem lead?_ascii (h : b < 0x80) : lead? b = some (b.toNat, []) := by
  rw [lead?, if_pos h]

theorem pieces_ascii (h : b < 0x80) (bs : Bytes) :
    pieces (b :: bs) = some (Char.ofNat b.toNat) :: pieces bs :=
  pieces_of_lead? (lead?_ascii h) bs

/-- A byte in its range adds its six bits. -/
theorem continue?_ofNat {m : Nat} (hm : m < 64) {lo hi : UInt8} (hlo : lo.toNat ≤ m + 0x80)
    (hhi : m + 0x80 ≤ hi.toNat) (bs : Bytes) :
    continue? n ((lo, hi) :: rs) (UInt8.ofNat (m + 0x80) :: bs) =
      continue? (n * 64 + m) rs bs := by
  have hb : (UInt8.ofNat (m + 0x80)).toNat = m + 0x80 := by
    rw [UInt8.toNat_ofNat']
    omega
  have hbits : (m + 0x80) % 64 = m := by omega
  have hrange : lo ≤ UInt8.ofNat (m + 0x80) ∧ UInt8.ofNat (m + 0x80) ≤ hi := by
    rw [UInt8.le_iff_toNat_le, UInt8.le_iff_toNat_le, hb]
    exact ⟨hlo, hhi⟩
  rw [continue?, if_pos hrange, hb, hbits]

theorem continue?_tail {m : Nat} (hm : m < 64) (bs : Bytes) :
    continue? n ((0x80, 0xBF) :: rs) (UInt8.ofNat (m + 0x80) :: bs) =
      continue? (n * 64 + m) rs bs := by
  refine continue?_ofNat hm ?_ ?_ bs
  · exact Nat.le_add_left 0x80 m
  · show m + 0x80 ≤ 0xBF
    omega

/-! ## Reading back one character

What the first byte of a character of two, three and four bytes announces. Numbers that have a
shorter form, those of surrogates and those above all characters are kept out by the range of the
second byte. -/

theorem lead?_two : ∀ n < 30, lead? (UInt8.ofNat (n + 0xC2)) = some (n + 2, [(0x80, 0xBF)]) := by
  decide

theorem lead?_three : ∀ n < 16, lead? (UInt8.ofNat (n + 0xE0)) =
    some (n, [if n = 0 then (0xA0, 0xBF) else if n = 13 then (0x80, 0x9F) else (0x80, 0xBF),
      (0x80, 0xBF)]) := by
  decide

theorem lead?_four : ∀ n < 5, lead? (UInt8.ofNat (n + 0xF0)) =
    some (n, [if n = 0 then (0x90, 0xBF) else if n = 4 then (0x80, 0x8F) else (0x80, 0xBF),
      (0x80, 0xBF), (0x80, 0xBF)]) := by
  decide

/-- The byte after the first one, whose range the two numbers `0` and `k` narrow. -/
theorem continue?_second {m k : Nat} {lo hi : UInt8} (hm : m < 64)
    (hlo : n = 0 → lo.toNat ≤ m + 0x80) (hhi : n = k → m + 0x80 ≤ hi.toNat) (bs : Bytes) :
    continue? n ((if n = 0 then (lo, 0xBF) else if n = k then (0x80, hi) else (0x80, 0xBF)) :: rs)
      (UInt8.ofNat (m + 0x80) :: bs) = continue? (n * 64 + m) rs bs := by
  split
  · next h =>
    refine continue?_ofNat hm (hlo h) ?_ bs
    show m + 0x80 ≤ 0xBF
    omega
  · split
    · next h =>
      refine continue?_ofNat hm ?_ (hhi h) bs
      exact Nat.le_add_left 0x80 m
    · exact continue?_tail hm bs

theorem toNat_ofNat {n : Nat} (h : n.isValidChar) : (Char.ofNat n).toNat = n := by
  rw [Char.ofNat, dif_pos h]
  rfl

theorem utf8EncodeChar_ascii (h : b.toNat < 0x80) :
    String.utf8EncodeChar (Char.ofNat b.toNat) = [b] := by
  have hc : (Char.ofNat b.toNat).val.toNat = b.toNat := toNat_ofNat (.inl (by omega))
  simp only [String.utf8EncodeChar, hc]
  rw [if_pos (Nat.le_of_lt_succ h), UInt8.ofNat_toNat]

/-- The bytes of a character are read as this character, whatever comes after them. -/
theorem pieces_utf8EncodeChar_append (c : Char) (bs : Bytes) :
    pieces (String.utf8EncodeChar c ++ bs) = some c :: pieces bs := by
  have hvalid : c.val.toNat < 0xD800 ∨ 0xDFFF < c.val.toNat ∧ c.val.toNat < 0x110000 := c.valid
  have hchar : Char.ofNat c.val.toNat = c := Char.ofNat_toNat c
  simp only [String.utf8EncodeChar]
  generalize c.val.toNat = v at hvalid hchar
  split
  · next hone =>
    have hb : (UInt8.ofNat v).toNat = v := by
      rw [UInt8.toNat_ofNat']
      omega
    have hascii : UInt8.ofNat v < 0x80 := by
      rw [UInt8.lt_iff_toNat_lt, hb]
      exact Nat.lt_succ_of_le hone
    rw [List.singleton_append, pieces_ascii hascii, hb, hchar]
  · next hone =>
    split
    · next htwo =>
      have hfirst : v / 64 % 32 + 0xC0 = (v / 64 - 2) + 0xC2 := by omega
      have hvalue : (v / 64 - 2 + 2) * 64 + v % 64 = v := by omega
      rw [List.cons_append, List.singleton_append, hfirst, pieces_of_lead? (lead?_two _ (by omega)),
        continue?_tail (by omega), continue?, hvalue, hchar]
    · next htwo =>
      split
      · next hthree =>
        have hvalue : (v / 4096 % 16 * 64 + v / 64 % 64) * 64 + v % 64 = v := by omega
        have hshort : v / 4096 % 16 = 0 → 0xA0 ≤ v / 64 % 64 + 0x80 := by omega
        have hsurrogate : v / 4096 % 16 = 13 → v / 64 % 64 + 0x80 ≤ 0x9F := by omega
        rw [List.cons_append, List.cons_append, List.singleton_append,
          pieces_of_lead? (lead?_three _ (by omega)),
          continue?_second (by omega) hshort hsurrogate, continue?_tail (by omega), continue?,
          hvalue, hchar]
      · next hthree =>
        have hvalue : ((v / 262144 % 8 * 64 + v / 4096 % 64) * 64 + v / 64 % 64) * 64 + v % 64 =
            v := by
          omega
        have hshort : v / 262144 % 8 = 0 → 0x90 ≤ v / 4096 % 64 + 0x80 := by omega
        have hlast : v / 262144 % 8 = 4 → v / 4096 % 64 + 0x80 ≤ 0x8F := by omega
        rw [List.cons_append, List.cons_append, List.cons_append, List.singleton_append,
          pieces_of_lead? (lead?_four _ (by omega)), continue?_second (by omega) hshort hlast,
          continue?_tail (by omega), continue?_tail (by omega), continue?, hvalue, hchar]

/-! ## Reading back a text -/

theorem pieces_flatMap_utf8EncodeChar (cs : List Char) :
    pieces (cs.flatMap String.utf8EncodeChar) = cs.map some := by
  induction cs with
  | nil => rw [List.flatMap_nil, pieces, List.map_nil]
  | cons c cs ih => rw [List.flatMap_cons, pieces_utf8EncodeChar_append, ih, List.map_cons]

/-- A text is read back from its bytes. -/
theorem decodeLossy_utf8 (s : String) : decodeLossy (utf8 s) = s := by
  have hread : (fun o : Option Char => o.getD '\ufffd') ∘ some = id := rfl
  rw [decodeLossy, utf8, pieces_flatMap_utf8EncodeChar, List.map_map, hread, List.map_id,
    String.ofList_toList]

/-! ## Cutting in front of an ASCII byte -/

/-- The bytes that a first byte asks for begin no character themselves. -/
theorem inside_of_mem_lead? (h : lead? b = some (n, rs)) : ∀ r ∈ rs, 0x80 ≤ r.1 ∧ r.2 ≤ 0xBF := by
  rw [lead?] at h
  split_ifs at h
  all_goals simp only [Option.some.injEq, Prod.mk.injEq] at h
  all_goals
    obtain ⟨-, rfl⟩ := h
    simp

/-- None of them is an ASCII byte. -/
theorem not_lt_of_mem_lead? (h : lead? b = some (n, rs)) : ∀ r ∈ rs, ¬ r.1 < 0x80 :=
  fun r hr => UInt8.not_lt.2 (inside_of_mem_lead? h r hr).1

/-- What is read of a character that was begun stops at an ASCII byte. -/
theorem continue?_append_ascii (hrs : ∀ r ∈ rs, ¬ r.1 < 0x80) (hb : b < 0x80) (xs ys : Bytes) :
    continue? n rs (xs ++ b :: ys) =
      ((continue? n rs xs).1, (continue? n rs xs).2 ++ b :: ys) := by
  induction rs generalizing n xs with
  | nil => rw [continue?, continue?]
  | cons r rs ih =>
      obtain ⟨hr, hrest⟩ := List.forall_mem_cons.1 hrs
      cases xs with
      | nil =>
          have hout : ¬ (r.1 ≤ b ∧ b ≤ r.2) := fun hin => hr (UInt8.lt_of_le_of_lt hin.1 hb)
          show continue? n (r :: rs) (b :: ys) = (none, b :: ys)
          rw [continue?, if_neg hout]
      | cons x xs =>
          rw [List.cons_append, continue?, continue?]
          split
          · exact ih hrest xs
          · rfl

/-- Bytes may be cut in front of an ASCII byte and read part by part. -/
theorem pieces_append_ascii (hb : b < 0x80) (xs ys : Bytes) :
    pieces (xs ++ b :: ys) = pieces xs ++ pieces (b :: ys) := by
  fun_induction pieces xs with
  | case1 => rfl
  | case2 x xs h ih => rw [List.cons_append, pieces_of_lead?_none h, ih, List.cons_append]
  | case3 x xs n rs h _ ih =>
      rw [List.cons_append, pieces_of_lead? h,
        continue?_append_ascii (not_lt_of_mem_lead? h) hb, ih, List.cons_append]

theorem decodeLossy_append_slash (xs ys : Bytes) :
    decodeLossy (xs ++ 0x2F :: ys) = decodeLossy xs ++ "/" ++ decodeLossy ys := by
  have hpieces : pieces (xs ++ 0x2F :: ys) = pieces xs ++ [some '/'] ++ pieces ys := by
    rw [pieces_append_ascii (by decide), pieces_ascii (by decide), List.append_assoc]
    rfl
  rw [decodeLossy, hpieces, List.map_append, List.map_append, String.ofList_append,
    String.ofList_append]
  rfl

end Switchboard.Text
