import Switchboard.Digest.Md5
import Switchboard.Proofs.Text.Percent

set_option autoImplicit false

/-! # Digests, as files are read and as they are written

A file is hashed while it is read, and how much each read gives is not known. The digest is that of
the whole content all the same (`Md5.Reading.digest_eq`). As text it has two small hexadecimal
digits for each byte, from which the bytes can be read back (`Text.ofHexBytes?_hexBytes`).
-/

namespace Switchboard

open Text (Bytes utf8)

/-! ## Files that are read in pieces -/

namespace Md5

variable {buffer : Nat} {content : Bytes} {chunks : List Bytes}

/-- A way to read a content through a buffer: as long as something is left, a read gives a part of
it that fits the buffer and is not empty. -/
inductive Reading (buffer : Nat) : Bytes → List Bytes → Prop
  | done : Reading buffer [] []
  | read {chunk rest : Bytes} {chunks : List Bytes} : chunk ≠ [] → chunk.length ≤ buffer →
      Reading buffer rest chunks → Reading buffer (chunk ++ rest) (chunk :: chunks)

theorem Reading.flatten (h : Reading buffer content chunks) : chunks.flatten = content := by
  induction h with
  | done => rfl
  | read hne hfits hrest ih => rw [List.flatten_cons, ih]

/-- Every content can be read, one byte at a time if need be. -/
theorem reading_bytes (hbuffer : 0 < buffer) (content : Bytes) :
    Reading buffer content (content.map fun b => [b]) := by
  induction content with
  | nil => exact .done
  | cons b rest ih => exact .read (List.cons_ne_nil b []) hbuffer ih

theorem foldl_update (s : Md5) (chunks : List Bytes) :
    chunks.foldl update s = s.update chunks.flatten := by
  induction chunks generalizing s with
  | nil => rfl
  | cons chunk rest ih => rw [List.foldl_cons, ih, List.flatten_cons, update_append]

/-- It makes no difference to the digest in which pieces the content is read. -/
theorem Reading.digest_eq (h : Reading buffer content chunks) :
    (chunks.foldl update {}).finish = digest content := by
  rw [foldl_update, h.flatten, digest]

theorem length_digest (bs : Bytes) : (digest bs).length = 16 := by
  simp [digest, finish, lowBytes]

end Md5

/-! ## Bytes as hexadecimal digits -/

namespace Text

/-- The small hexadecimal digits. -/
def smallHexDigits : List Char := "0123456789abcdef".toList

theorem smallHexDigit_read : ∀ n < 16, (hexDigit n).toLower ∈ smallHexDigits ∧
    ∃ d, String.utf8EncodeChar (hexDigit n).toLower = [d] ∧
      hexValue? d = some (UInt8.ofNat n) := by
  intro n hn
  have hread : ∀ n < 16, (hexDigit n).toLower ∈ smallHexDigits ∧
      String.utf8EncodeChar (hexDigit n).toLower = [UInt8.ofNat (hexDigit n).toLower.toNat] ∧
      hexValue? (UInt8.ofNat (hexDigit n).toLower.toNat) = some (UInt8.ofNat n) := by
    decide
  obtain ⟨hmem, hencode, hvalue⟩ := hread n hn
  exact ⟨hmem, _, hencode, hvalue⟩

theorem hexBytes_cons (b : UInt8) (bs : Bytes) : (hexBytes (b :: bs)).toList =
    (hexDigit (b.toNat / 16)).toLower :: (hexDigit (b.toNat % 16)).toLower ::
      (hexBytes bs).toList := by
  rw [hexBytes, String.toList_ofList, List.flatMap_cons, hexBytes, String.toList_ofList]
  rfl

theorem length_hexBytes (bs : Bytes) : (hexBytes bs).length = 2 * bs.length := by
  rw [← String.length_toList]
  induction bs with
  | nil => rfl
  | cons b bs ih =>
      rw [hexBytes_cons, List.length_cons, List.length_cons, ih, List.length_cons]
      omega

theorem mem_smallHexDigits_of_mem_hexBytes {bs : Bytes} {c : Char} (h : c ∈ (hexBytes bs).toList) :
    c ∈ smallHexDigits := by
  induction bs with
  | nil => cases h
  | cons b bs ih =>
      have hb : b.toNat < 256 := b.toNat_lt_size
      rw [hexBytes_cons, List.mem_cons, List.mem_cons] at h
      rcases h with rfl | rfl | h
      · exact (smallHexDigit_read _ (by omega)).1
      · exact (smallHexDigit_read _ (by omega)).1
      · exact ih h

/-- The bytes can be read back from their digits. -/
theorem ofHexBytes?_hexBytes (bs : Bytes) : ofHexBytes? (utf8 (hexBytes bs)) = some bs := by
  rw [utf8]
  induction bs with
  | nil => rfl
  | cons b bs ih =>
      have hb : b.toNat < 256 := b.toNat_lt_size
      obtain ⟨-, high, hhigh, hhighValue⟩ := smallHexDigit_read (b.toNat / 16) (by omega)
      obtain ⟨-, low, hlow, hlowValue⟩ := smallHexDigit_read (b.toNat % 16) (by omega)
      rw [hexBytes_cons, List.flatMap_cons, List.flatMap_cons, hhigh, hlow, List.singleton_append,
        List.singleton_append, ofHexBytes?, Percent.hexPair?_of_halves hhighValue hlowValue, ih]
      rfl

-- The digest that other implementations give for this text.
example : hexBytes (Md5.digest (utf8 "hello world")) = "5eb63bbbe01eeed093cb22bb8f5acdc3" := by
  decide +kernel

end Text

end Switchboard
