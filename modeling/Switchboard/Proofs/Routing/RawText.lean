import Mathlib.Data.List.TakeWhile
import Switchboard.Routing.Segment

set_option autoImplicit false

/-! # Segments and the raw text from a segment on

`segments` remembers byte offsets and `textFrom` cuts at them. Here the same text is found by
walking over the characters: `Text.fromPiece` leaves pieces out one after another, and `rawTail`
is the text from the segment with a given index on. The main statement is `textFrom_offset`: the
cut at the offset of a segment gives `rawTail` of its index.
-/

namespace Switchboard

namespace Text

variable {sep : Char}

/-! ## Splitting at the first separator -/

theorem splitOn_of_not_mem {p : List Char} (h : sep ∉ p) : splitOn sep p = [p] := by
  induction p with
  | nil => rfl
  | cons c p ih =>
      have hc : c ≠ sep := fun e => h (by simp [e])
      have hp : sep ∉ p := fun e => h (by simp [e])
      rw [splitOn, ih hp]
      simp [hc]

theorem splitOn_append_cons {p : List Char} (h : sep ∉ p) (cs : List Char) :
    splitOn sep (p ++ sep :: cs) = p :: splitOn sep cs := by
  induction p with
  | nil =>
      rw [List.nil_append, splitOn]
      split
      · next e => exact absurd e (splitOn_ne_nil sep cs)
      · next e => simp [e]
  | cons c p ih =>
      have hc : c ≠ sep := fun e => h (by simp [e])
      have hp : sep ∉ p := fun e => h (by simp [e])
      rw [List.cons_append, splitOn, ih hp]
      simp [hc]

/-- A text has no separator, or it is a piece, a separator and a shorter text. -/
@[elab_as_elim]
theorem pieceInduction (sep : Char) {motive : List Char → Prop} (last : ∀ p, sep ∉ p → motive p)
    (step : ∀ p cs, sep ∉ p → motive cs → motive (p ++ sep :: cs)) (cs : List Char) :
    motive cs := by
  induction h : cs.length using Nat.strongRecOn generalizing cs with
  | _ n ih =>
      by_cases hm : sep ∈ cs
      · obtain ⟨p, rest, rfl, hp⟩ := List.eq_append_cons_of_mem hm
        refine step p rest hp (ih rest.length ?_ rest rfl)
        rw [← h]
        simp
        omega
      · exact last cs hm

theorem splitOn_append_last (cs : List Char) {p : List Char} (h : sep ∉ p) :
    splitOn sep (cs ++ sep :: p) = splitOn sep cs ++ [p] := by
  induction cs using pieceInduction sep with
  | last q hq => rw [splitOn_append_cons hq, splitOn_of_not_mem h, splitOn_of_not_mem hq]; rfl
  | step q cs hq ih =>
      rw [List.append_assoc, List.cons_append, splitOn_append_cons hq, ih, splitOn_append_cons hq]
      rfl

/-! ## The text from a piece on -/

/-- The text from the non-empty piece with index `n` on; empty if there are no more than `n`. -/
def fromPiece (sep : Char) : Nat → List Char → List Char
  | 0, cs => cs.dropWhile (· = sep)
  | n + 1, cs => fromPiece sep n ((cs.dropWhile (· = sep)).dropWhile (· ≠ sep))

theorem fromPiece_nil (n : Nat) : fromPiece sep n [] = [] := by
  induction n with
  | zero => rfl
  | succ n ih => exact ih

theorem fromPiece_sep (n : Nat) (cs : List Char) :
    fromPiece sep n (sep :: cs) = fromPiece sep n cs := by
  cases n <;> simp [fromPiece]

theorem dropWhile_eq_self_of_not_mem {p : List Char} (h : sep ∉ p) (cs : List Char)
    (hp : p ≠ []) : (p ++ cs).dropWhile (· = sep) = p ++ cs := by
  cases p with
  | nil => exact absurd rfl hp
  | cons c p =>
      have hc : c ≠ sep := fun e => h (by simp [e])
      simp [hc]

theorem fromPiece_zero_append {p : List Char} (h : sep ∉ p) (hp : p ≠ []) (cs : List Char) :
    fromPiece sep 0 (p ++ cs) = p ++ cs :=
  dropWhile_eq_self_of_not_mem h cs hp

theorem decide_ne_of_not_mem {p : List Char} (h : sep ∉ p) :
    ∀ c ∈ p, decide (c ≠ sep) = true := by
  intro c hc
  have hne : c ≠ sep := fun e => h (e ▸ hc)
  simpa using hne

theorem fromPiece_succ_append {p : List Char} (h : sep ∉ p) (hp : p ≠ []) (n : Nat)
    (cs : List Char) : fromPiece sep (n + 1) (p ++ sep :: cs) = fromPiece sep n cs := by
  rw [fromPiece, dropWhile_eq_self_of_not_mem h _ hp,
    List.dropWhile_append_of_pos (decide_ne_of_not_mem h)]
  simp [fromPiece_sep]

theorem fromPiece_succ_of_not_mem {p : List Char} (h : sep ∉ p) (n : Nat) :
    fromPiece sep (n + 1) p = [] := by
  have hd : (p.dropWhile (· = sep)).dropWhile (· ≠ sep) = [] := by
    rw [List.dropWhile_eq_nil_iff]
    intro c hc
    exact decide_ne_of_not_mem h c ((List.dropWhile_sublist _).subset hc)
  rw [fromPiece, hd, fromPiece_nil]

theorem byteLength_append (cs ds : List Char) :
    byteLength (cs ++ ds) = byteLength cs + byteLength ds := by
  induction cs with
  | nil => simp
  | cons c cs ih =>
      rw [List.cons_append, byteLength_cons, ih, byteLength_cons, Nat.add_assoc]

end Text

open Text

/-! ## Offsets -/

theorem Segment.map_text_ofPieces (offset : Nat) (ps : List (List Char)) :
    (ofPieces offset ps).map (·.text) = (ps.filter (!·.isEmpty)).map String.ofList := by
  induction ps generalizing offset with
  | nil => rfl
  | cons p ps ih =>
      rw [ofPieces]
      cases p with
      | nil => simpa using ih _
      | cons c p => simpa using ih _

/-- The segments of a path are its non-empty pieces. -/
theorem map_text_segments (path : String) : (segments path).map (·.text) = pathPieces path :=
  Segment.map_text_ofPieces 0 _

/-- Dropping the bytes before a segment leaves the text from its index on. The text in `front` has
been split off already. -/
theorem Segment.dropBytes?_offset (cs : List Char) :
    ∀ (front : List Char) (n : Nat) (s : Segment),
      (ofPieces (byteLength front) (splitOn '/' cs))[n]? = some s →
        dropBytes? s.offset (front ++ cs) = some (fromPiece '/' n cs) := by
  induction cs using pieceInduction '/' with
  | last p hp =>
      intro front n s h
      rw [splitOn_of_not_mem hp, ofPieces] at h
      cases p with
      | nil => simp [ofPieces] at h
      | cons c p =>
          cases n with
          | succ n => simp [ofPieces] at h
          | zero =>
              simp only [List.isEmpty_cons, Bool.false_eq_true, if_false, List.getElem?_cons_zero,
                Option.some.injEq] at h
              rw [← h, dropBytes?_byteLength_append]
              have h0 := fromPiece_zero_append hp (by simp) []
              rw [List.append_nil] at h0
              rw [h0]
  | step p cs hp ih =>
      intro front n s h
      rw [splitOn_append_cons hp, ofPieces] at h
      -- the rest is split with the piece and its separator in front
      have hfront : byteLength front + byteLength p + 1 = byteLength (front ++ p ++ ['/']) := by
        simp only [byteLength_append, byteLength_cons, byteLength_nil]
        rfl
      have happ : front ++ (p ++ '/' :: cs) = (front ++ p ++ ['/']) ++ cs := by simp
      rw [hfront] at h
      cases p with
      | nil =>
          rw [List.nil_append, fromPiece_sep, ← ih _ n s (by simpa using h)]
          simp
      | cons c p =>
          cases n with
          | zero =>
              simp only [List.isEmpty_cons, Bool.false_eq_true, if_false, List.getElem?_cons_zero,
                Option.some.injEq] at h
              rw [← h, dropBytes?_byteLength_append, fromPiece_zero_append hp (by simp)]
          | succ n =>
              rw [fromPiece_succ_append hp (by simp), happ]
              exact ih _ n s (by simpa using h)

theorem Segment.fromPiece_of_length_le (cs : List Char) :
    ∀ (offset n : Nat), (ofPieces offset (splitOn '/' cs)).length ≤ n →
      fromPiece '/' n cs = [] := by
  induction cs using pieceInduction '/' with
  | last p hp =>
      intro offset n h
      rw [splitOn_of_not_mem hp, ofPieces] at h
      cases p with
      | nil => exact fromPiece_nil n
      | cons c p =>
          cases n with
          | zero => simp [ofPieces] at h
          | succ n => exact fromPiece_succ_of_not_mem hp n
  | step p cs hp ih =>
      intro offset n h
      rw [splitOn_append_cons hp, ofPieces] at h
      cases p with
      | nil =>
          rw [List.nil_append, fromPiece_sep]
          exact ih _ n (by simpa using h)
      | cons c p =>
          cases n with
          | zero => simp at h
          | succ n =>
              rw [fromPiece_succ_append hp (by simp)]
              exact ih _ n (by simpa using h)

/-- The raw text of a path from the segment with index `n` on, without the slashes at its end;
empty if there are no more than `n` segments. -/
def rawTail (path : String) (n : Nat) : String :=
  String.ofList (trimEnd '/' (fromPiece '/' n path.toList))

/-- The text that is cut out at the offset of a segment is the text from its index on. -/
theorem textFrom_offset {path : String} {n : Nat} {s : Segment}
    (h : (segments path)[n]? = some s) : textFrom path s.offset = rawTail path n := by
  have hd : dropBytes? s.offset path.toList = some (fromPiece '/' n path.toList) :=
    Segment.dropBytes?_offset path.toList [] n s h
  rw [textFrom, hd, rawTail, Option.getD_some]

theorem rawTail_of_length_le {path : String} {n : Nat} (h : (segments path).length ≤ n) :
    rawTail path n = "" := by
  rw [rawTail, Segment.fromPiece_of_length_le path.toList 0 n h]
  rfl

end Switchboard
