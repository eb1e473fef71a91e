import Switchboard.Proofs.Routing.Pieces
import Switchboard.Routing.Tree

set_option autoImplicit false

/-! # Where the segments of a path stand

The offset of a segment counts bytes, and slashes that are passed over count as well. The main
statement `segments_at_boundaries` says where the offsets lie: `segments` finds exactly the pieces
between slashes that cannot be made longer (`Segment.StandsIn`), from left to right, each at a
character boundary of the path. So the text from a segment on can always be cut out: a search that
would break off at a bad cut (`Tree.findCutting?`) never does, at whatever node and depth.
-/

namespace Switchboard

namespace Text

/-- A text is cut at its first separator in one way only. -/
theorem append_sep_inj {sep : Char} {p q cs ds : List Char} (hp : sep ∉ p) (hq : sep ∉ q)
    (h : p ++ sep :: cs = q ++ sep :: ds) : p = q ∧ cs = ds := by
  have htake : p = q := by
    have hwhile := congrArg (List.takeWhile (· ≠ sep)) h
    rw [List.takeWhile_append_of_pos (decide_ne_of_not_mem hp),
      List.takeWhile_append_of_pos (decide_ne_of_not_mem hq)] at hwhile
    simpa using hwhile
  subst htake
  exact ⟨rfl, (List.cons.inj (List.append_cancel_left h)).2⟩

theorem byteLength_toList (s : String) : byteLength s.toList = s.utf8ByteSize := by
  induction h : s.toList generalizing s with
  | nil =>
      have hs : s = "" := String.toList_eq_nil_iff.1 h
      simp [hs]
  | cons c cs ih =>
      have hs : s = String.singleton c ++ String.ofList cs := by
        apply String.toList_injective
        simp [h]
      have hrest := ih (String.ofList cs) String.toList_ofList
      rw [byteLength_cons, hrest, hs, String.utf8ByteSize_append, String.utf8ByteSize_singleton]

/-- What is left after a number of bytes has exactly so many in front of it. -/
theorem exists_of_dropBytes? {n : Nat} {cs rest : List Char} (h : dropBytes? n cs = some rest) :
    ∃ front, cs = front ++ rest ∧ byteLength front = n := by
  fun_induction dropBytes? n cs with
  | case1 cs =>
      obtain rfl : cs = rest := Option.some.inj h
      exact ⟨[], rfl, rfl⟩
  | case2 => cases h
  | case3 n c cs hle ih =>
      obtain ⟨front, rfl, hfront⟩ := ih h
      refine ⟨c :: front, rfl, ?_⟩
      rw [byteLength_cons, hfront]
      omega
  | case4 => cases h

end Text

open Text

/-! ## Pieces with their offsets -/

namespace Segment

/-- The segment stands in the path at its offset, and it cannot be made longer there: in front of
it is the start of the path or a slash, and after it a slash or the end. -/
def StandsIn (s : Segment) (path : String) : Prop :=
  IsPiece s.text ∧ ∃ front back : String,
    path = front ++ s.text ++ back ∧ front.utf8ByteSize = s.offset ∧
      (∀ c ∈ front.toList.getLast?, c = '/') ∧ (∀ c ∈ back.toList.head?, c = '/')

/-- The same for a list of characters with `start` bytes in front of it. -/
def StandsAfter (start : Nat) (cs : List Char) (s : Segment) : Prop :=
  IsPiece s.text ∧ ∃ front back : List Char,
    cs = front ++ s.text.toList ++ back ∧ start + byteLength front = s.offset ∧
      (∀ c ∈ front.getLast?, c = '/') ∧ (∀ c ∈ back.head?, c = '/')

theorem standsAfter_toList_iff {s : Segment} {path : String} :
    s.StandsAfter 0 path.toList ↔ s.StandsIn path := by
  constructor
  · rintro ⟨hpiece, front, back, hpath, hoffset, hfront, hback⟩
    refine ⟨hpiece, String.ofList front, String.ofList back, ?_, ?_, ?_, ?_⟩
    · apply String.toList_injective
      simp [hpath]
    · rw [← byteLength_toList, String.toList_ofList, ← hoffset, Nat.zero_add]
    · rwa [String.toList_ofList]
    · rwa [String.toList_ofList]
  · rintro ⟨hpiece, front, back, hpath, hoffset, hfront, hback⟩
    refine ⟨hpiece, front.toList, back.toList, ?_, ?_, hfront, hback⟩
    · rw [hpath, String.toList_append, String.toList_append]
    · rw [byteLength_toList, hoffset, Nat.zero_add]

variable {start : Nat} {s : Segment}

/-- In a text without slashes only the whole of it can stand. -/
theorem standsAfter_last_iff {p : List Char} (hp : '/' ∉ p) :
    s.StandsAfter start p ↔ p ≠ [] ∧ s = ⟨start, String.ofList p⟩ := by
  constructor
  · rintro ⟨hpiece, front, back, hcs, hoffset, hfront, hback⟩
    have hfrontNil : front = [] := by
      rw [← List.getLast?_eq_none_iff, Option.eq_none_iff_forall_ne_some]
      intro c hc
      have hmem : c ∈ p := by
        rw [hcs]
        simp [List.mem_of_getLast? hc]
      exact hp (hfront c hc ▸ hmem)
    have hbackNil : back = [] := by
      rw [← List.head?_eq_none_iff, Option.eq_none_iff_forall_ne_some]
      intro c hc
      have hmem : c ∈ p := by
        rw [hcs]
        simp [List.mem_of_head? hc]
      exact hp (hback c hc ▸ hmem)
    subst hfrontNil hbackNil
    rw [List.nil_append, List.append_nil] at hcs
    refine ⟨?_, ?_⟩
    · rw [hcs]
      exact fun hnil => hpiece.ne_empty (String.toList_eq_nil_iff.1 hnil)
    · obtain ⟨offset, text⟩ := s
      simp_all
  · rintro ⟨hne, rfl⟩
    exact ⟨isPiece_ofList hne hp, [], [], by simp, by simp, by simp, by simp⟩

/-- In front of the first slash the whole of what is there can stand, and everything else stands
after that slash. -/
theorem standsAfter_cons_iff {p cs : List Char} (hp : '/' ∉ p) :
    s.StandsAfter start (p ++ '/' :: cs) ↔
      (p ≠ [] ∧ s = ⟨start, String.ofList p⟩) ∨ s.StandsAfter (start + byteLength p + 1) cs := by
  constructor
  · rintro ⟨hpiece, front, back, hcs, hoffset, hfront, hback⟩
    by_cases hslash : '/' ∈ front
    · -- the first slash is the first one of `front`
      right
      obtain ⟨q, front, rfl, hq⟩ := List.eq_append_cons_of_mem hslash
      have hsplit : p ++ '/' :: cs = q ++ '/' :: (front ++ s.text.toList ++ back) := by
        simp [hcs]
      obtain ⟨hpq, hrest⟩ := append_sep_inj hp hq hsplit
      refine ⟨hpiece, front, back, hrest, ?_, ?_, hback⟩
      · have hslashSize : '/'.utf8Size = 1 := rfl
        rw [byteLength_append, byteLength_cons, ← hpq, hslashSize] at hoffset
        omega
      · intro c hc
        refine hfront c ?_
        have hne : front ≠ [] := by
          rintro rfl
          simp at hc
        rw [List.getLast?_append_of_ne_nil _ (List.cons_ne_nil _ _),
          List.getLast?_cons_of_ne_nil hne]
        exact hc
    · -- nothing is in front of the piece, and the slash is what follows it
      left
      have hfrontNil : front = [] := by
        rw [← List.getLast?_eq_none_iff, Option.eq_none_iff_forall_ne_some]
        intro c hc
        exact hslash (hfront c hc ▸ List.mem_of_getLast? hc)
      subst hfrontNil
      cases back with
      | nil =>
          have hmem : '/' ∈ s.text.toList := by
            have hslash : '/' ∈ p ++ '/' :: cs := by simp
            rw [hcs] at hslash
            simpa using hslash
          exact absurd hmem hpiece.no_slash
      | cons c back =>
          obtain rfl : c = '/' := hback c (by simp)
          rw [List.nil_append] at hcs
          obtain ⟨hpText, -⟩ := append_sep_inj hp hpiece.no_slash hcs
          refine ⟨?_, ?_⟩
          · rw [hpText]
            exact fun hnil => hpiece.ne_empty (String.toList_eq_nil_iff.1 hnil)
          · obtain ⟨offset, text⟩ := s
            simp_all
  · rintro (⟨hne, rfl⟩ | ⟨hpiece, front, back, hcs, hoffset, hfront, hback⟩)
    · exact ⟨isPiece_ofList hne hp, [], '/' :: cs, by simp, by simp, by simp, by simp⟩
    · refine ⟨hpiece, p ++ '/' :: front, back, by simp [hcs], ?_, ?_, hback⟩
      · have hslashSize : '/'.utf8Size = 1 := rfl
        rw [byteLength_append, byteLength_cons, hslashSize, ← hoffset]
        omega
      · intro c hc
        rw [List.getLast?_append_of_ne_nil _ (List.cons_ne_nil _ _)] at hc
        cases front with
        | nil => simpa [eq_comm] using hc
        | cons d front => exact hfront c (by simpa using hc)

/-- Among the pieces of a text exactly the segments that stand there are found. -/
theorem mem_ofPieces_iff (cs : List Char) :
    ∀ start, s ∈ ofPieces start (splitOn '/' cs) ↔ s.StandsAfter start cs := by
  induction cs using pieceInduction '/' with
  | last p hp =>
      intro start
      rw [splitOn_of_not_mem hp, standsAfter_last_iff hp]
      by_cases hne : p = []
      · simp [ofPieces, hne]
      · simp [ofPieces, hne]
  | step p cs hp ih =>
      intro start
      rw [splitOn_append_cons hp, standsAfter_cons_iff hp, ← ih]
      by_cases hne : p = []
      · simp [ofPieces, hne]
      · simp [ofPieces, hne]

/-- The segments of a path are what stands in it. -/
theorem mem_segments_iff {path : String} : s ∈ segments path ↔ s.StandsIn path := by
  rw [← standsAfter_toList_iff]
  exact mem_ofPieces_iff path.toList 0

theorem le_offset_of_mem_ofPieces {ps : List (List Char)} (h : s ∈ ofPieces start ps) :
    start ≤ s.offset := by
  induction ps generalizing start with
  | nil => simp [ofPieces] at h
  | cons p ps ih =>
      rw [ofPieces] at h
      have hrest : s ∈ ofPieces (start + byteLength p + 1) ps → start ≤ s.offset := by
        intro hs
        have hle := ih hs
        omega
      split at h
      · exact hrest h
      · rcases List.mem_cons.1 h with rfl | h
        · exact Nat.le_refl start
        · exact hrest h

theorem pairwise_ofPieces (ps : List (List Char)) :
    ∀ start, (ofPieces start ps).Pairwise fun s t => s.offset < t.offset := by
  induction ps with
  | nil => exact fun _ => List.Pairwise.nil
  | cons p ps ih =>
      intro start
      rw [ofPieces]
      split
      · exact ih _
      · refine List.Pairwise.cons (fun t ht => ?_) (ih _)
        have hle := le_offset_of_mem_ofPieces ht
        show start < t.offset
        omega

theorem StandsIn.isValid {path : String} (h : s.StandsIn path) :
    (String.Pos.Raw.mk s.offset).IsValid path := by
  obtain ⟨-, front, back, rfl, hoffset, -, -⟩ := h
  rw [String.Pos.Raw.isValid_iff_exists_append]
  refine ⟨front, s.text ++ back, String.append_assoc, ?_⟩
  rw [← hoffset]
  rfl

end Segment

/-! ## Cutting at an offset -/

/-- The raw text from a byte offset to the end, without the slashes at its end; `none` if the path
ends before the offset or the cut would split a character. -/
def cutFrom? (path : String) (offset : Nat) : Option String :=
  (dropBytes? offset path.toList).map fun cs => String.ofList (trimEnd '/' cs)

theorem textFrom_eq_of_cutFrom? {path : String} {offset : Nat} {raw : String}
    (h : cutFrom? path offset = some raw) : textFrom path offset = raw := by
  obtain ⟨cs, hcs, rfl⟩ := Option.map_eq_some_iff.1 h
  rw [textFrom, hcs, Option.getD_some]

/-- The cut at a segment gives the text from its index on. -/
theorem cutFrom?_offset {path : String} {n : Nat} {s : Segment}
    (h : (segments path)[n]? = some s) : cutFrom? path s.offset = some (rawTail path n) := by
  have hdrop : dropBytes? s.offset path.toList = some (fromPiece '/' n path.toList) :=
    Segment.dropBytes?_offset path.toList [] n s h
  rw [cutFrom?, hdrop, rawTail, Option.map_some]

namespace Tree

variable {H : Type}

/-- The first of two searches that may break off, or the second where the first finds nothing. -/
def orElseSearch {α : Type} (first second : Option (Option α)) : Option (Option α) :=
  match first with
  | none => none
  | some (some found) => some (some found)
  | some none => second

theorem orElseSearch_some {α : Type} (first second : Option α) :
    orElseSearch (some first) (some second) = some (first <|> second) := by
  cases first <;> rfl

/-- The search of `Tree.find?` with cuts that can fail: the whole search then breaks off, without
an answer (`none`). A cut is made only where a wildcard takes what remains. -/
def findCutting? (path : String) :
    List Segment → Tree H → Option (Option (H × List (String × String)))
  | [], t => some (find? path [] t)
  | s :: rest, t =>
    let viaFixed := match Table.value? t.fixed s.text with
      | some child => findCutting? path rest child
      | none => some none
    let viaParam := match t.param with
      | some (name, child) =>
        (findCutting? path rest child).map fun found =>
          found.map fun r => (r.1, (name, Percent.decode s.text) :: r.2)
      | none => some none
    let viaWildcard := match t.wildcard with
      | some h => (cutFrom? path s.offset).map fun raw =>
        some (h, [(Pattern.wildcardName, Percent.decode raw)])
      | none => some none
    orElseSearch viaFixed (orElseSearch viaParam viaWildcard)

/-- If every cut that can be asked for succeeds, the search does not break off. -/
theorem findCutting?_eq {path : String} {segs : List Segment}
    (h : ∀ s ∈ segs, ∃ raw, cutFrom? path s.offset = some raw) (t : Tree H) :
    t.findCutting? path segs = some (t.find? path segs) := by
  induction segs generalizing t with
  | nil => rfl
  | cons s rest ih =>
      obtain ⟨⟨raw, hraw⟩, hrest⟩ := List.forall_mem_cons.1 h
      have htext : textFrom path s.offset = raw := textFrom_eq_of_cutFrom? hraw
      rw [findCutting?, find?, htext, hraw, ← orElseSearch_some, ← orElseSearch_some]
      congr 1
      · cases Table.value? t.fixed s.text with
        | none => rfl
        | some child => exact ih hrest child
      · congr 1
        · cases t.param with
          | none => rfl
          | some p =>
              show (findCutting? path rest p.2).map _ = _
              rw [ih hrest p.2]
              rfl
        · cases t.wildcard <;> rfl

end Tree

theorem exists_cutFrom? {path : String} {s : Segment} (h : s ∈ segments path) :
    ∃ raw, cutFrom? path s.offset = some raw := by
  obtain ⟨n, hn⟩ := List.mem_iff_getElem?.1 h
  exact ⟨rawTail path n, cutFrom?_offset hn⟩

/-- What is cut out at an offset is a part of the path, with nothing but slashes after it. -/
theorem cutFrom?_split {path raw : String} {offset : Nat} (h : cutFrom? path offset = some raw) :
    ∃ front slashes : String, path = front ++ raw ++ slashes ∧ front.utf8ByteSize = offset ∧
      ∀ c ∈ slashes.toList, c = '/' := by
  obtain ⟨cs, hcs, rfl⟩ := Option.map_eq_some_iff.1 h
  obtain ⟨front, hpath, hoffset⟩ := exists_of_dropBytes? hcs
  have hparts : trimEnd '/' cs ++ cs.rtakeWhile (· = '/') = cs := List.rdropWhile_append_rtakeWhile
  refine ⟨String.ofList front, String.ofList (cs.rtakeWhile (· = '/')), ?_, ?_, ?_⟩
  · apply String.toList_injective
    simp [hpath, hparts]
  · rw [← byteLength_toList, String.toList_ofList, hoffset]
  · intro c hc
    rw [String.toList_ofList] at hc
    simpa using List.mem_rtakeWhile_imp hc

/-- The segments of a path are the pieces between slashes that cannot be made longer, in the order
in which they stand there: each stands at its offset, which lies at a character boundary of the
path, and the offsets ascend. Their texts are the pieces of the path. The raw text that a wildcard
takes from a segment on can be cut out; it has the pieces from there on as they stand in the path,
with the slashes between them, and does not end in a slash. A search from any node with the segments
that remain at any depth makes no cut that fails. -/
theorem segments_at_boundaries (path : String) :
    (∀ s, s ∈ segments path ↔ s.StandsIn path) ∧
    (segments path).Pairwise (fun s t => s.offset < t.offset) ∧
    (segments path).map (·.text) = pathPieces path ∧
    (∀ s ∈ segments path,
      s.offset ≤ path.utf8ByteSize ∧ (String.Pos.Raw.mk s.offset).IsValid path) ∧
    (∀ n s, (segments path)[n]? = some s → ∃ raw, cutFrom? path s.offset = some raw ∧
      textFrom path s.offset = raw ∧ pathPieces raw = (pathPieces path).drop n ∧
      raw.toList.getLast? ≠ some '/' ∧
      ∃ front slashes : String, path = front ++ raw ++ slashes ∧ front.utf8ByteSize = s.offset ∧
        ∀ c ∈ slashes.toList, c = '/') ∧
    ∀ (H : Type) (t : Tree H) (n : Nat),
      t.findCutting? path ((segments path).drop n) =
        some (t.find? path ((segments path).drop n)) := by
  have hascending : (segments path).Pairwise fun s t => s.offset < t.offset :=
    Segment.pairwise_ofPieces _ 0
  refine ⟨fun s => Segment.mem_segments_iff, hascending, map_text_segments path, ?_, ?_, ?_⟩
  · intro s hs
    have hvalid := (Segment.mem_segments_iff.1 hs).isValid
    exact ⟨hvalid.le_utf8ByteSize, hvalid⟩
  · intro n s hs
    have hcut := cutFrom?_offset hs
    refine ⟨rawTail path n, hcut, textFrom_eq_of_cutFrom? hcut, pathPieces_rawTail path n, ?_,
      cutFrom?_split hcut⟩
    rw [rawTail, String.toList_ofList]
    exact getLast?_trimEnd_ne '/' _
  · intro H t n
    refine Tree.findCutting?_eq (fun s hs => ?_) t
    exact exists_cutFrom? (List.mem_of_mem_drop hs)

/-- Slashes and characters of more than one byte in front of a segment move it. -/
example : segments "//é/a//b/" = [⟨2, "é"⟩, ⟨5, "a"⟩, ⟨8, "b"⟩] := by decide

end Switchboard
