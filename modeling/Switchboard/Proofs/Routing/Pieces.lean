import Switchboard.Proofs.Routing.Slashes

set_option autoImplicit false

/-! # The pieces of joined paths

The pieces of two paths with a slash between them are those of the one and then those of the other
(`pathPieces_append_slash`). So slashes in front, at the end and next to each other do not count,
pieces that were joined are found again (`pathPieces_intercalate`), and the raw text from a piece on
has the pieces from this one on (`pathPieces_rawTail`).
-/

namespace Switchboard

namespace Text

variable {sep : Char}

theorem splitOn_append_sep (cs ds : List Char) :
    splitOn sep (cs ++ sep :: ds) = splitOn sep cs ++ splitOn sep ds := by
  induction cs using pieceInduction sep with
  | last p hp => rw [splitOn_append_cons hp, splitOn_of_not_mem hp, List.singleton_append]
  | step p cs hp ih =>
      rw [List.append_assoc, List.cons_append, splitOn_append_cons hp, ih, splitOn_append_cons hp,
        List.cons_append]

theorem not_mem_of_mem_splitOn {cs p : List Char} (h : p ∈ splitOn sep cs) : sep ∉ p := by
  induction cs using pieceInduction sep with
  | last q hq =>
      rw [splitOn_of_not_mem hq, List.mem_singleton] at h
      rwa [h]
  | step q cs hq ih =>
      rw [splitOn_append_cons hq, List.mem_cons] at h
      rcases h with rfl | h
      · exact hq
      · exact ih h

theorem fromPiece_zero_of_not_mem {p : List Char} (h : sep ∉ p) : fromPiece sep 0 p = p := by
  by_cases hne : p = []
  · rw [hne, fromPiece_nil]
  · have hall := fromPiece_zero_append h hne []
    rwa [List.append_nil] at hall

end Text

open Text

/-! ## Pieces of a path -/

/-- What can stand between two slashes as a piece of a path. -/
structure IsPiece (s : String) : Prop where
  ne_empty : s ≠ ""
  no_slash : '/' ∉ s.toList

theorem isPiece_ofList {cs : List Char} (hne : cs ≠ []) (hslash : '/' ∉ cs) :
    IsPiece (String.ofList cs) := by
  refine ⟨fun he => hne ?_, by rwa [String.toList_ofList]⟩
  rw [← String.toList_ofList (l := cs), he]
  rfl

theorem ofList_append_slash (cs ds : List Char) :
    String.ofList (cs ++ '/' :: ds) = String.ofList cs ++ "/" ++ String.ofList ds := by
  have hsplit : cs ++ '/' :: ds = cs ++ ['/'] ++ ds := by simp
  rw [hsplit, String.ofList_append, String.ofList_append]

theorem pathPieces_append_slash (s t : String) :
    pathPieces (s ++ "/" ++ t) = pathPieces s ++ pathPieces t := by
  have hlist : (s ++ "/" ++ t).toList = s.toList ++ '/' :: t.toList := by
    rw [String.toList_append, toList_append_slash, List.append_assoc, List.singleton_append]
  rw [pathPieces, hlist, splitOn_append_sep, List.filter_append, List.map_append]
  rfl

theorem pathPieces_empty : pathPieces "" = [] := rfl

theorem pathPieces_slash_append (s : String) : pathPieces ("/" ++ s) = pathPieces s := by
  have h := pathPieces_append_slash "" s
  rwa [String.empty_append, pathPieces_empty, List.nil_append] at h

theorem pathPieces_concat_slash (s : String) : pathPieces (s ++ "/") = pathPieces s := by
  have h := pathPieces_append_slash s ""
  rwa [String.append_empty, pathPieces_empty, List.append_nil] at h

theorem IsPiece.pathPieces_eq {s : String} (h : IsPiece s) : pathPieces s = [s] := by
  have hne : s.toList ≠ [] := fun e => h.ne_empty (String.toList_eq_nil_iff.1 e)
  rw [pathPieces, splitOn_of_not_mem h.no_slash, List.filter_cons_of_pos (by simpa using hne),
    List.filter_nil, List.map_singleton, String.ofList_toList]

theorem isPiece_of_mem_pathPieces {path s : String} (h : s ∈ pathPieces path) : IsPiece s := by
  obtain ⟨cs, hcs, rfl⟩ := List.mem_map.1 h
  obtain ⟨hsplit, hne⟩ := List.mem_filter.1 hcs
  exact isPiece_ofList (by simpa using hne) (not_mem_of_mem_splitOn hsplit)

/-- Pieces that are joined by slashes are found again. -/
theorem pathPieces_intercalate {ps : List String} (h : ∀ s ∈ ps, IsPiece s) :
    pathPieces ("/".intercalate ps) = ps := by
  induction ps with
  | nil => rfl
  | cons s ps ih =>
      obtain ⟨hs, hps⟩ := List.forall_mem_cons.1 h
      cases ps with
      | nil => exact hs.pathPieces_eq
      | cons t ps =>
          rw [String.intercalate_cons_cons, pathPieces_append_slash, hs.pathPieces_eq, ih hps,
            List.singleton_append]

/-! ## Pieces of the raw text -/

/-- If one slash at the end makes no difference, no number of them does. -/
theorem apply_trimSlashes {α : Type} {f : String → α} (hf : ∀ s, f (s ++ "/") = f s) (s : String) :
    f (trimSlashes s) = f s := by
  rw [trimSlashes]
  generalize hcs : s.toList = cs
  obtain rfl : s = String.ofList cs := by rw [← hcs, String.ofList_toList]
  clear hcs
  induction cs using List.reverseRecOn with
  | nil => rfl
  | append_singleton cs c ih =>
      by_cases hc : c = '/'
      · subst hc
        have hslash : String.ofList (cs ++ ['/']) = String.ofList cs ++ "/" := String.ofList_append
        rw [trimEnd_concat_self, ih, hslash, hf]
      · rw [trimEnd_eq_self (by simpa using hc)]

theorem pathPieces_trimSlashes (s : String) : pathPieces (trimSlashes s) = pathPieces s :=
  apply_trimSlashes pathPieces_concat_slash s

theorem pathPieces_fromPiece (cs : List Char) :
    ∀ n, pathPieces (String.ofList (fromPiece '/' n cs)) =
      (pathPieces (String.ofList cs)).drop n := by
  induction cs using pieceInduction '/' with
  | last p hp =>
      intro n
      by_cases hne : p = []
      · rw [hne, fromPiece_nil]
        exact List.drop_nil.symm
      · cases n with
        | zero => rw [fromPiece_zero_of_not_mem hp, List.drop_zero]
        | succ n =>
            rw [fromPiece_succ_of_not_mem hp, (isPiece_ofList hne hp).pathPieces_eq]
            exact List.drop_nil.symm
  | step p cs hp ih =>
      intro n
      rw [ofList_append_slash, pathPieces_append_slash]
      by_cases hne : p = []
      · subst hne
        rw [List.nil_append, fromPiece_sep, ih]
        rfl
      · cases n with
        | zero =>
            rw [fromPiece_zero_append hp hne, ofList_append_slash, pathPieces_append_slash,
              List.drop_zero]
        | succ n =>
            rw [fromPiece_succ_append hp hne, ih, (isPiece_ofList hne hp).pathPieces_eq]
            rfl

theorem rawTail_eq_trimSlashes (path : String) (n : Nat) :
    rawTail path n = trimSlashes (String.ofList (fromPiece '/' n path.toList)) := by
  rw [rawTail, trimSlashes, String.toList_ofList]

/-- The raw text from a piece on has the pieces from this one on. -/
theorem pathPieces_rawTail (path : String) (n : Nat) :
    pathPieces (rawTail path n) = (pathPieces path).drop n := by
  rw [rawTail_eq_trimSlashes, pathPieces_trimSlashes, pathPieces_fromPiece, String.ofList_toList]

theorem rawTail_slash_append (s : String) (n : Nat) : rawTail ("/" ++ s) n = rawTail s n := by
  have hlist : ("/" ++ s).toList = '/' :: s.toList := String.toList_append
  rw [rawTail, hlist, fromPiece_sep, rawTail]

theorem trimEnd_fromPiece_concat (cs : List Char) :
    ∀ n, trimEnd '/' (fromPiece '/' n (cs ++ ['/'])) = trimEnd '/' (fromPiece '/' n cs) := by
  induction cs using pieceInduction '/' with
  | last p hp =>
      intro n
      by_cases hne : p = []
      · rw [hne, List.nil_append, fromPiece_sep]
      · cases n with
        | zero =>
            rw [fromPiece_zero_append hp hne, fromPiece_zero_of_not_mem hp, trimEnd_concat_self]
        | succ n => rw [fromPiece_succ_append hp hne, fromPiece_succ_of_not_mem hp, fromPiece_nil]
  | step p cs hp ih =>
      intro n
      rw [List.append_assoc, List.cons_append]
      by_cases hne : p = []
      · rw [hne, List.nil_append, List.nil_append, fromPiece_sep, fromPiece_sep, ih]
      · cases n with
        | zero =>
            rw [fromPiece_zero_append hp hne, fromPiece_zero_append hp hne, ← List.cons_append,
              ← List.append_assoc, trimEnd_concat_self]
        | succ n => rw [fromPiece_succ_append hp hne, fromPiece_succ_append hp hne, ih]

theorem rawTail_concat_slash (s : String) (n : Nat) : rawTail (s ++ "/") n = rawTail s n := by
  rw [rawTail, toList_append_slash, trimEnd_fromPiece_concat, rawTail]

/-! ## The raw text of joined pieces -/

theorem rawTail_empty (n : Nat) : rawTail "" n = "" := by
  have hnil : ("" : String).toList = [] := rfl
  rw [rawTail, hnil, fromPiece_nil]
  rfl

theorem IsPiece.rawTail_zero {s : String} (h : IsPiece s) {t : String}
    (hend : (s ++ t).toList.getLast? ≠ some '/') : rawTail (s ++ t) 0 = s ++ t := by
  have hne : s.toList ≠ [] := fun e => h.ne_empty (String.toList_eq_nil_iff.1 e)
  rw [rawTail]
  rw [String.toList_append] at hend ⊢
  rw [fromPiece_zero_append h.no_slash hne, trimEnd_eq_self hend, String.ofList_append,
    String.ofList_toList, String.ofList_toList]

theorem IsPiece.rawTail_succ {s : String} (h : IsPiece s) (t : String) (n : Nat) :
    rawTail (s ++ "/" ++ t) (n + 1) = rawTail t n := by
  have hne : s.toList ≠ [] := fun e => h.ne_empty (String.toList_eq_nil_iff.1 e)
  rw [rawTail, String.toList_append, toList_append_slash, List.append_assoc, List.singleton_append,
    fromPiece_succ_append h.no_slash hne, rawTail]

theorem getLast?_intercalate_ne {ps : List String} (h : ∀ s ∈ ps, IsPiece s) :
    ("/".intercalate ps).toList.getLast? ≠ some '/' := by
  induction ps with
  | nil => simp
  | cons s ps ih =>
      obtain ⟨hs, hps⟩ := List.forall_mem_cons.1 h
      cases ps with
      | nil => exact fun he => hs.no_slash (List.mem_of_getLast? he)
      | cons t ps =>
          have hne : ("/".intercalate (t :: ps)).toList ≠ [] := by
            intro hnil
            have hpieces := pathPieces_intercalate hps
            rw [String.toList_eq_nil_iff.1 hnil] at hpieces
            cases hpieces
          rw [String.intercalate_cons_cons, String.toList_append,
            List.getLast?_append_of_ne_nil _ hne]
          exact ih hps

/-- The raw text from a piece on, in a path of joined pieces. -/
theorem rawTail_intercalate {ps : List String} (h : ∀ s ∈ ps, IsPiece s) (n : Nat) :
    rawTail ("/".intercalate ps) n = "/".intercalate (ps.drop n) := by
  induction ps generalizing n with
  | nil => rw [List.drop_nil, String.intercalate_nil, rawTail_empty]
  | cons s ps ih =>
      have hend := getLast?_intercalate_ne h
      obtain ⟨hs, hps⟩ := List.forall_mem_cons.1 h
      cases ps with
      | nil =>
          cases n with
          | zero =>
              have hall := hs.rawTail_zero (t := "")
              rw [String.append_empty] at hall
              exact hall hend
          | succ n =>
              have hnone : rawTail s (n + 1) = "" := by
                rw [rawTail, fromPiece_succ_of_not_mem hs.no_slash]
                rfl
              rw [String.intercalate_singleton, hnone, List.drop_succ_cons, List.drop_nil,
                String.intercalate_nil]
      | cons t ps =>
          rw [String.intercalate_cons_cons] at hend ⊢
          cases n with
          | zero =>
              rw [String.append_assoc] at hend ⊢
              rw [hs.rawTail_zero hend, List.drop_zero, String.intercalate_cons_cons,
                String.append_assoc]
          | succ n => rw [hs.rawTail_succ, ih hps, List.drop_succ_cons]

end Switchboard
