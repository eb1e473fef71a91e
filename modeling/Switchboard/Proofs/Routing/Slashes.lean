import Mathlib.Data.List.DropRight
import Switchboard.Proofs.Routing.RawText
import Switchboard.Routing.Pattern

set_option autoImplicit false

/-! # Slashes in patterns

Two slashes next to each other make a text unreadable as a pattern, wherever they stand
(`Pattern.exists_error_of_hasDoubledSlash`). One slash at the end means nothing
(`Pattern.parse_append_slash`).
-/

namespace Switchboard

namespace Text

/-! ## Slashes at the end -/

section TrimEnd

variable (c : Char) (cs : List Char)

theorem trimEnd_eq_rdropWhile : trimEnd c cs = cs.rdropWhile (· = c) := rfl

theorem trimEnd_concat_self : trimEnd c (cs ++ [c]) = trimEnd c cs :=
  List.rdropWhile_concat_pos _ cs c (by simp)

theorem trimEnd_trimEnd : trimEnd c (trimEnd c cs) = trimEnd c cs :=
  List.rdropWhile_idempotent _ cs

theorem getLast?_trimEnd_ne : (trimEnd c cs).getLast? ≠ some c := by
  intro h
  obtain ⟨front, hfront⟩ := List.getLast?_eq_some_iff.1 h
  have hne : cs.rdropWhile (· = c) ≠ [] := by
    rw [← trimEnd_eq_rdropWhile, hfront]
    exact List.concat_ne_nil _ _
  refine List.rdropWhile_last_not (· = c) cs hne ?_
  simp only [← trimEnd_eq_rdropWhile, hfront, List.getLast_append_singleton, decide_true]

variable {c cs}

theorem trimEnd_eq_self (h : cs.getLast? ≠ some c) : trimEnd c cs = cs := by
  rw [trimEnd_eq_rdropWhile, List.rdropWhile_eq_self_iff]
  intro hne hlast
  rw [decide_eq_true_iff] at hlast
  exact h (List.getLast?_eq_some_getLast hne ▸ congrArg some hlast)

/-- Trimming takes away nothing but the character that is trimmed. -/
theorem mem_trimEnd_iff {d : Char} (h : d ≠ c) : d ∈ trimEnd c cs ↔ d ∈ cs := by
  have hparts : trimEnd c cs ++ cs.rtakeWhile (· = c) = cs := List.rdropWhile_append_rtakeWhile
  have htaken : d ∉ cs.rtakeWhile (· = c) :=
    fun hd => h (by simpa using List.mem_rtakeWhile_imp hd)
  conv => rhs; rw [← hparts, List.mem_append]
  exact ⟨.inl, fun hd => hd.resolve_right htaken⟩

end TrimEnd

@[simp] theorem toList_trimSlashes (text : String) :
    (trimSlashes text).toList = trimEnd '/' text.toList := by
  rw [trimSlashes, String.toList_ofList]

theorem toList_append_slash (text : String) : (text ++ "/").toList = text.toList ++ ['/'] :=
  String.toList_append

theorem trimSlashes_append_slash (text : String) :
    trimSlashes (text ++ "/") = trimSlashes text := by
  rw [trimSlashes, toList_append_slash, trimEnd_concat_self, trimSlashes]

theorem trimSlashes_trimSlashes (text : String) :
    trimSlashes (trimSlashes text) = trimSlashes text := by
  rw [trimSlashes, toList_trimSlashes, trimEnd_trimEnd, trimSlashes]

theorem trimSlashes_eq_self {text : String} (h : text.toList.getLast? ≠ some '/') :
    trimSlashes text = text := by
  rw [trimSlashes, trimEnd_eq_self h, String.ofList_toList]

/-! ## Two slashes next to each other -/

/-- Two slashes stand next to each other in a text. -/
def HasDoubledSlash (text : String) : Prop := ['/', '/'] <:+: text.toList

instance (text : String) : Decidable (HasDoubledSlash text) :=
  inferInstanceAs (Decidable (_ <:+: _))

variable {text : String}

theorem HasDoubledSlash.append (h : HasDoubledSlash text) (more : String) :
    HasDoubledSlash (text ++ more) := by
  rw [HasDoubledSlash, String.toList_append]
  exact List.infix_append_of_infix_left h

theorem hasDoubledSlash_append_slash_slash : HasDoubledSlash (text ++ "/" ++ "/") := by
  rw [HasDoubledSlash, toList_append_slash, toList_append_slash]
  exact ⟨text.toList, [], by simp⟩

/-- One more slash at the end is next to another one only if there is one at the end. -/
theorem HasDoubledSlash.of_append_slash (h : HasDoubledSlash (text ++ "/"))
    (hend : text.toList.getLast? ≠ some '/') : HasDoubledSlash text := by
  rw [HasDoubledSlash, toList_append_slash] at h
  rcases List.infix_concat_iff.1 h with hlast | h
  · obtain ⟨front, hfront⟩ := hlast
    have hsplit : (front ++ ['/']) ++ ['/'] = text.toList ++ ['/'] := by simpa using hfront
    have htext : text.toList = front ++ ['/'] := (List.append_cancel_right hsplit).symm
    exact absurd (List.getLast?_eq_some_iff.2 ⟨front, htext⟩) hend
  · exact h

end Text

namespace Pattern

open Text (HasDoubledSlash)

variable {path : String}

theorem doubledSlash?_isSome_iff {offset : Nat} {cs : List Char} :
    (doubledSlash? offset cs).isSome ↔ ['/', '/'] <:+: cs := by
  fun_induction doubledSlash? offset cs with
  | case1 offset rest => exact ⟨fun _ => ⟨[], rest, rfl⟩, fun _ => rfl⟩
  | case2 offset c cs hfirst ih =>
      rw [ih, List.infix_cons_iff]
      refine ⟨.inr, fun h => h.resolve_left ?_⟩
      rintro ⟨rest, hrest⟩
      obtain ⟨rfl, rfl⟩ := List.cons.inj hrest
      exact hfirst rest rfl rfl
  | case3 => simp

theorem doubledSlash?_eq_none_iff :
    doubledSlash? 0 path.toList = none ↔ ¬ HasDoubledSlash path := by
  rw [← Option.not_isSome_iff_eq_none, doubledSlash?_isSome_iff, HasDoubledSlash]

/-- A text with two slashes next to each other cannot be read. -/
theorem exists_error_of_hasDoubledSlash (h : HasDoubledSlash path) :
    ∃ cause, parse path = .error cause := by
  rw [parse]
  split
  · exact ⟨_, rfl⟩
  · obtain ⟨offset, hoffset⟩ := Option.isSome_iff_exists.1 (doubledSlash?_isSome_iff.2 h)
    rw [hoffset]
    exact ⟨_, rfl⟩

theorem not_hasDoubledSlash_of_parse {p : Pattern} (h : parse path = .ok p) :
    ¬ HasDoubledSlash path := by
  intro hdoubled
  obtain ⟨cause, hcause⟩ := exists_error_of_hasDoubledSlash hdoubled
  cases hcause.symm.trans h

theorem head?_of_parse {p : Pattern} (h : parse path = .ok p) : path.toList.head? = some '/' := by
  by_contra hne
  rw [parse, if_pos hne] at h
  cases h

/-- One slash at the end of a text that can be read adds nothing to the pattern. -/
theorem parse_append_slash {p : Pattern} (h : parse path = .ok p)
    (hend : path.toList.getLast? ≠ some '/') : parse (path ++ "/") = .ok p := by
  have hnone : ¬ HasDoubledSlash path := not_hasDoubledSlash_of_parse h
  have hslashed : ¬ HasDoubledSlash (path ++ "/") := fun hd => hnone (hd.of_append_slash hend)
  have hpieces : (Text.splitOn '/' (path ++ "/").toList).filter (!·.isEmpty) =
      (Text.splitOn '/' path.toList).filter (!·.isEmpty) := by
    rw [Text.toList_append_slash, Text.splitOn_append_last _ List.not_mem_nil,
      List.filter_append]
    exact List.append_nil _
  have hrooted : path.toList.head? = some '/' := head?_of_parse h
  rw [parse, doubledSlash?_eq_none_iff.2 hnone, if_neg (by simp [hrooted])] at h
  rw [parse, doubledSlash?_eq_none_iff.2 hslashed, hpieces, if_neg (by simp [hrooted]), h]

end Pattern

end Switchboard
