import Mathlib.Data.List.Basic
import Switchboard.Text.Html

set_option autoImplicit false

/-! # Reading back what was written for HTML

Undoing the entities gives the text that was escaped (`Html.unescape_escape`), and an escaped text
holds none of the characters that end an attribute or begin a tag (`Html.not_mem_escape`). The
entities may also be put in one after another, over the whole text each time, as long as the
ampersands come first (`Html.escape_eq_replacements`).
-/

namespace Switchboard.Text.Html

/-! ## One character -/

/-- The characters that end an attribute, or begin or end a tag. -/
def markup : List Char := ['<', '>', '"']

/-- The characters that have an entity. -/
def special : List Char := '&' :: markup

variable {c : Char}

/-- Any other character stands for itself. -/
theorem escapeChar_of_not_mem (h : c ∉ special) : escapeChar c = [c] := by
  simp only [special, markup, List.mem_cons, List.not_mem_nil, or_false, not_or] at h
  obtain ⟨hamp, hless, hgreater, hquote⟩ := h
  rw [escapeChar]
  · exact hamp
  · exact hless
  · exact hgreater
  · exact hquote

theorem unescapeChars_cons_of_ne (h : c ≠ '&') (cs : List Char) :
    unescapeChars (c :: cs) = c :: unescapeChars cs := by
  rw [unescapeChars]
  all_goals
    intro rest hc
    exact absurd hc h

/-- The form of a character is read as this character, whatever comes after it. -/
theorem unescapeChars_escapeChar_append (c : Char) (cs : List Char) :
    unescapeChars (escapeChar c ++ cs) = c :: unescapeChars cs := by
  by_cases h : c ∈ special
  · simp only [special, markup, List.mem_cons, List.not_mem_nil, or_false] at h
    rcases h with rfl | rfl | rfl | rfl
    all_goals rfl
  · have hamp : c ≠ '&' := fun hc => h (hc ▸ List.mem_cons_self)
    rw [escapeChar_of_not_mem h, List.singleton_append, unescapeChars_cons_of_ne hamp]

theorem not_mem_escapeChar (hc : c ∈ markup) (d : Char) : c ∉ escapeChar d := by
  by_cases h : d ∈ special
  · simp only [special, markup, List.mem_cons, List.not_mem_nil, or_false] at h hc
    rcases h with rfl | rfl | rfl | rfl <;> rcases hc with rfl | rfl | rfl <;> decide
  · rw [escapeChar_of_not_mem h, List.mem_singleton]
    rintro rfl
    exact h (List.mem_cons_of_mem '&' hc)

/-! ## Texts -/

theorem unescapeChars_flatMap_escapeChar (cs : List Char) :
    unescapeChars (cs.flatMap escapeChar) = cs := by
  induction cs with
  | nil => rfl
  | cons c cs ih => rw [List.flatMap_cons, unescapeChars_escapeChar_append, ih]

/-- Undoing the entities gives back the text. -/
theorem unescape_escape (s : String) : unescape (escape s) = s := by
  rw [unescape, escape, String.toList_ofList, unescapeChars_flatMap_escapeChar,
    String.ofList_toList]

/-- An escaped text cannot end the attribute or the element that it stands in. -/
theorem not_mem_escape (hc : c ∈ markup) (s : String) : c ∉ (escape s).toList := by
  rw [escape, String.toList_ofList, List.mem_flatMap]
  rintro ⟨d, -, hmem⟩
  exact not_mem_escapeChar hc d hmem

/-! ## One replacement after another -/

/-- The text with `entity` in the place of every `c`. -/
def replaceAll (c : Char) (entity : String) (s : String) : String :=
  String.ofList (s.toList.flatMap fun d => if d = c then entity.toList else [d])

/-- The four replacements, one after another. -/
def replacements (s : String) : String :=
  replaceAll '"' "&quot;" <| replaceAll '>' "&gt;" <| replaceAll '<' "&lt;" <|
    replaceAll '&' "&amp;" s

/-- Ampersands are replaced first, so those of the other entities are left alone. -/
theorem escape_eq_replacements (s : String) : escape s = replacements s := by
  simp only [escape, replacements, replaceAll, String.toList_ofList, List.flatMap_assoc]
  congr 1
  refine List.flatMap_congr fun c hmem => ?_
  clear hmem
  by_cases h : c ∈ special
  · simp only [special, markup, List.mem_cons, List.not_mem_nil, or_false] at h
    rcases h with rfl | rfl | rfl | rfl
    all_goals rfl
  · rw [escapeChar_of_not_mem h]
    simp only [special, markup, List.mem_cons, List.not_mem_nil, or_false, not_or] at h
    simp only [h, if_false, List.flatMap_cons, List.flatMap_nil, List.append_nil]

end Switchboard.Text.Html
