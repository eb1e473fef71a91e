import Switchboard.Json.Error

set_option autoImplicit false

/-! # Blanks, words and colons

What stands between the tokens of a JSON text, the words `null`, `true` and `false`, and the colon
after a key. As everywhere in these modules, a scanner takes the characters that remain and returns
what it read with the characters after it.
-/

namespace Switchboard.Json

/-- Blanks between the tokens of a text. -/
def isBlank (c : Char) : Bool := c = ' ' || c = '\n' || c = '\t' || c = '\r'

/-- The text after the blanks in front. -/
def skipBlanks (cs : List Char) : List Char := cs.dropWhile isBlank

theorem length_skipBlanks_le (cs : List Char) : (skipBlanks cs).length ≤ cs.length := by
  unfold skipBlanks
  exact (List.dropWhile_sublist _).length_le

theorem length_le_of_skipBlanks_eq {cs ds : List Char} (h : skipBlanks cs = ds) :
    ds.length ≤ cs.length := h ▸ length_skipBlanks_le cs

/-- What is left after a token in front is shorter. -/
theorem length_lt_of_skipBlanks_eq_cons {cs ds rest : List Char} {c : Char}
    (hskip : skipBlanks cs = c :: ds) (hrest : rest.length ≤ ds.length) :
    rest.length < cs.length :=
  Nat.lt_of_lt_of_le (Nat.lt_succ_of_le hrest) (length_le_of_skipBlanks_eq hskip)

/-- Reads the rest of one of the words `null`, `true` and `false`. -/
def scanWord : List Char → List Char → Except Error (List Char)
  | [], cs => .ok cs
  | _ :: _, [] => .error .endOfInput
  | w :: word, c :: cs => if c = w then scanWord word cs else .error .expectedWord

theorem length_scanWord_le {word cs rest : List Char} (h : scanWord word cs = .ok rest) :
    rest.length ≤ cs.length := by
  induction word generalizing cs with
  | nil =>
    cases h
    exact Nat.le_refl _
  | cons w word ih =>
    cases cs with
    | nil => simp [scanWord] at h
    | cons c cs =>
      simp only [scanWord] at h
      split at h
      · exact Nat.le_succ_of_le (ih h)
      · simp at h

/-- Passes over the colon between a key and its value. -/
def scanColon (cs : List Char) : Except Error (List Char) :=
  match skipBlanks cs with
  | ':' :: rest => .ok rest
  | [] => .error .endOfObject
  | _ => .error .expectedColon

theorem length_scanColon_lt {cs rest : List Char} (h : scanColon cs = .ok rest) :
    rest.length < cs.length := by
  unfold scanColon at h
  split at h
  · next hskip =>
    cases h
    exact length_lt_of_skipBlanks_eq_cons hskip (Nat.le_refl _)
  · cases h
  · cases h

end Switchboard.Json
