set_option autoImplicit false

/-! # Cutting texts at a separator -/

namespace Switchboard.Text

/-- The pieces of a text between separators; there is always at least one piece. -/
def splitOn (sep : Char) : List Char → List (List Char)
  | [] => [[]]
  | c :: cs =>
    match splitOn sep cs with
    | [] => [[c]]
    | p :: ps => if c = sep then [] :: p :: ps else (c :: p) :: ps

/-- The text without the given characters at its end. -/
def trimEnd (c : Char) (cs : List Char) : List Char :=
  (cs.reverse.dropWhile (· = c)).reverse

/-- The text without slashes at its end. -/
def trimSlashes (s : String) : String := String.ofList (trimEnd '/' s.toList)

/-- The number of bytes that characters take. -/
def byteLength : List Char → Nat
  | [] => 0
  | c :: cs => c.utf8Size + byteLength cs

/-- What follows the first `n` bytes; `none` if there are fewer or if the cut would split a
character. -/
def dropBytes? : Nat → List Char → Option (List Char)
  | 0, cs => some cs
  | _ + 1, [] => none
  | n + 1, c :: cs => if c.utf8Size ≤ n + 1 then dropBytes? (n + 1 - c.utf8Size) cs else none

section Lemmas

variable (sep : Char) (cs : List Char)

theorem splitOn_ne_nil : splitOn sep cs ≠ [] := by
  cases cs with
  | nil => simp [splitOn]
  | cons c cs =>
    simp only [splitOn]
    split
    · simp
    · split <;> simp

@[simp] theorem byteLength_nil : byteLength [] = 0 := rfl

@[simp] theorem byteLength_cons (c : Char) :
    byteLength (c :: cs) = c.utf8Size + byteLength cs := rfl

@[simp] theorem dropBytes?_zero : dropBytes? 0 cs = some cs := by
  cases cs <;> simp [dropBytes?]

/-- Dropping the bytes of a front part leaves the rest. -/
theorem dropBytes?_byteLength_append (ds : List Char) :
    dropBytes? (byteLength cs) (cs ++ ds) = some ds := by
  induction cs with
  | nil => simp
  | cons c cs ih =>
    have hc : 0 < c.utf8Size := c.utf8Size_pos
    obtain ⟨k, hk⟩ : ∃ k, byteLength (c :: cs) = k + 1 := ⟨_, (Nat.succ_pred (by simp; omega)).symm⟩
    rw [hk, List.cons_append, dropBytes?, ← hk, if_pos (by simp)]
    simpa using ih

end Lemmas

end Switchboard.Text
