import Switchboard.Json.Reader
import Switchboard.Json.Skip

set_option autoImplicit false

/-! # Reading records

A record may be written as an object, with its fields in any order and others among them, or as a
list of its fields in order (`Reader.record`).
-/

namespace Switchboard.Json

namespace Reader

variable {α β : Type}

/-- A field of a record of type `α`: reading it yields what it changes in the record. -/
structure Field (α : Type) where
  name : String
  update : Reader (α → α)

/-- A field with a reader for its value and a way to store it. -/
def field (name : String) (r : Reader β) (store : β → α → α) : Field α :=
  ⟨name, r.map store⟩

/-- Reads the fields of a record in order from the elements of a list. Fields at the end may be
left out if all have a default. -/
def recordElements (expected : String) (defaults : Bool) (count : Nat) (x : α) :
    List (Field α) → List Char → Except Error (α × List Char)
  | [], cs => .ok (x, cs)
  | f :: fs, cs => do
    match ← nextElement (count = 0) cs with
    | (true, rest) =>
      let (update, rest) ← f.update.read rest
      recordElements expected defaults (count + 1) (update x) fs rest
    | (false, rest) =>
      if defaults then .ok (x, rest) else .error (.invalidLength count expected)

/-- Reads a member of an object that is none of the fields. -/
def ignored : Reader Unit where
  read cs := (skipValue cs).map fun rest => ((), rest)
  shorter h := by
    obtain ⟨after, hskip, ⟨⟩⟩ := ok_of_map h
    exact length_skipValue_lt hskip

/-- Reads the fields of a record from the members of an object, up to its end. The names in `seen`
have been read. -/
def recordMembers (fields : List (Field α)) (seen : List String) (first : Bool) (x : α)
    (cs : List Char) : Except Error (α × List Char) :=
  match hn : nextKey first cs with
  | .error e => .error e
  | .ok (none, rest) => .ok (x, rest)
  | .ok (some key, rest) =>
    have := length_nextKey_le hn
    match fields.find? (·.name = key) with
    | none =>
      match hr : ignored.afterColon.read rest with
      | .error e => .error e
      | .ok (_, rest) =>
        have := ignored.afterColon.shorter hr
        recordMembers fields seen false x rest
    | some f =>
      -- found before the value is read, so a malformed value does not hide it
      if key ∈ seen then .error (.duplicateField key)
      else
        match hr : f.update.afterColon.read rest with
        | .error e => .error e
        | .ok (update, rest) =>
          have := f.update.afterColon.shorter hr
          recordMembers fields (key :: seen) false (update x) rest
termination_by cs.length

theorem length_recordElements_le {expected : String} {defaults : Bool} {count : Nat} {x y : α}
    {fields : List (Field α)} {cs rest : List Char}
    (h : recordElements expected defaults count x fields cs = .ok (y, rest)) :
    rest.length ≤ cs.length := by
  induction fields generalizing count x cs with
  | nil =>
    cases h
    exact Nat.le_refl _
  | cons f fs ih =>
    obtain ⟨⟨more, after⟩, hnext, h⟩ := ok_of_bind h
    have hafter : after.length ≤ cs.length := length_nextElement_le hnext
    cases more with
    | true =>
      obtain ⟨⟨update, behind⟩, hread, h⟩ := ok_of_bind h
      have hbehind : behind.length < after.length := f.update.shorter hread
      exact Nat.le_trans (ih h) (Nat.le_trans (Nat.le_of_lt hbehind) hafter)
    | false =>
      cases defaults with
      | true => exact rest_of_ok h ▸ hafter
      | false => cases h

theorem length_recordMembers_le {fields : List (Field α)} {seen : List String} {first : Bool}
    {x y : α} {cs rest : List Char}
    (h : recordMembers fields seen first x cs = .ok (y, rest)) : rest.length ≤ cs.length := by
  fun_induction recordMembers fields seen first x cs with
  | case1 => cases h
  | case2 seen first x cs _ hnext => exact rest_of_ok h ▸ length_nextKey_le hnext
  | case3 => cases h
  | case4 _ _ _ _ _ _ _ hnext _ _ _ _ hread ih =>
    exact Nat.le_trans (ih h) (Nat.le_trans (Nat.le_of_lt hread) hnext)
  | case5 => cases h
  | case6 => cases h
  | case7 _ _ _ _ _ _ _ hnext _ _ _ _ _ _ hread ih =>
    exact Nat.le_trans (ih h) (Nat.le_trans (Nat.le_of_lt hread) hnext)

/-- Reads a record: starts from `start` and stores the fields that are there. If not all fields
have a default, a list must hold all of them. -/
def record (expected : String) (defaults : Bool) (fields : List (Field α)) (start : α) :
    Reader α where
  read cs :=
    match skipBlanks cs with
    | [] => .error .endOfInput
    | '[' :: rest => do
      let short := s!"{expected} with {fields.length} elements"
      let (x, rest) ← recordElements short defaults 0 start fields rest
      return (x, ← endList rest)
    | '\x7b' :: rest => do
      let (x, rest) ← recordMembers fields [] true start rest
      return (x, ← endObject rest)
    | cs => .error (mismatch expected cs)
  shorter h := by
    split at h
    · cases h
    · next hopen =>
      exact length_lt_of_enclosed (f := fun x => x) hopen length_recordElements_le
        length_endList_lt h
    · next hopen =>
      exact length_lt_of_enclosed (f := fun x => x) hopen length_recordMembers_le
        length_endObject_lt h
    · cases h

end Reader

end Switchboard.Json
