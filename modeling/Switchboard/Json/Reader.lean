import Switchboard.Json.Element
import Switchboard.Table

set_option autoImplicit false

/-! # Reading JSON as values of a type

A `Reader` reads one JSON value from the front of a text as a value of a Lean type. Readers are
put together as types are: `Reader.text` and `Reader.word` read atoms, `Reader.optional`,
`Reader.list`, `Reader.dictionary` and `Reader.variant` read the rest. `Reader.document` reads a
whole text.
-/

namespace Switchboard.Json

/-- A way to read a value from the front of a text. -/
structure Reader (α : Type) where
  read : List Char → Except Error (α × List Char)
  /-- Reading takes at least one character. -/
  shorter : ∀ {cs : List Char} {x : α} {rest : List Char},
    read cs = .ok (x, rest) → rest.length < cs.length

/-! ## Readers -/

namespace Reader

variable {α β : Type}

/-- Reads a value and converts it, or fails. -/
def convert (r : Reader α) (f : α → Except Error β) : Reader β where
  read cs := do
    let (x, rest) ← r.read cs
    return (← f x, rest)
  shorter h := by
    obtain ⟨⟨x, rest⟩, hread, h⟩ := ok_of_bind h
    obtain ⟨y, -, h⟩ := ok_of_bind h
    exact rest_of_ok h ▸ r.shorter hread

def map (r : Reader α) (f : α → β) : Reader β := r.convert fun x => .ok (f x)

/-- Reads a string. -/
def text (expected : String) : Reader String where
  read cs :=
    match skipBlanks cs with
    | [] => .error .endOfInput
    | '"' :: rest => (scanString rest).map fun r => (String.ofList r.1, r.2)
    | cs => .error (mismatch expected cs)
  shorter h := by
    split at h
    · cases h
    · next hquote =>
      obtain ⟨p, hscan, ⟨⟩⟩ := ok_of_map h
      exact length_lt_of_skipBlanks_eq_cons hquote (Nat.le_of_lt (length_scanString_lt hscan))
    · cases h

/-- A number as one of 64 bits, if it is such. -/
def wordOf (expected : String) : Num → Except Error UInt64
  | .natural n => .ok n
  | .negative n => .error (.invalidValue (.number (.negative n)) expected)
  | .float x => .error (.invalidType (.number (.float x)) expected)

/-- Reads a number that is not of the expected kind unless it is a whole number of 64 bits. -/
def num (expected : String) : Reader Num where
  read cs :=
    match skipBlanks cs with
    | [] => .error .endOfInput
    | '-' :: rest => scanNumber true rest
    | c :: rest =>
      if c.isDigit then scanNumber false (c :: rest) else .error (mismatch expected (c :: rest))
  shorter h := by
    split at h
    · cases h
    · next hminus =>
      exact length_lt_of_skipBlanks_eq_cons hminus (Nat.le_of_lt (length_scanNumber_lt h))
    · next hskip =>
      split at h
      · exact Nat.lt_of_lt_of_le (length_scanNumber_lt h) (length_le_of_skipBlanks_eq hskip)
      · cases h

/-- Reads a whole number of 64 bits. -/
def word (expected : String) : Reader UInt64 := (num expected).convert (wordOf expected)

/-- Reads `null`. -/
def unit : Reader Unit where
  read cs :=
    match skipBlanks cs with
    | [] => .error .endOfInput
    | 'n' :: rest => (scanWord ['u', 'l', 'l'] rest).map fun rest => ((), rest)
    | cs => .error (mismatch "unit" cs)
  shorter h := by
    split at h
    · cases h
    · next hword =>
      obtain ⟨after, hscan, ⟨⟩⟩ := ok_of_map h
      exact length_lt_of_skipBlanks_eq_cons hword (length_scanWord_le hscan)
    · cases h

/-- Reads `null` or a value. -/
def optional (r : Reader α) : Reader (Option α) where
  read cs :=
    match skipBlanks cs with
    | 'n' :: rest => (scanWord ['u', 'l', 'l'] rest).map fun rest => (none, rest)
    | cs => (r.read cs).map fun p => (some p.1, p.2)
  shorter h := by
    split at h
    · next hword =>
      obtain ⟨after, hscan, ⟨⟩⟩ := ok_of_map h
      exact length_lt_of_skipBlanks_eq_cons hword (length_scanWord_le hscan)
    · obtain ⟨p, hread, ⟨⟩⟩ := ok_of_map h
      exact Nat.lt_of_lt_of_le (r.shorter hread) (length_skipBlanks_le _)

/-- Reads the elements of a list, up to its end. -/
def elements (r : Reader α) (first : Bool) (cs : List Char) :
    Except Error (List α × List Char) :=
  match hn : nextElement first cs with
  | .error e => .error e
  | .ok (false, rest) => .ok ([], rest)
  | .ok (true, rest) =>
    match hr : r.read rest with
    | .error e => .error e
    | .ok (x, rest) =>
      have := length_nextElement_le hn
      have := r.shorter hr
      (elements r false rest).map fun p => (x :: p.1, p.2)
termination_by cs.length

theorem length_elements_le {r : Reader α} {first : Bool} {cs rest : List Char} {xs : List α}
    (h : r.elements first cs = .ok (xs, rest)) : rest.length ≤ cs.length := by
  fun_induction elements r first cs generalizing xs with
  | case1 => cases h
  | case2 first cs _ hnext => exact rest_of_ok h ▸ length_nextElement_le hnext
  | case3 => cases h
  | case4 first cs _ _ x _ _ hnext hread ih =>
    obtain ⟨p, hrest, ⟨⟩⟩ := ok_of_map h
    exact Nat.le_trans (ih hrest) (Nat.le_trans (Nat.le_of_lt hread) hnext)

/-- What stands between brackets is read with both of them. -/
theorem length_lt_of_enclosed {cs ds rest : List Char} {bracket : Char}
    {contents : Except Error (α × List Char)} {close : List Char → Except Error (List Char)}
    {f : α → β} {y : β} (hopen : skipBlanks cs = bracket :: ds)
    (hcontents : ∀ {x : α} {after : List Char}, contents = .ok (x, after) →
      after.length ≤ ds.length)
    (hclose : ∀ {es after : List Char}, close es = .ok after → after.length < es.length)
    (h : (do
      let (x, after) ← contents
      return (f x, ← close after)) = .ok (y, rest)) : rest.length < cs.length := by
  obtain ⟨⟨x, inside⟩, hread, h⟩ := ok_of_bind h
  obtain ⟨outside, hend, h⟩ := ok_of_bind h
  have hlt : rest.length < inside.length := rest_of_ok h ▸ hclose hend
  have hle : inside.length ≤ ds.length := hcontents hread
  exact length_lt_of_skipBlanks_eq_cons hopen (Nat.le_of_lt (Nat.lt_of_lt_of_le hlt hle))

/-- Reads a list. -/
def list (r : Reader α) : Reader (List α) where
  read cs :=
    match skipBlanks cs with
    | [] => .error .endOfInput
    | '[' :: rest => do
      let (xs, rest) ← r.elements true rest
      return (xs, ← endList rest)
    | cs => .error (mismatch "a sequence" cs)
  shorter h := by
    split at h
    · cases h
    · next hopen =>
      exact length_lt_of_enclosed (f := fun xs => xs) hopen length_elements_le length_endList_lt h
    · cases h

/-- Reads a value after its colon. -/
def afterColon (r : Reader α) : Reader α where
  read cs := do r.read (← scanColon cs)
  shorter h := by
    obtain ⟨after, hcolon, h⟩ := ok_of_bind h
    exact Nat.lt_trans (r.shorter h) (length_scanColon_lt hcolon)

/-- Reads the entries of an object, up to its end. -/
def entries (r : Reader α) (first : Bool) (cs : List Char) :
    Except Error (List (String × α) × List Char) :=
  match hn : nextKey first cs with
  | .error e => .error e
  | .ok (none, rest) => .ok ([], rest)
  | .ok (some key, rest) =>
    match hr : r.afterColon.read rest with
    | .error e => .error e
    | .ok (x, rest) =>
      have := length_nextKey_le hn
      have := r.afterColon.shorter hr
      (entries r false rest).map fun p => ((key, x) :: p.1, p.2)
termination_by cs.length

theorem length_entries_le {r : Reader α} {first : Bool} {cs rest : List Char}
    {xs : List (String × α)} (h : r.entries first cs = .ok (xs, rest)) :
    rest.length ≤ cs.length := by
  fun_induction entries r first cs generalizing xs with
  | case1 => cases h
  | case2 first cs _ hnext => exact rest_of_ok h ▸ length_nextKey_le hnext
  | case3 => cases h
  | case4 first cs key _ _ x _ _ hnext hread ih =>
    obtain ⟨p, hrest, ⟨⟩⟩ := ok_of_map h
    exact Nat.le_trans (ih hrest) (Nat.le_trans (Nat.le_of_lt hread) hnext)

/-- Reads an object as a dictionary; of two entries with one key the later wins. -/
def dictionary (r : Reader α) : Reader (Dictionary α) where
  read cs :=
    match skipBlanks cs with
    | [] => .error .endOfInput
    | '\x7b' :: rest => do
      let (xs, rest) ← r.entries true rest
      return (.ofList xs, ← endObject rest)
    | cs => .error (mismatch "a map" cs)
  shorter h := by
    split at h
    · cases h
    · next hopen => exact length_lt_of_enclosed hopen length_entries_le length_endObject_lt h
    · cases h

/-- Reads one of some names, as what it stands for. -/
def name (known : List (String × α)) : Reader α :=
  (text "variant identifier").convert fun s =>
    match known.lookup s with
    | some x => .ok x
    | none => .error (.unknownVariant s (known.map (·.1)))

/-- Reads the only key of an object that stands for a name. -/
def variantKey (known : List (String × α)) (cs : List Char) : Except Error (α × List Char) :=
  match skipBlanks cs with
  | [] => .error .endOfObject
  | '"' :: rest => (name known).read ('"' :: rest)
  | '\x7d' :: _ => .error .expectedValue
  | _ => .error .keyNotText

theorem length_variantKey_lt {known : List (String × α)} {cs rest : List Char} {x : α}
    (h : variantKey known cs = .ok (x, rest)) : rest.length < cs.length := by
  unfold variantKey at h
  split at h
  · cases h
  · next hskip =>
    exact Nat.lt_of_lt_of_le ((name known).shorter h) (length_le_of_skipBlanks_eq hskip)
  · cases h
  · cases h

/-- Passes over the end of an object that stands for a name. -/
def endVariant (cs : List Char) : Except Error (List Char) :=
  match skipBlanks cs with
  | [] => .error .endOfObject
  | '\x7d' :: rest => .ok rest
  | _ => .error .expectedValue

theorem length_endVariant_lt {cs rest : List Char} (h : endVariant cs = .ok rest) :
    rest.length < cs.length := by
  unfold endVariant at h
  split at h
  · cases h
  · next hskip =>
    cases h
    exact length_lt_of_skipBlanks_eq_cons hskip (Nat.le_refl _)
  · cases h

/-- Reads one of some names, alone or as the key of an object that holds `null`. -/
def variant (known : List (String × α)) : Reader α where
  read cs :=
    match skipBlanks cs with
    | [] => .error .endOfInput
    | '"' :: rest => (name known).read ('"' :: rest)
    | '\x7b' :: rest => do
      let (x, rest) ← variantKey known rest
      let (_, rest) ← unit.afterColon.read rest
      return (x, ← endVariant rest)
    | _ => .error .expectedValue
  shorter {cs x rest} h := by
    split at h
    · cases h
    · next hquote =>
      exact Nat.lt_of_lt_of_le ((name known).shorter h) (length_le_of_skipBlanks_eq hquote)
    · next hopen =>
      obtain ⟨⟨x, behindKey⟩, hkey, h⟩ := ok_of_bind h
      obtain ⟨⟨_, behindUnit⟩, hunit, h⟩ := ok_of_bind h
      obtain ⟨outside, hend, h⟩ := ok_of_bind h
      have hlast : rest.length < behindUnit.length := rest_of_ok h ▸ length_endVariant_lt hend
      have hlt : rest.length < behindKey.length :=
        Nat.lt_trans hlast (unit.afterColon.shorter hunit)
      have hle := Nat.le_of_lt (Nat.lt_trans hlt (length_variantKey_lt hkey))
      exact length_lt_of_skipBlanks_eq_cons hopen hle
    · cases h

/-- Reads a whole text as one value. -/
def document (r : Reader α) (s : String) : Except Error α := do
  let (x, rest) ← r.read s.toList
  if (skipBlanks rest).isEmpty then return x else throw .trailingCharacters

end Reader

end Switchboard.Json
