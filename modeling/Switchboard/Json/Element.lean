import Switchboard.Json.Token
import Switchboard.Json.Quotation
import Switchboard.Json.Numeral

set_option autoImplicit false

/-! # Elements and members

The tokens inside lists and objects (`nextElement`, `endList`, `nextKey`, `endObject`), and the
error for a value of another kind than expected (`mismatch`).
-/

namespace Switchboard.Json

/-- Whether another element of a list follows, with the text from it, or from the closing bracket,
on. -/
def nextElement (first : Bool) (cs : List Char) : Except Error (Bool × List Char) :=
  match skipBlanks cs with
  | [] => .error .endOfList
  | ']' :: rest => .ok (false, ']' :: rest)
  | c :: rest =>
    if first then .ok (true, c :: rest)
    else if c ≠ ',' then .error .expectedListEnd
    else
      match skipBlanks rest with
      | [] => .error .endOfInput
      | ']' :: _ => .error .trailingComma
      | rest => .ok (true, rest)

/-- Passes over the end of a list. -/
def endList (cs : List Char) : Except Error (List Char) :=
  match skipBlanks cs with
  | [] => .error .endOfList
  | ']' :: rest => .ok rest
  | ',' :: rest =>
    if (skipBlanks rest).head? = some ']' then .error .trailingComma
    else .error .trailingCharacters
  | _ => .error .trailingCharacters

/-- The next key of an object, with the text after it; `none` before the closing brace. -/
def nextKey (first : Bool) (cs : List Char) : Except Error (Option String × List Char) :=
  match skipBlanks cs with
  | [] => .error .endOfObject
  | '\x7d' :: rest => .ok (none, '\x7d' :: rest)
  | c :: rest =>
    if first then
      if c = '"' then (scanString rest).map fun r => (some (String.ofList r.1), r.2)
      else .error .keyNotText
    else if c ≠ ',' then .error .expectedObjectEnd
    else
      match skipBlanks rest with
      | [] => .error .endOfInput
      | '"' :: rest => (scanString rest).map fun r => (some (String.ofList r.1), r.2)
      | '\x7d' :: _ => .error .trailingComma
      | _ => .error .keyNotText

/-- Passes over the end of an object. -/
def endObject (cs : List Char) : Except Error (List Char) :=
  match skipBlanks cs with
  | [] => .error .endOfObject
  | '\x7d' :: rest => .ok rest
  | ',' :: _ => .error .trailingComma
  | _ => .error .trailingCharacters

theorem length_nextElement_le {first more : Bool} {cs rest : List Char}
    (h : nextElement first cs = .ok (more, rest)) : rest.length ≤ cs.length := by
  unfold nextElement at h
  split at h
  · cases h
  · next hskip =>
    cases h
    exact length_le_of_skipBlanks_eq hskip
  · next hskip =>
    split at h
    · cases h
      exact length_le_of_skipBlanks_eq hskip
    · split at h
      · cases h
      · split at h
        · cases h
        · cases h
        · cases h
          -- the element behind the comma and its blanks
          exact Nat.le_of_lt (length_lt_of_skipBlanks_eq_cons hskip (length_skipBlanks_le _))

theorem length_nextKey_le {first : Bool} {key : Option String} {cs rest : List Char}
    (h : nextKey first cs = .ok (key, rest)) : rest.length ≤ cs.length := by
  have hscanned {after : List Char} (hs : (scanString after).map
      (fun r => (some (String.ofList r.1), r.2)) = .ok (key, rest)) :
      rest.length < after.length := by
    obtain ⟨r, hscan, ⟨⟩⟩ := ok_of_map hs
    exact length_scanString_lt hscan
  unfold nextKey at h
  split at h
  · cases h
  · next hskip =>
    cases h
    exact length_le_of_skipBlanks_eq hskip
  · next c after _ hskip =>
    have hfront {ds : List Char} (hle : ds.length ≤ after.length) : ds.length ≤ cs.length :=
      Nat.le_of_lt (length_lt_of_skipBlanks_eq_cons hskip hle)
    split at h
    · split at h
      · exact hfront (Nat.le_of_lt (hscanned h))
      · cases h
    · split at h
      · cases h
      · split at h
        · cases h
        · next hquote =>
          have hlt := length_lt_of_skipBlanks_eq_cons hquote (Nat.le_of_lt (hscanned h))
          exact hfront (Nat.le_of_lt hlt)
        · cases h
        · cases h

theorem length_endList_lt {cs rest : List Char} (h : endList cs = .ok rest) :
    rest.length < cs.length := by
  unfold endList at h
  split at h
  · simp at h
  · next hskip =>
    cases h
    exact length_lt_of_skipBlanks_eq_cons hskip (Nat.le_refl _)
  · split at h <;> cases h
  · cases h

theorem length_endObject_lt {cs rest : List Char} (h : endObject cs = .ok rest) :
    rest.length < cs.length := by
  unfold endObject at h
  split at h
  · simp at h
  · next hskip =>
    cases h
    exact length_lt_of_skipBlanks_eq_cons hskip (Nat.le_refl _)
  · cases h
  · cases h

/-! ## Another kind of value -/

/-- What stands at the front of a text. -/
def found : List Char → Except Error Found
  | 'n' :: cs => (scanWord ['u', 'l', 'l'] cs).map fun _ => .null
  | 't' :: cs => (scanWord ['r', 'u', 'e'] cs).map fun _ => .boolean true
  | 'f' :: cs => (scanWord ['a', 'l', 's', 'e'] cs).map fun _ => .boolean false
  | '-' :: cs => (scanNumber true cs).map fun r => .number r.1
  | '"' :: cs => (scanString cs).map fun r => .text (String.ofList r.1)
  | '[' :: _ => .ok .list
  | '\x7b' :: _ => .ok .object
  | c :: cs =>
    if c.isDigit then (scanNumber false (c :: cs)).map fun r => .number r.1
    else .error .expectedValue
  | [] => .error .expectedValue

/-- The error when a text does not begin with the expected kind of value. -/
def mismatch (expected : String) (cs : List Char) : Error :=
  match found cs with
  | .ok f => .invalidType f expected
  | .error e => e

end Switchboard.Json
