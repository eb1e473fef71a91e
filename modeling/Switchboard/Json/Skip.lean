import Switchboard.Json.Token
import Switchboard.Json.Quotation
import Switchboard.Json.Numeral

set_option autoImplicit false

/-! # Passing over values

`skipValue` passes over one whole value. It keeps the containers around the current place in a
list, innermost first, so that nesting has no bound.
-/

namespace Switchboard.Json

/-- Passes over a value that holds no other values. -/
def skipAtom : List Char → Except Error (List Char)
  | [] => .error .endOfInput
  | 'n' :: cs => scanWord ['u', 'l', 'l'] cs
  | 't' :: cs => scanWord ['r', 'u', 'e'] cs
  | 'f' :: cs => scanWord ['a', 'l', 's', 'e'] cs
  | '-' :: cs => skipNumber cs
  | '"' :: cs => skipString cs
  | c :: cs => if c.isDigit then skipNumber (c :: cs) else .error .expectedValue

theorem length_skipAtom_lt {cs rest : List Char} (h : skipAtom cs = .ok rest) :
    rest.length < cs.length := by
  unfold skipAtom at h
  split at h
  · cases h
  · exact Nat.lt_succ_of_le (length_scanWord_le h)
  · exact Nat.lt_succ_of_le (length_scanWord_le h)
  · exact Nat.lt_succ_of_le (length_scanWord_le h)
  · exact Nat.lt_succ_of_lt (length_skipNumber_lt h)
  · exact Nat.lt_succ_of_lt (length_skipString_lt h)
  · split at h
    · exact length_skipNumber_lt h
    · cases h

/-- The kinds of containers. -/
inductive Container where
  | list
  | object
deriving DecidableEq, Repr

namespace Container

def close : Container → Char
  | list => ']'
  | object => '\x7d'

/-- The error when the text ends inside. -/
def cutOff : Container → Error
  | list => .endOfList
  | object => .endOfObject

/-- The error when an element is followed by neither a comma nor the end. -/
def unended : Container → Error
  | list => .expectedListEnd
  | object => .expectedObjectEnd

end Container

/-- Passes over what stands before a value inside a container: in an object a key and a colon. -/
def skipKey (container : Container) (cs : List Char) : Except Error (List Char) :=
  match container with
  | .list => .ok cs
  | .object =>
    match skipBlanks cs with
    | '"' :: rest => do scanColon (← skipString rest)
    | [] => .error .endOfObject
    | _ => .error .keyNotText

theorem length_skipKey_le {container : Container} {cs rest : List Char}
    (h : skipKey container cs = .ok rest) : rest.length ≤ cs.length := by
  unfold skipKey at h
  split at h
  · cases h
    exact Nat.le_refl _
  · split at h
    · next hquote =>
      obtain ⟨after, hkey, hcolon⟩ := ok_of_bind h
      have hlt := Nat.lt_trans (length_scanColon_lt hcolon) (length_skipString_lt hkey)
      exact Nat.le_of_lt (length_lt_of_skipBlanks_eq_cons hquote (Nat.le_of_lt hlt))
    · cases h
    · cases h

mutual

/-- Passes over a value and the rest of the containers around it, given innermost first. -/
def skipValueIn (around : List Container) (cs : List Char) : Except Error (List Char) :=
  have _short := length_skipBlanks_le cs
  match _split : skipBlanks cs with
  | '[' :: rest => skipRest false (.list :: around) rest
  | '\x7b' :: rest => skipRest false (.object :: around) rest
  | start =>
    match h : skipAtom start with
    | .error e => .error e
    | .ok rest =>
      have := length_skipAtom_lt h
      skipRest true around rest
termination_by 2 * cs.length
decreasing_by all_goals simp only [_split, List.length_cons] at _short; omega

/-- Passes over the rest of containers, given innermost first, after the last element so far
(`afterElement`) or after the opening bracket. -/
def skipRest (afterElement : Bool) (around : List Container) (cs : List Char) :
    Except Error (List Char) :=
  match around with
  | [] => .ok cs
  | container :: outer =>
    have _short := length_skipBlanks_le cs
    match _split : skipBlanks cs with
    | [] => .error container.cutOff
    | c :: rest =>
      -- the container itself is an element of the one around it
      if c = container.close then skipRest true outer rest
      else if afterElement then
        if c = ',' then
          match h : skipKey container rest with
          | .error e => .error e
          | .ok rest =>
            have := length_skipKey_le h
            skipValueIn (container :: outer) rest
        else .error container.unended
      else
        match h : skipKey container (c :: rest) with
        | .error e => .error e
        | .ok rest =>
          have := length_skipKey_le h
          skipValueIn (container :: outer) rest
termination_by 2 * cs.length + 1
decreasing_by all_goals simp only [_split, List.length_cons] at *; omega

end

mutual

theorem length_skipValueIn_lt {around : List Container} {cs rest : List Char}
    (h : skipValueIn around cs = .ok rest) : rest.length < cs.length := by
  rw [skipValueIn.eq_def] at h
  split at h
  · next hskip =>
    have hshorter := length_lt_of_skipBlanks_eq_cons hskip (Nat.le_refl _)
    exact length_lt_of_skipBlanks_eq_cons hskip (length_skipRest_le h)
  · next hskip =>
    have hshorter := length_lt_of_skipBlanks_eq_cons hskip (Nat.le_refl _)
    exact length_lt_of_skipBlanks_eq_cons hskip (length_skipRest_le h)
  · split at h
    · cases h
    · next hatom =>
      have hshorter := Nat.lt_of_lt_of_le (length_skipAtom_lt hatom) (length_skipBlanks_le cs)
      exact Nat.lt_of_le_of_lt (length_skipRest_le h) hshorter
termination_by 2 * cs.length
decreasing_by all_goals omega

theorem length_skipRest_le {afterElement : Bool} {around : List Container} {cs rest : List Char}
    (h : skipRest afterElement around cs = .ok rest) : rest.length ≤ cs.length := by
  rw [skipRest.eq_def] at h
  split at h
  · cases h
    exact Nat.le_refl _
  · split at h
    · cases h
    · next c after hskip =>
      have hshorter := length_lt_of_skipBlanks_eq_cons hskip (Nat.le_refl _)
      split at h
      · exact Nat.le_trans (length_skipRest_le h) (Nat.le_of_lt hshorter)
      · split at h
        · split at h
          · split at h
            · cases h
            · next hkey =>
              have hrest := Nat.lt_of_le_of_lt (length_skipKey_le hkey) hshorter
              exact Nat.le_of_lt (Nat.lt_trans (length_skipValueIn_lt h) hrest)
          · cases h
        · split at h
          · cases h
          · next hkey =>
            have hrest := Nat.le_trans (length_skipKey_le hkey) (length_le_of_skipBlanks_eq hskip)
            exact Nat.le_of_lt (Nat.lt_of_lt_of_le (length_skipValueIn_lt h) hrest)
termination_by 2 * cs.length + 1
decreasing_by all_goals omega

end

/-- Passes over a value. -/
def skipValue (cs : List Char) : Except Error (List Char) := skipValueIn [] cs

theorem length_skipValue_lt {cs rest : List Char} (h : skipValue cs = .ok rest) :
    rest.length < cs.length := length_skipValueIn_lt h

end Switchboard.Json
