import Mathlib.Data.List.Basic
import Switchboard.Json.Skip
import Switchboard.Json.Writer

set_option autoImplicit false

/-! # The grammar of JSON

What is well-formed, without any scanner: numbers (`IsNumber`), the characters between quotation
marks (`IsBody`), and values with all that they are made of (`Derives`). `Spells` says which text
the characters between quotation marks stand for; characters with half of a character among them
stand for none, but are well-formed. Whatever is written is well-formed (`Value.derives_written`).
-/

namespace Switchboard.Json

/-! ## Numbers -/

/-- Digits, at least one. -/
def Digits (cs : List Char) : Prop := cs ≠ [] ∧ ∀ c ∈ cs, c.isDigit

/-- The whole part of a number, without a zero in front. -/
def IsWhole (cs : List Char) : Prop := Digits cs ∧ (cs.head? = some '0' → cs = ['0'])

/-- The part of a number from its point on. -/
def IsFraction (cs : List Char) : Prop := cs = [] ∨ ∃ ds, cs = '.' :: ds ∧ Digits ds

/-- The part of a number from the letter of its exponent on. -/
def IsExponent (cs : List Char) : Prop :=
  cs = [] ∨ ∃ letter ∈ ['e', 'E'], ∃ sign ∈ [[], ['+'], ['-']], ∃ ds,
    cs = letter :: (sign ++ ds) ∧ Digits ds

/-- A number. -/
def IsNumber (cs : List Char) : Prop :=
  ∃ sign ∈ [[], ['-']], ∃ whole fraction exponent, cs = sign ++ (whole ++ (fraction ++ exponent)) ∧
    IsWhole whole ∧ IsFraction fraction ∧ IsExponent exponent

/-! ## Strings -/

/-- The letters of the short escapes, and the characters that they stand for. -/
def letterValues : List (Char × Char) :=
  [('"', '"'), ('\\', '\\'), ('/', '/'), ('b', '\x08'), ('f', '\x0c'), ('n', '\n'), ('r', '\r'),
    ('t', '\t')]

/-- Four hexadecimal digits, in either case, and their value. -/
def Quad (a b c d : Char) (n : Nat) : Prop :=
  ∃ i j k l, [a, b, c, d].map Text.hexDigitValue? = [some i, some j, some k, some l] ∧
    n = i * 4096 + j * 256 + k * 16 + l

/-- What may stand between quotation marks. -/
inductive IsBody : List Char → Prop
  | nil : IsBody []
  | plain {c : Char} {cs : List Char} : 0x20 ≤ c.toNat → c ≠ '"' → c ≠ '\\' → IsBody cs →
      IsBody (c :: cs)
  | letter {c x : Char} {cs : List Char} : (c, x) ∈ letterValues → IsBody cs →
      IsBody ('\\' :: c :: cs)
  | quad {a b c d : Char} {n : Nat} {cs : List Char} : Quad a b c d n → IsBody cs →
      IsBody ('\\' :: 'u' :: a :: b :: c :: d :: cs)

/-- What stands between quotation marks for a text: each character as it is, unless it must not be,
or as an escape. One outside the basic plane is escaped in two halves. -/
inductive Spells : List Char → List Char → Prop
  | nil : Spells [] []
  | plain {c : Char} {cs text : List Char} : 0x20 ≤ c.toNat → c ≠ '"' → c ≠ '\\' →
      Spells cs text → Spells (c :: cs) (c :: text)
  | letter {c x : Char} {cs text : List Char} : (c, x) ∈ letterValues → Spells cs text →
      Spells ('\\' :: c :: cs) (x :: text)
  | quad {a b c d x : Char} {cs text : List Char} : Quad a b c d x.toNat → Spells cs text →
      Spells ('\\' :: 'u' :: a :: b :: c :: d :: cs) (x :: text)
  | halves {a b c d a' b' c' d' x : Char} {cs text : List Char} {high low : Nat} :
      high < 0x400 → low < 0x400 → x.toNat = 0x10000 + high * 0x400 + low →
      Quad a b c d (0xD800 + high) → Quad a' b' c' d' (0xDC00 + low) → Spells cs text →
      Spells ('\\' :: 'u' :: a :: b :: c :: d :: '\\' :: 'u' :: a' :: b' :: c' :: d' :: cs)
        (x :: text)

/-- What spells a text may stand between quotation marks. -/
theorem Spells.isBody {cs text : List Char} (h : Spells cs text) : IsBody cs := by
  induction h with
  | nil => exact .nil
  | plain hc hquote hback _ ih => exact .plain hc hquote hback ih
  | letter hletter _ ih => exact .letter hletter ih
  | quad hquad _ ih => exact .quad hquad ih
  | halves _ _ _ hquad hquad' _ ih => exact .quad hquad (.quad hquad' ih)

/-! ## Values -/

/-- Blanks, or none. -/
def Blanks (cs : List Char) : Prop := ∀ c ∈ cs, isBlank c

/-- The bracket before the elements of a container. -/
def Container.opening : Container → Char
  | list => '['
  | object => '\x7b'

/-- The kinds of texts that a value is made of. -/
inductive Kind where
  | value
  /-- A value with blanks around it. -/
  | element
  /-- One element of a list, or one member of an object. -/
  | item (c : Container)
  /-- Items with commas between them. -/
  | items (c : Container)

/-- The grammar of JSON. -/
inductive Derives : Kind → List Char → Prop
  | null : Derives .value ['n', 'u', 'l', 'l']
  | true : Derives .value ['t', 'r', 'u', 'e']
  | false : Derives .value ['f', 'a', 'l', 's', 'e']
  | number {cs : List Char} : IsNumber cs → Derives .value cs
  | text {body : List Char} : IsBody body → Derives .value ('"' :: body ++ ['"'])
  | empty (c : Container) {blanks : List Char} : Blanks blanks →
      Derives .value (c.opening :: blanks ++ [c.close])
  | filled (c : Container) {cs : List Char} : Derives (.items c) cs →
      Derives .value (c.opening :: cs ++ [c.close])
  | element {front cs back : List Char} : Blanks front → Derives .value cs → Blanks back →
      Derives .element (front ++ cs ++ back)
  | ofElement {cs : List Char} : Derives .element cs → Derives (.item .list) cs
  | member {front body back cs : List Char} : Blanks front → IsBody body → Blanks back →
      Derives .element cs →
      Derives (.item .object) (front ++ '"' :: (body ++ '"' :: (back ++ ':' :: cs)))
  | one {c : Container} {cs : List Char} : Derives (.item c) cs → Derives (.items c) cs
  | more {c : Container} {cs ds : List Char} : Derives (.item c) cs → Derives (.items c) ds →
      Derives (.items c) (cs ++ ',' :: ds)

/-! ## How values begin -/

/-- A character that can begin a value. -/
def Begins (c : Char) : Prop := isBlank c = Bool.false ∧ c ≠ ']' ∧ c ≠ '\x7d'

instance (c : Char) : Decidable (Begins c) := by
  unfold Begins
  infer_instance

theorem ne_of_isDigit {c d : Char} (h : c.isDigit) (hd : d.isDigit = Bool.false) : c ≠ d := by
  rintro rfl
  rw [hd] at h
  cases h

theorem begins_of_isDigit {c : Char} (h : c.isDigit) : Begins c := by
  have hblank : isBlank c = Bool.false := by
    simp only [isBlank, Bool.or_eq_false_iff, decide_eq_false_iff_not]
    exact ⟨⟨⟨ne_of_isDigit h rfl, ne_of_isDigit h rfl⟩, ne_of_isDigit h rfl⟩,
      ne_of_isDigit h rfl⟩
  exact ⟨hblank, ne_of_isDigit h rfl, ne_of_isDigit h rfl⟩

theorem IsWhole.exists_digit {cs : List Char} (h : IsWhole cs) :
    ∃ d ds, cs = d :: ds ∧ d.isDigit := by
  obtain ⟨⟨hne, hall⟩, -⟩ := h
  cases cs with
  | nil => exact absurd rfl hne
  | cons d ds => exact ⟨d, ds, rfl, hall d List.mem_cons_self⟩

theorem Derives.begins {cs : List Char} (h : Derives .value cs) :
    ∃ d ds, cs = d :: ds ∧ Begins d := by
  cases h with
  | null => exact ⟨'n', _, rfl, by decide⟩
  | true => exact ⟨'t', _, rfl, by decide⟩
  | false => exact ⟨'f', _, rfl, by decide⟩
  | number h =>
      obtain ⟨sign, hsign, whole, fraction, exponent, rfl, hwhole, -⟩ := h
      simp only [List.mem_cons, List.not_mem_nil, or_false] at hsign
      rcases hsign with rfl | rfl
      · obtain ⟨d, ds, rfl, hd⟩ := hwhole.exists_digit
        exact ⟨d, _, rfl, begins_of_isDigit hd⟩
      · exact ⟨'-', _, rfl, by decide⟩
  | text h => exact ⟨'"', _, rfl, by decide⟩
  | empty c h => exact ⟨c.opening, _, rfl, by cases c <;> decide⟩
  | filled c h => exact ⟨c.opening, _, rfl, by cases c <;> decide⟩

end Switchboard.Json
