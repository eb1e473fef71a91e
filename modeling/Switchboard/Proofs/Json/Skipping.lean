import Mathlib.Data.List.DropRight
import Switchboard.Proofs.Json.Grammar

set_option autoImplicit false

/-! # Passing over what is well-formed

`skipValue` passes over every value of the grammar, however deep it is nested, and stops right after
it (`skipValue_append`). The induction is on the derivation. It says of each kind of text what the
scanner does with it inside the containers around it: after an element it goes on as after any other
element.
-/

namespace Switchboard.Json

/-! ## Numbers -/

/-- No number goes on here. -/
def NumberEnds (rest : List Char) : Prop :=
  ∀ c ∈ rest.head?, c.isDigit = false ∧ c ≠ '.' ∧ c ≠ 'e' ∧ c ≠ 'E'

/-- No digit follows. -/
def DigitsEnd (rest : List Char) : Prop := ∀ c ∈ rest.head?, c.isDigit = false

theorem numberEnds_cons {c : Char} (h : c.isDigit = false ∧ c ≠ '.' ∧ c ≠ 'e' ∧ c ≠ 'E')
    (rest : List Char) : NumberEnds (c :: rest) := by
  intro d hd
  obtain rfl : c = d := by simpa using hd
  exact h

theorem NumberEnds.digitsEnd {rest : List Char} (h : NumberEnds rest) : DigitsEnd rest :=
  fun c hc => (h c hc).1

theorem splitDigits_append {ds rest : List Char} (hds : ∀ c ∈ ds, c.isDigit)
    (hrest : DigitsEnd rest) : splitDigits (ds ++ rest) = (ds, rest) := by
  have htake : rest.takeWhile Char.isDigit = [] ∧ rest.dropWhile Char.isDigit = rest := by
    cases rest with
    | nil => exact ⟨rfl, rfl⟩
    | cons c rest =>
        have hc : c.isDigit = false := hrest c rfl
        simp [hc]
  rw [splitDigits, List.takeWhile_append_of_pos hds, List.dropWhile_append_of_pos hds, htake.1,
    htake.2, List.append_nil]

theorem Digits.head?_any {ds : List Char} (h : Digits ds) (rest : List Char) :
    (ds ++ rest).head?.any Char.isDigit := by
  obtain ⟨hne, hds⟩ := h
  cases ds with
  | nil => exact absurd rfl hne
  | cons d ds => simpa using hds d List.mem_cons_self

theorem isDigit_of_mem_exponentLetters : ∀ letter ∈ ['e', 'E'], letter.isDigit = false :=
  List.forall_mem_cons.2 ⟨rfl, List.forall_mem_singleton.2 rfl⟩

theorem IsExponent.digitsEnd {exponent rest : List Char} (h : IsExponent exponent)
    (hrest : NumberEnds rest) : DigitsEnd (exponent ++ rest) := by
  rcases h with rfl | ⟨letter, hletter, sign, -, ds, rfl, -⟩
  · exact hrest.digitsEnd
  · intro c hc
    obtain rfl : letter = c := by simpa using hc
    exact isDigit_of_mem_exponentLetters letter hletter

theorem IsExponent.head?_ne {exponent rest : List Char} (h : IsExponent exponent)
    (hrest : NumberEnds rest) : (exponent ++ rest).head? ≠ some '.' := by
  rcases h with rfl | ⟨letter, hletter, sign, -, ds, rfl, -⟩
  · exact fun hpoint => (hrest '.' hpoint).2.1 rfl
  · intro hpoint
    obtain rfl : letter = '.' := by simpa using hpoint
    revert hletter
    decide

theorem IsFraction.digitsEnd {fraction rest : List Char} (h : IsFraction fraction)
    (hrest : DigitsEnd rest) : DigitsEnd (fraction ++ rest) := by
  rcases h with rfl | ⟨ds, rfl, -⟩
  · exact hrest
  · intro c hc
    obtain rfl : '.' = c := by simpa using hc
    rfl

theorem splitSign_append {sign ds : List Char} (hsign : sign ∈ [[], ['+'], ['-']])
    (hds : Digits ds) (rest : List Char) : (splitSign (sign ++ (ds ++ rest))).2 = ds ++ rest := by
  -- without a sign there is a digit in front
  obtain ⟨hne, hall⟩ := hds
  cases ds with
  | nil => exact absurd rfl hne
  | cons d ds =>
      have hd : d.isDigit := hall d List.mem_cons_self
      have hplus : d ≠ '+' := ne_of_isDigit hd rfl
      have hminus : d ≠ '-' := ne_of_isDigit hd rfl
      simp only [List.mem_cons, List.not_mem_nil, or_false] at hsign
      rcases hsign with rfl | rfl | rfl
      · simp [splitSign, hplus, hminus]
      · rfl
      · rfl

theorem skipFloatEnd_append {exponent rest : List Char} (h : IsExponent exponent)
    (hrest : NumberEnds rest) : skipFloatEnd (exponent ++ rest) = .ok rest := by
  rcases h with rfl | ⟨letter, hletter, sign, hsign, ds, rfl, hds⟩
  · cases rest with
    | nil => rfl
    | cons c rest =>
        obtain ⟨-, -, he, hE⟩ := hrest c rfl
        simp [skipFloatEnd, he, hE]
  · have hskip : skipExponent (sign ++ (ds ++ rest)) = .ok rest := by
      simp only [skipExponent, splitSign_append hsign hds, hds.head?_any, if_true,
        splitDigits_append hds.2 hrest.digitsEnd]
    rw [List.cons_append, List.append_assoc]
    simp only [List.mem_cons, List.not_mem_nil, or_false] at hletter
    rcases hletter with rfl | rfl
    · exact hskip
    · exact hskip

theorem no_zero_in_front {d : Char} {ds rest : List Char}
    (hzero : (d :: ds).head? = some '0' → d :: ds = ['0']) (hrest : DigitsEnd rest) :
    (decide (d = '0') && (ds ++ rest).head?.any Char.isDigit) = false := by
  by_cases h0 : d = '0'
  · subst h0
    obtain rfl : ds = [] := by simpa using hzero rfl
    cases hhead : rest.head? with
    | none => simp [hhead]
    | some c => simp [hhead, hrest c hhead]
  · simp [h0]

/-- A number after its sign is passed over as a whole. -/
theorem skipNumber_append {whole fraction exponent rest : List Char} (hwhole : IsWhole whole)
    (hfraction : IsFraction fraction) (hexponent : IsExponent exponent)
    (hrest : NumberEnds rest) :
    skipNumber (whole ++ (fraction ++ (exponent ++ rest))) = .ok rest := by
  obtain ⟨⟨hne, hall⟩, hzero⟩ := hwhole
  have hend : DigitsEnd (fraction ++ (exponent ++ rest)) :=
    hfraction.digitsEnd (hexponent.digitsEnd hrest)
  have hsplit := splitDigits_append hall hend
  cases whole with
  | nil => exact absurd rfl hne
  | cons d ds =>
      have hd : d.isDigit := hall d List.mem_cons_self
      have hlead := no_zero_in_front hzero hend
      rw [List.cons_append] at hsplit ⊢
      simp only [skipNumber, hd, hlead, hsplit, Bool.not_true, Bool.false_eq_true, if_false]
      rcases hfraction with rfl | ⟨digits, rfl, hdigits⟩
      · rw [List.nil_append]
        split
        · next fraction heq =>
          -- a point would belong to a fraction
          exact absurd (by rw [heq]; rfl) (hexponent.head?_ne hrest)
        · exact skipFloatEnd_append hexponent hrest
      · rw [List.cons_append]
        simp only [hdigits.head?_any, if_true,
          splitDigits_append hdigits.2 (hexponent.digitsEnd hrest)]
        exact skipFloatEnd_append hexponent hrest

/-! ## Strings -/

theorem escapeLetter?_of_mem : ∀ p ∈ letterValues, escapeLetter? p.1 = some p.2 ∧ p.1 ≠ 'u' := by
  decide

theorem length_le_byteLength (cs : List Char) : cs.length ≤ Text.byteLength cs := by
  induction cs with
  | nil => exact Nat.le_refl _
  | cons c cs ih =>
      have hc := c.utf8Size_pos
      rw [List.length_cons, Text.byteLength_cons]
      omega

theorem scanQuad_append {a b c d : Char} {n : Nat} (h : quad? a b c d = some n)
    (rest : List Char) : scanQuad (a :: b :: c :: d :: rest) = .ok (n, rest) := by
  have hlength : ¬ Text.byteLength ((a :: b :: c :: d :: rest).take 4) < 4 :=
    Nat.not_lt.2 (length_le_byteLength [a, b, c, d])
  rw [scanQuad, if_neg hlength, h]

theorem Quad.quad?_eq {a b c d : Char} {n : Nat} (h : Quad a b c d n) : quad? a b c d = some n := by
  obtain ⟨i, j, k, l, hvalues, rfl⟩ := h
  simp only [List.map_cons, List.map_nil, List.cons.injEq, and_true] at hvalues
  obtain ⟨hi, hj, hk, hl⟩ := hvalues
  rw [quad?, hi, hj, hk, hl]
  rfl

theorem skipString_of_skipEscape {cs after : List Char} (h : skipEscape cs = .ok after) :
    skipString ('\\' :: cs) = skipString after := by
  rw [skipString]
  split
  · next e he =>
    rw [h] at he
    cases he
  · next after' he =>
    rw [h, Except.ok.injEq] at he
    rw [he]

/-- What stands between quotation marks is passed over, with the mark after it. -/
theorem skipString_append {body : List Char} (h : IsBody body) (rest : List Char) :
    skipString (body ++ '"' :: rest) = .ok rest := by
  induction h with
  | nil => rw [List.nil_append, skipString]
  | plain hc hquote hback _ ih =>
      rw [List.cons_append, skipString, if_neg (Nat.not_lt.2 hc), ih]
      · exact hquote
      · exact hback
  | @letter c x cs hletter _ ih =>
      obtain ⟨hvalue, hne⟩ := escapeLetter?_of_mem _ hletter
      have hskip : skipEscape (c :: (cs ++ '"' :: rest)) = .ok (cs ++ '"' :: rest) := by
        rw [skipEscape, if_pos (Option.isSome_of_eq_some hvalue)]
        exact hne
      rw [List.cons_append, List.cons_append, skipString_of_skipEscape hskip, ih]
  | @quad a b c d n cs hquad _ ih =>
      have hskip : skipEscape ('u' :: a :: b :: c :: d :: (cs ++ '"' :: rest)) =
          .ok (cs ++ '"' :: rest) := by
        rw [skipEscape, scanQuad_append hquad.quad?_eq]
        rfl
      simp only [List.cons_append]
      rw [skipString_of_skipEscape hskip, ih]

/-! ## Blanks -/

theorem skipBlanks_append {front : List Char} (h : Blanks front) (rest : List Char) :
    skipBlanks (front ++ rest) = skipBlanks rest := List.dropWhile_append_of_pos h

theorem skipBlanks_skipBlanks (cs : List Char) : skipBlanks (skipBlanks cs) = skipBlanks cs :=
  List.dropWhile_idempotent (p := isBlank) cs

theorem skipBlanks_cons {c : Char} (h : isBlank c = false) (cs : List Char) :
    skipBlanks (c :: cs) = c :: cs := by
  simp [skipBlanks, h]

theorem scanColon_append {back : List Char} (h : Blanks back) (rest : List Char) :
    scanColon (back ++ ':' :: rest) = .ok rest := by
  rw [scanColon, skipBlanks_append h, skipBlanks_cons rfl]
  rfl

/-! ## One step of the scanner -/

theorem skipValueIn_eq (around : List Container) (cs : List Char) :
    skipValueIn around cs =
      match skipBlanks cs with
      | '[' :: rest => skipRest false (.list :: around) rest
      | '\x7b' :: rest => skipRest false (.object :: around) rest
      | start => (skipAtom start).bind (skipRest true around) := by
  rw [skipValueIn.eq_def]
  simp only
  split
  · next h => simp only [h]
  · next h => simp only [h]
  · next hlist hobject =>
    have hstart : (match skipBlanks cs with
        | '[' :: rest => skipRest false (.list :: around) rest
        | '\x7b' :: rest => skipRest false (.object :: around) rest
        | start => (skipAtom start).bind (skipRest true around)) =
          (skipAtom (skipBlanks cs)).bind (skipRest true around) := by
      split
      · next h => exact absurd h (hlist _)
      · next h => exact absurd h (hobject _)
      · rfl
    rw [hstart]
    split
    · next hatom => rw [hatom]; rfl
    · next hatom => rw [hatom]; rfl

theorem skipRest_eq (afterElement : Bool) (c : Container) (outer : List Container)
    (cs : List Char) :
    skipRest afterElement (c :: outer) cs =
      match skipBlanks cs with
      | [] => .error c.cutOff
      | d :: rest =>
        if d = c.close then skipRest true outer rest
        else if afterElement then
          if d = ',' then (skipKey c rest).bind (skipValueIn (c :: outer)) else .error c.unended
        else (skipKey c (d :: rest)).bind (skipValueIn (c :: outer)) := by
  rw [skipRest.eq_def]
  simp only
  split
  · next h => rw [h]
  · next d rest h =>
    rw [h]
    simp only
    split
    · rfl
    · split
      · split
        · split
          · next hk => rw [hk]; rfl
          · next hk => rw [hk]; rfl
        · rfl
      · split
        · next hk => rw [hk]; rfl
        · next hk => rw [hk]; rfl

theorem skipValueIn_skipBlanks (around : List Container) (cs : List Char) :
    skipValueIn around (skipBlanks cs) = skipValueIn around cs := by
  rw [skipValueIn_eq, skipValueIn_eq around cs, skipBlanks_skipBlanks]

theorem skipValueIn_append_blanks {front : List Char} (h : Blanks front)
    (around : List Container) (rest : List Char) :
    skipValueIn around (front ++ rest) = skipValueIn around rest := by
  rw [skipValueIn_eq, skipValueIn_eq around rest, skipBlanks_append h]

theorem skipRest_append_blanks {afterElement : Bool} {c : Container} {outer : List Container}
    {blanks : List Char} (h : Blanks blanks) (rest : List Char) :
    skipRest afterElement (c :: outer) (blanks ++ rest) =
      skipRest afterElement (c :: outer) rest := by
  rw [skipRest_eq, skipRest_eq afterElement c outer rest, skipBlanks_append h]

/-- What stands before a value in a container is found behind blanks as well. -/
theorem skipKey_skipBlanks (c : Container) (outer : List Container) (cs : List Char) :
    (skipKey c (skipBlanks cs)).bind (skipValueIn (c :: outer)) =
      (skipKey c cs).bind (skipValueIn (c :: outer)) := by
  cases c with
  | list => exact skipValueIn_skipBlanks _ cs
  | object => simp only [skipKey, skipBlanks_skipBlanks]

theorem skipRest_close (afterElement : Bool) (c : Container) (outer : List Container)
    (rest : List Char) :
    skipRest afterElement (c :: outer) (c.close :: rest) = skipRest true outer rest := by
  have hblank : isBlank c.close = false := by cases c <;> rfl
  rw [skipRest_eq, skipBlanks_cons hblank]
  simp

theorem skipRest_comma (c : Container) (outer : List Container) (rest : List Char) :
    skipRest true (c :: outer) (',' :: rest) =
      (skipKey c rest).bind (skipValueIn (c :: outer)) := by
  have hclose : ',' ≠ c.close := by cases c <;> decide
  rw [skipRest_eq, skipBlanks_cons rfl]
  simp [hclose]

/-- After the opening bracket there is something that can begin an item. -/
theorem skipRest_begin {c : Container} {cs ds : List Char} {d : Char}
    (hcs : skipBlanks cs = d :: ds) (hd : Begins d) (outer : List Container) :
    skipRest false (c :: outer) cs = (skipKey c cs).bind (skipValueIn (c :: outer)) := by
  have hclose : d ≠ c.close := by
    cases c with
    | list => exact hd.2.1
    | object => exact hd.2.2
  rw [← skipKey_skipBlanks, skipRest_eq, hcs]
  simp [hclose]

/-! ## Values -/

/-- What the scanner does with a text inside the containers around it. -/
def PassedOver : Kind → List Char → Prop
  | .value, cs => ∀ around rest, NumberEnds rest →
      skipValueIn around (cs ++ rest) = skipRest true around rest
  | .element, cs => ∀ c outer rest, NumberEnds rest →
      skipValueIn (c :: outer) (cs ++ rest) = skipRest true (c :: outer) rest
  | .item c, cs | .items c, cs => ∀ outer rest, NumberEnds rest →
      (skipKey c (cs ++ rest)).bind (skipValueIn (c :: outer)) = skipRest true (c :: outer) rest

theorem numberEnds_of_blanks {back rest : List Char} (hback : Blanks back) (h : NumberEnds rest) :
    NumberEnds (back ++ rest) := by
  cases back with
  | nil => exact h
  | cons b back =>
      have hb : isBlank b := hback b List.mem_cons_self
      have hne : ∀ d : Char, isBlank d = false → b ≠ d := by
        rintro d hd rfl
        rw [hd] at hb
        cases hb
      refine numberEnds_cons ⟨?_, hne _ rfl, hne _ rfl, hne _ rfl⟩ _
      by_contra hdigit
      rw [Bool.not_eq_false] at hdigit
      rw [(begins_of_isDigit hdigit).1] at hb
      cases hb

theorem Derives.exists_begin {k : Kind} {cs : List Char} (h : Derives k cs) (rest : List Char) :
    ∃ d ds, skipBlanks (cs ++ rest) = d :: ds ∧ Begins d := by
  have hvalue : ∀ {cs : List Char}, Derives .value cs → ∀ rest,
      ∃ d ds, skipBlanks (cs ++ rest) = d :: ds ∧ Begins d := by
    intro cs h rest
    obtain ⟨d, ds, rfl, hd⟩ := h.begins
    exact ⟨d, ds ++ rest, skipBlanks_cons hd.1 _, hd⟩
  induction h generalizing rest with
  | null => exact hvalue .null rest
  | true => exact hvalue .true rest
  | false => exact hvalue .false rest
  | number h => exact hvalue (.number h) rest
  | text h => exact hvalue (.text h) rest
  | empty c h => exact hvalue (.empty c h) rest
  | filled c h _ => exact hvalue (.filled c h) rest
  | element hfront h _ _ =>
      rw [List.append_assoc, List.append_assoc, skipBlanks_append hfront]
      exact hvalue h _
  | ofElement _ ih => exact ih rest
  | member hfront _ _ _ _ =>
      rw [List.append_assoc, skipBlanks_append hfront]
      exact ⟨'"', _, skipBlanks_cons rfl _, by decide⟩
  | one _ ih => exact ih rest
  | more _ _ ih _ =>
      rw [List.append_assoc]
      exact ih _

/-- A value that holds no other values is passed over in one step. -/
theorem skipValueIn_of_skipAtom {d : Char} {ds rest : List Char} (hblank : isBlank d = false)
    (h : skipAtom (d :: ds) = .ok rest) (around : List Container) :
    skipValueIn around (d :: ds) = skipRest true around rest := by
  have hatom : ∀ c : Container, d ≠ c.opening := by
    rintro c rfl
    cases c <;> cases h
  rw [skipValueIn_eq, skipBlanks_cons hblank]
  split
  · next heq => exact absurd (List.cons.inj heq).1 (hatom .list)
  · next heq => exact absurd (List.cons.inj heq).1 (hatom .object)
  · rw [h]
    rfl

theorem skipAtom_number {cs rest : List Char} (h : IsNumber cs) (hrest : NumberEnds rest) :
    skipAtom (cs ++ rest) = .ok rest := by
  obtain ⟨sign, hsign, whole, fraction, exponent, rfl, hwhole, hfraction, hexponent⟩ := h
  have hskip := skipNumber_append hwhole hfraction hexponent hrest
  simp only [List.mem_cons, List.not_mem_nil, or_false] at hsign
  simp only [List.append_assoc]
  rcases hsign with rfl | rfl
  · obtain ⟨d, ds, rfl, hd⟩ := hwhole.exists_digit
    rw [List.nil_append]
    rw [List.cons_append] at hskip ⊢
    rw [skipAtom, if_pos hd, hskip]
    all_goals exact ne_of_isDigit hd rfl
  · exact hskip

/-- The opening bracket leads into the container. -/
theorem skipValueIn_opening (c : Container) (around : List Container) (cs : List Char) :
    skipValueIn around (c.opening :: cs) = skipRest false (c :: around) cs := by
  rw [skipValueIn_eq]
  cases c with
  | list => rfl
  | object => rfl

theorem numberEnds_close (c : Container) (rest : List Char) : NumberEnds (c.close :: rest) :=
  numberEnds_cons (by cases c <;> decide) rest

/-- The scanner passes over what is well-formed. -/
theorem Derives.passedOver {k : Kind} {cs : List Char} (h : Derives k cs) : PassedOver k cs := by
  induction h with
  | null =>
      intro around rest _
      exact skipValueIn_of_skipAtom rfl rfl around
  | true =>
      intro around rest _
      exact skipValueIn_of_skipAtom rfl rfl around
  | false =>
      intro around rest _
      exact skipValueIn_of_skipAtom rfl rfl around
  | number h =>
      intro around rest hrest
      have hatom := skipAtom_number h hrest
      obtain ⟨d, ds, rfl, hd⟩ := (Derives.number h).begins
      exact skipValueIn_of_skipAtom hd.1 hatom around
  | @text body h =>
      intro around rest _
      have hatom : skipAtom ('"' :: (body ++ '"' :: rest)) = .ok rest := skipString_append h rest
      have happend : '"' :: body ++ ['"'] ++ rest = '"' :: (body ++ '"' :: rest) := by simp
      rw [happend]
      exact skipValueIn_of_skipAtom rfl hatom around
  | @empty c blanks h =>
      intro around rest _
      have happend : c.opening :: blanks ++ [c.close] ++ rest =
          c.opening :: (blanks ++ c.close :: rest) := by simp
      rw [happend, skipValueIn_opening, skipRest_append_blanks h, skipRest_close]
  | @filled c cs h ih =>
      intro around rest _
      have happend : c.opening :: cs ++ [c.close] ++ rest =
          c.opening :: (cs ++ c.close :: rest) := by simp
      obtain ⟨d, ds, hbegin, hd⟩ := h.exists_begin (c.close :: rest)
      rw [happend, skipValueIn_opening, skipRest_begin hbegin hd,
        ih around _ (numberEnds_close c rest), skipRest_close]
  | @element front cs back hfront h hback ih =>
      intro c outer rest hrest
      have happend : front ++ cs ++ back ++ rest = front ++ (cs ++ (back ++ rest)) := by simp
      rw [happend, skipValueIn_append_blanks hfront, ih _ _ (numberEnds_of_blanks hback hrest),
        skipRest_append_blanks hback]
  | ofElement h ih =>
      intro outer rest hrest
      exact ih .list outer rest hrest
  | @member front body back cs hfront hbody hback h ih =>
      intro outer rest hrest
      have hkey : skipKey .object (front ++ '"' :: (body ++ '"' :: (back ++ ':' :: (cs ++ rest)))) =
          .ok (cs ++ rest) := by
        rw [skipKey, skipBlanks_append hfront, skipBlanks_cons rfl]
        simp only [skipString_append hbody]
        exact scanColon_append hback _
      have happend : front ++ '"' :: (body ++ '"' :: (back ++ ':' :: cs)) ++ rest =
          front ++ '"' :: (body ++ '"' :: (back ++ ':' :: (cs ++ rest))) := by simp
      rw [happend, hkey]
      exact ih .object outer rest hrest
  | one h ih => exact ih
  | @more c cs ds h h' ih ih' =>
      intro outer rest hrest
      have happend : cs ++ ',' :: ds ++ rest = cs ++ ',' :: (ds ++ rest) := by simp
      have hcomma : NumberEnds (',' :: (ds ++ rest)) := numberEnds_cons (by decide) _
      rw [happend, ih outer _ hcomma, skipRest_comma, ih' outer rest hrest]

/-- A value is passed over, and nothing after it. -/
theorem skipValue_append {cs rest : List Char} (h : Derives .value cs) (hrest : NumberEnds rest) :
    skipValue (cs ++ rest) = .ok rest := by
  rw [skipValue, h.passedOver [] rest hrest, skipRest]

end Switchboard.Json
