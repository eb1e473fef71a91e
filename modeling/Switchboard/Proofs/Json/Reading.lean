import Mathlib.Data.List.Forall2
import Switchboard.Json.Reader
import Switchboard.Proofs.Json.Texts

set_option autoImplicit false

/-! # Reading back values

`Reader.Reads` says that a reader takes a text for a value, whatever follows. There is one lemma for
each way to put readers together. Every written value is well-formed (`Value.derives_written`), so
what a list or a dictionary asks of the first characters of its elements is known.
-/

namespace Switchboard.Json

/-! ## Written numbers -/

theorem le_ofDigitChars (ds : List Char) (n : Nat) : n ≤ Nat.ofDigitChars 10 ds n := by
  have hpow : 0 < 10 ^ ds.length := Nat.pow_pos (by decide)
  rw [Nat.ofDigitChars_eq_ofDigitChars_zero]
  calc n = 1 * n := (Nat.one_mul n).symm
    _ ≤ 10 ^ ds.length * n := Nat.mul_le_mul_right n hpow
    _ ≤ 10 ^ ds.length * n + Nat.ofDigitChars 10 ds 0 := Nat.le_add_right _ _

/-- Digits are gathered as long as their value fits. -/
theorem scanDigits_append {ds rest : List Char} (hds : ∀ c ∈ ds, c.isDigit)
    (hrest : DigitsEnd rest) {n : Nat} (h : Nat.ofDigitChars 10 ds n < wordBound) :
    scanDigits n (ds ++ rest) = (Nat.ofDigitChars 10 ds n, rest) := by
  induction ds generalizing n with
  | nil =>
      cases rest with
      | nil => rfl
      | cons c rest =>
          have hc : c.isDigit = false := hrest c rfl
          simp [scanDigits, hc]
  | cons d ds ih =>
      obtain ⟨hd, hds⟩ := List.forall_mem_cons.1 hds
      have hvalue : 10 * n + (d.toNat - '0'.toNat) = n * 10 + digit d := by
        rw [Nat.mul_comm, digit]
      rw [Nat.ofDigitChars_cons, hvalue] at h ⊢
      have hfits : n * 10 + digit d < wordBound := Nat.lt_of_le_of_lt (le_ofDigitChars ds _) h
      rw [List.cons_append, scanDigits, hd, decide_eq_true hfits]
      exact ih hds h

theorem head?_toDigits {n : Nat} (h : (Nat.toDigits 10 n).head? = some '0') : n = 0 := by
  induction n using Nat.strongRecOn with
  | _ n ih =>
    by_cases hn : n < 10
    · have hall : ∀ n < 10, n.digitChar = '0' → n = 0 := by decide
      rw [Nat.toDigits_of_lt_base hn] at h
      exact hall n hn (by simpa using h)
    · rw [Nat.toDigits_of_base_le (by decide) (Nat.not_lt.1 hn),
        List.head?_append_of_ne_nil _ Nat.toDigits_ne_nil] at h
      have hzero := ih (n / 10) (by omega) h
      omega

/-- A number is written without a zero in front. -/
theorem isWhole_toDigits (n : Nat) : IsWhole (Nat.toDigits 10 n) := by
  refine ⟨⟨Nat.toDigits_ne_nil, fun c hc => ?_⟩, fun h => ?_⟩
  · exact Nat.isDigit_of_mem_toDigits (by decide) (by decide) hc
  · rw [head?_toDigits h]
    rfl

theorem toList_toString (n : UInt64) : (toString n).toList = Nat.toDigits 10 n.toNat :=
  Nat.toList_repr

/-- A written number of 64 bits is read back. -/
theorem scanNumber_append (n : UInt64) {rest : List Char} (hrest : NumberEnds rest) :
    scanNumber false ((toString n).toList ++ rest) = .ok (.natural n, rest) := by
  obtain ⟨⟨hne, hall⟩, hzero⟩ := isWhole_toDigits n.toNat
  have hfits : Nat.ofDigitChars 10 (Nat.toDigits 10 n.toNat) 0 < wordBound := by
    rw [Nat.ofDigitChars_ten_toDigits]
    exact n.toNat_lt
  have hscan := scanDigits_append hall hrest.digitsEnd hfits
  have hnone : splitDigits ([] ++ rest) = ([], rest) :=
    splitDigits_append (fun _ h => absurd h List.not_mem_nil) hrest.digitsEnd
  rw [Nat.ofDigitChars_ten_toDigits] at hscan
  rw [toList_toString]
  generalize Nat.toDigits 10 n.toNat = whole at hne hall hzero hscan
  cases whole with
  | nil => exact absurd rfl hne
  | cons d ds =>
      have hd : d.isDigit := hall d List.mem_cons_self
      have hlead := no_zero_in_front hzero hrest.digitsEnd
      rw [List.nil_append] at hnone
      rw [List.cons_append] at hscan ⊢
      simp only [scanNumber, hd, hlead, hscan, hnone, Bool.not_true, Bool.false_eq_true, if_false]
      -- neither a point nor an exponent follows
      split
      · exact absurd rfl (hrest '.' rfl).2.1
      · exact absurd rfl (hrest 'e' rfl).2.2.1
      · exact absurd rfl (hrest 'E' rfl).2.2.2
      · simp [wholeNumber]

/-! ## Texts with commas between them -/

/-- The comma before a text that is not the first. -/
def lead (first : Bool) : List Char := if first then [] else [',']

/-- Texts with commas between them, and before them if others come first. -/
def joined (first : Bool) : List (List Char) → List Char
  | [] => []
  | p :: ps => lead first ++ (p ++ joined false ps)

theorem joined_true (ps : List (List Char)) : joined true ps = [','].intercalate ps := by
  cases ps with
  | nil => rfl
  | cons p ps =>
      have hrest : ∀ p, p ++ joined false ps = [','].intercalate (p :: ps) := by
        induction ps with
        | nil =>
            intro p
            rw [joined, List.append_nil, List.intercalate_singleton]
        | cons q qs ih =>
            intro p
            rw [joined, ih, List.intercalate_cons_cons, List.append_assoc]
            rfl
      exact hrest p

theorem numberEnds_joined (ps : List (List Char)) (c : Container) (rest : List Char) :
    NumberEnds (joined false ps ++ c.close :: rest) := by
  cases ps with
  | nil => exact numberEnds_close c rest
  | cons p ps => exact numberEnds_cons (by decide) _

theorem derives_joined {c : Container} {p : List Char} {ps : List (List Char)}
    (h : ∀ q ∈ p :: ps, Derives (.item c) q) : Derives (.items c) (joined true (p :: ps)) := by
  induction ps generalizing p with
  | nil =>
      have hp := Derives.one (h p List.mem_cons_self)
      rwa [← List.append_nil p] at hp
  | cons q qs ih =>
      obtain ⟨hp, hqs⟩ := List.forall_mem_cons.1 h
      exact .more hp (ih hqs)

/-! ## Written values -/

theorem blanks_nil : Blanks [] := fun _ hc => absurd hc List.not_mem_nil

theorem Derives.alone {cs : List Char} (h : Derives .value cs) : Derives .element cs := by
  have helement := Derives.element blanks_nil h blanks_nil
  rwa [List.nil_append, List.append_nil] at helement

/-- The written form of a member of an object. -/
def writtenMember (m : String × Value) : List Char := writtenString m.1 ++ ':' :: m.2.written

theorem writtenItems_eq (vs : List Value) :
    writtenItems vs = joined true (vs.map Value.written) := by
  rw [joined_true]
  induction vs with
  | nil => rfl
  | cons v vs ih =>
      cases vs with
      | nil => rw [writtenItems, List.map_singleton, List.intercalate_singleton]
      | cons w vs =>
          simp only [writtenItems, ih, List.map_cons, List.intercalate_cons_cons,
            List.append_assoc, List.singleton_append]

theorem writtenMembers_eq (ms : List (String × Value)) :
    writtenMembers ms = joined true (ms.map writtenMember) := by
  rw [joined_true]
  induction ms with
  | nil => rfl
  | cons m ms ih =>
      cases ms with
      | nil =>
          rw [writtenMembers, List.map_singleton, List.intercalate_singleton, writtenMember]
      | cons n ms =>
          simp only [writtenMembers, ih, List.map_cons, List.intercalate_cons_cons,
            List.append_assoc, List.cons_append, List.nil_append, writtenMember]

theorem derives_writtenMember {m : String × Value} (h : Derives .value m.2.written) :
    Derives (.item .object) (writtenMember m) := by
  have hmember := Derives.member blanks_nil (spells_written m.1.toList).isBody blanks_nil h.alone
  have happend : [] ++ '"' :: (m.1.toList.flatMap writtenChar ++
      '"' :: ([] ++ ':' :: m.2.written)) = writtenMember m := by
    simp [writtenMember, writtenString]
  rwa [happend] at hmember

mutual

/-- What is written is well-formed. -/
theorem Value.derives_written : (v : Value) → Derives .value v.written
  | .null => .null
  | .natural n => by
    refine .number ⟨[], List.mem_cons_self, (toString n).toList, [], [], ?_, ?_, .inl rfl, .inl rfl⟩
    · rw [Value.written, List.append_nil, List.append_nil, List.nil_append]
    · rw [toList_toString]
      exact isWhole_toDigits _
  | .text s => .text (spells_written s.toList).isBody
  | .list [] => .empty .list blanks_nil
  | .list (v :: vs) => by
    rw [Value.written, writtenItems_eq]
    have hall : ∀ p ∈ (v :: vs).map Value.written, Derives (.item .list) p :=
      List.forall_mem_map.2 fun w hw => .ofElement (derives_written_of_mem (v :: vs) w hw).alone
    exact .filled .list (derives_joined hall)
  | .object [] => .empty .object blanks_nil
  | .object ((key, v) :: ms) => by
    rw [Value.written, writtenMembers_eq]
    have hall : ∀ p ∈ ((key, v) :: ms).map writtenMember, Derives (.item .object) p :=
      List.forall_mem_map.2 fun m hm =>
        derives_writtenMember (derives_written_of_mem_members ((key, v) :: ms) m hm)
    exact .filled .object (derives_joined hall)

theorem derives_written_of_mem : (vs : List Value) → ∀ v ∈ vs, Derives .value v.written
  | [] => fun _ h => absurd h List.not_mem_nil
  | v :: vs => List.forall_mem_cons.2 ⟨v.derives_written, derives_written_of_mem vs⟩

theorem derives_written_of_mem_members :
    (ms : List (String × Value)) → ∀ m ∈ ms, Derives .value m.2.written
  | [] => fun _ h => absurd h List.not_mem_nil
  | (_, v) :: ms => List.forall_mem_cons.2 ⟨v.derives_written, derives_written_of_mem_members ms⟩

end

/-! ## Readers -/

namespace Reader

variable {α β : Type}

/-- The reader takes the text for the value, whatever follows that does not go on a number. -/
def Reads (r : Reader α) (cs : List Char) (x : α) : Prop :=
  ∀ rest, NumberEnds rest → r.read (cs ++ rest) = .ok (x, rest)

theorem Reads.convert {r : Reader α} {f : α → Except Error β} {cs : List Char} {x : α} {y : β}
    (h : r.Reads cs x) (hf : f x = .ok y) : (r.convert f).Reads cs y := by
  intro rest hrest
  simp only [Reader.convert, h rest hrest, hf, bind, Except.bind, pure, Except.pure]

theorem Reads.map {r : Reader α} {cs : List Char} {x : α} (h : r.Reads cs x) (f : α → β) :
    (r.map f).Reads cs (f x) :=
  h.convert rfl

theorem reads_text (expected s : String) : (text expected).Reads (writtenString s) s := by
  intro rest _
  have hscan := scanString_append (spells_written s.toList) rest
  have happend : writtenString s ++ rest =
      '"' :: (s.toList.flatMap writtenChar ++ '"' :: rest) := by simp [writtenString]
  have hquote : isBlank '"' = false := rfl
  simp only [text, happend, skipBlanks_cons hquote, hscan, Except.map, String.ofList_toList]

theorem reads_word (expected : String) (n : UInt64) :
    (word expected).Reads (toString n).toList n := by
  have hnum : (num expected).Reads (toString n).toList (.natural n) := by
    intro rest hrest
    have hscan := scanNumber_append n hrest
    obtain ⟨d, ds, heq, hd⟩ := (isWhole_toDigits n.toNat).exists_digit
    have hminus : d ≠ '-' := ne_of_isDigit hd rfl
    rw [toList_toString, heq, List.cons_append] at hscan ⊢
    simp only [num, skipBlanks_cons (begins_of_isDigit hd).1]
    rw [if_pos hd, hscan]
  exact hnum.convert rfl

/-- Only `null` begins as `null` does. -/
theorem head?_written_ne {v : Value} (h : v ≠ .null) : v.written.head? ≠ some 'n' := by
  cases v with
  | null => exact absurd rfl h
  | natural n =>
      obtain ⟨d, ds, heq, hd⟩ := (isWhole_toDigits n.toNat).exists_digit
      rw [Value.written, toList_toString, heq]
      intro he
      obtain rfl : d = 'n' := Option.some.inj he
      cases hd
  | text s => exact fun he => absurd (Option.some.inj he) (by decide)
  | list items => exact fun he => absurd (Option.some.inj he) (by decide)
  | object members => exact fun he => absurd (Option.some.inj he) (by decide)

/-- A value that may be absent is read back if it is when it is there. -/
theorem reads_optional {r : Reader α} {f : α → Value} (h : ∀ x, r.Reads (f x).written x)
    (hnull : ∀ x, f x ≠ .null) (o : Option α) :
    r.optional.Reads ((o.map f).getD .null).written o := by
  cases o with
  | none => exact fun _ _ => rfl
  | some x =>
      obtain ⟨d, ds, heq, hblank, -⟩ := (f x).derives_written.begins
      have hd : d ≠ 'n' := by
        rintro rfl
        exact head?_written_ne (hnull x) (by rw [heq]; rfl)
      intro rest hrest
      have hread := h x rest hrest
      rw [heq, List.cons_append] at hread
      rw [Option.map_some, Option.getD_some, heq, List.cons_append]
      simp only [Reader.optional, skipBlanks_cons hblank]
      split
      · next he => exact absurd (List.cons.inj he).1 hd
      · rw [hread]
        rfl

/-! ### Lists -/

theorem nextElement_end (first : Bool) (rest : List Char) :
    nextElement first (']' :: rest) = .ok (false, ']' :: rest) := rfl

/-- Another element follows. -/
theorem nextElement_value (first : Bool) {cs : List Char} (h : Derives .value cs)
    (rest : List Char) :
    nextElement first (lead first ++ (cs ++ rest)) = .ok (true, cs ++ rest) := by
  obtain ⟨d, ds, rfl, hblank, hclose, -⟩ := h.begins
  have hcomma : isBlank ',' = false := rfl
  cases first with
  | true => simp [nextElement, lead, skipBlanks_cons hblank]
  | false => simp [nextElement, lead, skipBlanks_cons hblank, skipBlanks_cons hcomma, hclose]

/-- The equation of the reader, without the bounds that show that it ends. -/
theorem elements_eq (r : Reader α) (first : Bool) (cs : List Char) :
    r.elements first cs = (nextElement first cs).bind fun
      | (false, rest) => .ok ([], rest)
      | (true, rest) => (r.read rest).bind fun p =>
          (r.elements false p.2).map fun q => (p.1 :: q.1, q.2) := by
  rw [elements]
  split
  · next h => simp only [h, Except.bind]
  · next h => simp only [h, Except.bind]
  · next h =>
    split
    · next hread => simp only [h, hread, Except.bind]
    · next hread => simp only [h, hread, Except.bind]

theorem elements_end (r : Reader α) {first : Bool} {cs rest : List Char}
    (h : nextElement first cs = .ok (false, rest)) : r.elements first cs = .ok ([], rest) := by
  simp only [elements_eq r first cs, h, Except.bind]

theorem elements_cons {r : Reader α} {first : Bool} {cs rest after : List Char} {x : α}
    (h : nextElement first cs = .ok (true, rest)) (hread : r.read rest = .ok (x, after)) :
    r.elements first cs = (r.elements false after).map fun p => (x :: p.1, p.2) := by
  simp only [elements_eq r first cs, h, hread, Except.bind]

/-- Elements are read up to the end of the list. -/
theorem elements_joined {r : Reader α} {vs : List Value} {xs : List α}
    (h : List.Forall₂ (fun v x => r.Reads v.written x) vs xs) (first : Bool) (rest : List Char) :
    r.elements first (joined first (vs.map Value.written) ++ ']' :: rest) =
      .ok (xs, ']' :: rest) := by
  induction h generalizing first with
  | nil => exact elements_end r (nextElement_end first rest)
  | @cons v x vs xs hv _ ih =>
      have hnext := nextElement_value first v.derives_written
        (joined false (vs.map Value.written) ++ ']' :: rest)
      have hread : r.read (v.written ++ (joined false (vs.map Value.written) ++ ']' :: rest)) =
          .ok (x, joined false (vs.map Value.written) ++ ']' :: rest) :=
        hv _ (numberEnds_joined _ .list rest)
      rw [List.map_cons, joined, List.append_assoc, List.append_assoc, elements_cons hnext hread,
        ih]
      rfl

theorem endList_close (rest : List Char) : endList (']' :: rest) = .ok rest := rfl

theorem reads_list {r : Reader α} {vs : List Value} {xs : List α}
    (h : List.Forall₂ (fun v x => r.Reads v.written x) vs xs) :
    r.list.Reads (Value.list vs).written xs := by
  intro rest _
  have happend : (Value.list vs).written ++ rest =
      '[' :: (joined true (vs.map Value.written) ++ ']' :: rest) := by
    rw [Value.written, writtenItems_eq]
    simp
  have hbracket : isBlank '[' = false := rfl
  simp only [list, happend, skipBlanks_cons hbracket, elements_joined h, bind, Except.bind,
    endList_close, pure, Except.pure]

/-! ### Dictionaries -/

theorem nextKey_end (first : Bool) (rest : List Char) :
    nextKey first ('\x7d' :: rest) = .ok (none, '\x7d' :: rest) := rfl

/-- Another member follows. -/
theorem nextKey_name (first : Bool) {front body name : List Char} (hfront : Blanks front)
    (h : Spells body name) (rest : List Char) :
    nextKey first (lead first ++ (front ++ '"' :: (body ++ '"' :: rest))) =
      .ok (some (String.ofList name), rest) := by
  have hcomma : isBlank ',' = false := rfl
  have hquote : isBlank '"' = false := rfl
  have hscan := scanString_append h rest
  cases first with
  | true =>
      simp [nextKey, lead, skipBlanks_append hfront, skipBlanks_cons hquote, hscan, Except.map]
  | false =>
      simp [nextKey, lead, skipBlanks_append hfront, skipBlanks_cons hquote,
        skipBlanks_cons hcomma, hscan, Except.map]

theorem Reads.afterColon {r : Reader α} {cs : List Char} {x : α} (h : r.Reads cs x)
    {back rest : List Char} (hback : Blanks back) (hrest : NumberEnds rest) :
    r.afterColon.read (back ++ ':' :: (cs ++ rest)) = .ok (x, rest) := by
  simp only [Reader.afterColon, scanColon_append hback, h rest hrest, bind, Except.bind]

theorem entries_eq (r : Reader α) (first : Bool) (cs : List Char) :
    r.entries first cs = (nextKey first cs).bind fun
      | (none, rest) => .ok ([], rest)
      | (some key, rest) => (r.afterColon.read rest).bind fun p =>
          (r.entries false p.2).map fun q => ((key, p.1) :: q.1, q.2) := by
  rw [entries]
  split
  · next h => simp only [h, Except.bind]
  · next h => simp only [h, Except.bind]
  · next h =>
    split
    · next hread => simp only [h, hread, Except.bind]
    · next hread => simp only [h, hread, Except.bind]

theorem entries_end (r : Reader α) {first : Bool} {cs rest : List Char}
    (h : nextKey first cs = .ok (none, rest)) : r.entries first cs = .ok ([], rest) := by
  simp only [entries_eq r first cs, h, Except.bind]

theorem entries_cons {r : Reader α} {first : Bool} {cs rest after : List Char} {key : String}
    {x : α} (h : nextKey first cs = .ok (some key, rest))
    (hread : r.afterColon.read rest = .ok (x, after)) :
    r.entries first cs = (r.entries false after).map fun p => ((key, x) :: p.1, p.2) := by
  simp only [entries_eq r first cs, h, hread, Except.bind]

/-- The key of a written member is found, and the colon after it. -/
theorem nextKey_writtenMember (first : Bool) (m : String × Value) (rest : List Char) :
    nextKey first (lead first ++ (writtenMember m ++ rest)) =
      .ok (some m.1, ':' :: (m.2.written ++ rest)) := by
  have hnext := nextKey_name first blanks_nil (spells_written m.1.toList)
    (':' :: (m.2.written ++ rest))
  have happend : writtenMember m ++ rest =
      [] ++ '"' :: (m.1.toList.flatMap writtenChar ++ '"' :: ':' :: (m.2.written ++ rest)) := by
    simp [writtenMember, writtenString]
  rw [happend, hnext, String.ofList_toList]

/-- Members are read up to the end of the object. -/
theorem entries_joined {r : Reader α} {ms : List (String × Value)} {xs : List (String × α)}
    (h : List.Forall₂ (fun m x => m.1 = x.1 ∧ r.Reads m.2.written x.2) ms xs) (first : Bool)
    (rest : List Char) :
    r.entries first (joined first (ms.map writtenMember) ++ '\x7d' :: rest) =
      .ok (xs, '\x7d' :: rest) := by
  induction h generalizing first with
  | nil => exact entries_end r (nextKey_end first rest)
  | @cons m x ms xs hm _ ih =>
      obtain ⟨hkey, hread⟩ := hm
      have hnext := nextKey_writtenMember first m
        (joined false (ms.map writtenMember) ++ '\x7d' :: rest)
      have hvalue : r.afterColon.read ([] ++ ':' :: (m.2.written ++
          (joined false (ms.map writtenMember) ++ '\x7d' :: rest))) =
            .ok (x.2, joined false (ms.map writtenMember) ++ '\x7d' :: rest) :=
        hread.afterColon blanks_nil (numberEnds_joined _ .object rest)
      rw [List.map_cons, joined, List.append_assoc, List.append_assoc, entries_cons hnext hvalue,
        ih, hkey]
      rfl

theorem written_object_append (ms : List (String × Value)) (rest : List Char) :
    (Value.object ms).written ++ rest =
      '\x7b' :: (joined true (ms.map writtenMember) ++ '\x7d' :: rest) := by
  rw [Value.written, writtenMembers_eq]
  simp

theorem endObject_close (rest : List Char) : endObject ('\x7d' :: rest) = .ok rest := rfl

/-- A dictionary is read back if its values are. -/
theorem reads_dictionary {r : Reader α} {d : Dictionary α} {f : α → Value}
    (h : ∀ e ∈ d.entries, r.Reads (f e.2).written e.2) :
    (dictionary r).Reads (Value.object (d.entries.map fun e => (e.1, f e.2))).written d := by
  have hentries : List.Forall₂ (fun m x => m.1 = x.1 ∧ r.Reads m.2.written x.2)
      (d.entries.map fun e => (e.1, f e.2)) d.entries := by
    rw [List.forall₂_map_left_iff, List.forall₂_same]
    exact fun e he => ⟨rfl, h e he⟩
  have hsorted : Dictionary.ofList d.entries = d := by
    obtain ⟨entries, hascending⟩ := d
    simp only [Dictionary.ofList, hascending.sorted_eq]
  have hbrace : isBlank '\x7b' = false := rfl
  intro rest _
  simp only [dictionary, written_object_append, skipBlanks_cons hbrace, entries_joined hentries,
    bind, Except.bind, endObject_close, pure, Except.pure, hsorted]

/-! ### Names -/

theorem reads_variant {known : List (String × α)} {s : String} {x : α}
    (h : known.lookup s = some x) : (variant known).Reads (writtenString s) x := by
  have hname : (name known).Reads (writtenString s) x :=
    (reads_text _ s).convert (by rw [h])
  have hquote : isBlank '"' = false := rfl
  intro rest hrest
  have hread := hname rest hrest
  rw [writtenString, List.cons_append, List.cons_append] at hread ⊢
  simp only [variant, skipBlanks_cons hquote]
  exact hread

/-! ### Whole texts -/

/-- A text is read as a whole if its value is. -/
theorem Reads.document {r : Reader α} {cs : List Char} {x : α} (h : r.Reads cs x) :
    r.document (String.ofList cs) = .ok x := by
  have hread := h [] fun _ hc => absurd hc (by simp)
  rw [List.append_nil] at hread
  rw [Reader.document, String.toList_ofList, hread]
  rfl

end Reader

end Switchboard.Json
