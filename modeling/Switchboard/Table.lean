set_option autoImplicit false

/-! # Tables

A finite map kept as a list of pairs. Two ways to write an entry are given: `Table.put` keeps the
order in which keys first arrived, `Table.putSorted` keeps text keys ascending. Reading takes the
first pair that has the key. A `Dictionary` is a table of text keys that is known to ascend.
-/

namespace Switchboard

/-- A finite map, as the list of its entries. -/
abbrev Table (κ ν : Type) := List (κ × ν)

namespace Table

variable {κ ν : Type}

/-- The value stored under a key. -/
def value? [DecidableEq κ] : Table κ ν → κ → Option ν
  | [], _ => none
  | (k, v) :: t, key => if k = key then some v else value? t key

/-- Stores a value under a key: in place if the key is there, at the end otherwise. -/
def put [DecidableEq κ] : Table κ ν → κ → ν → Table κ ν
  | [], key, x => [(key, x)]
  | (k, v) :: t, key, x => if k = key then (k, x) :: t else (k, v) :: put t key x

/-- Stores a value in a table whose keys ascend, in place or before the first larger key. -/
def putSorted (t : Table String ν) (key : String) (x : ν) : Table String ν :=
  match t with
  | [] => [(key, x)]
  | (k, v) :: t =>
    if k = key then (key, x) :: t
    else if key < k then (key, x) :: (k, v) :: t
    else (k, v) :: putSorted t key x

/-- The table with ascending keys that holds the pairs; of two with one key the later wins. -/
def sorted (pairs : List (String × ν)) : Table String ν :=
  pairs.foldl (fun t p => putSorted t p.1 p.2) []

/-- Keys that ascend strictly, so that none is repeated. -/
def Ascending (t : Table String ν) : Prop := t.Pairwise fun p q => p.1 < q.1

section Lemmas

variable [DecidableEq κ] (t : Table κ ν) (k key : κ) (v x : ν)

@[simp] theorem value?_nil : value? ([] : Table κ ν) key = none := rfl

theorem value?_cons : value? ((k, v) :: t) key = if k = key then some v else value? t key := rfl

@[simp] theorem value?_put_self : value? (put t key x) key = some x := by
  induction t with
  | nil => simp [put, value?]
  | cons p t ih =>
    obtain ⟨k, v⟩ := p
    by_cases h : k = key <;> simp [put, value?, h, ih]

theorem value?_put_of_ne {k key : κ} (h : key ≠ k) :
    value? (put t key x) k = value? t k := by
  induction t with
  | nil => simp [put, value?, h]
  | cons p t ih =>
    obtain ⟨k', v'⟩ := p
    by_cases h' : k' = key
    · simp [put, value?, h', h]
    · simp [put, value?, h', ih]

theorem value?_put (k key : κ) :
    value? (put t key x) k = if k = key then some x else value? t k := by
  split
  · next h => rw [h, value?_put_self]
  · next h => exact value?_put_of_ne t x (Ne.symm h)

/-- Storing what is already there changes nothing. -/
theorem put_eq_self_of_value? {t : Table κ ν} {key : κ} {x : ν}
    (h : value? t key = some x) : put t key x = t := by
  induction t with
  | nil => simp at h
  | cons p t ih =>
    obtain ⟨k, v⟩ := p
    by_cases hk : k = key
    · simp_all [put, value?]
    · simp_all [put, value?]

end Lemmas

/-! ## Tables without repeated keys -/

/-- No key is repeated, so that reading finds every entry. -/
def Distinct (t : Table κ ν) : Prop := (t.map (·.1)).Nodup

theorem Distinct.nil : Distinct ([] : Table κ ν) := List.nodup_nil

section Distinct

variable [DecidableEq κ]

theorem mem_of_value? {t : Table κ ν} {k : κ} {v : ν} (h : value? t k = some v) : (k, v) ∈ t := by
  induction t with
  | nil => simp at h
  | cons p t ih =>
    obtain ⟨k', v'⟩ := p
    rw [value?_cons] at h
    split at h
    · next e => simp_all
    · exact List.mem_cons_of_mem _ (ih h)

theorem Distinct.value?_eq_some_iff {t : Table κ ν} (h : Distinct t) {k : κ} {v : ν} :
    value? t k = some v ↔ (k, v) ∈ t := by
  refine ⟨mem_of_value?, fun hv => ?_⟩
  induction t with
  | nil => simp at hv
  | cons p t ih =>
    obtain ⟨k', v'⟩ := p
    obtain ⟨hk', ht⟩ := List.nodup_cons.1 h
    rw [value?_cons]
    rcases List.mem_cons.1 hv with e | hv
    · simp_all
    · have hne : k' ≠ k := by
        rintro rfl
        exact hk' (List.mem_map.2 ⟨_, hv, rfl⟩)
      rw [if_neg hne, ih ht hv]

theorem keys_put (t : Table κ ν) (key : κ) (x : ν) :
    (put t key x).map (·.1) = t.map (·.1) ∨
      key ∉ t.map (·.1) ∧ (put t key x).map (·.1) = t.map (·.1) ++ [key] := by
  induction t with
  | nil => simp [put]
  | cons p t ih =>
    obtain ⟨k, v⟩ := p
    by_cases h : k = key
    · simp [put, h]
    · rcases ih with e | ⟨hk, e⟩
      · simp [put, h, e]
      · refine Or.inr ⟨?_, by simp [put, h, e]⟩
        rw [List.map_cons, List.mem_cons]
        rintro (rfl | hk')
        · exact h rfl
        · exact hk hk'

theorem Distinct.put {t : Table κ ν} (h : Distinct t) (key : κ) (x : ν) :
    Distinct (Table.put t key x) := by
  rcases keys_put t key x with e | ⟨hk, e⟩
  · rw [Distinct, e]
    exact h
  · rw [Distinct, e]
    exact List.nodup_append.2 ⟨h, by simp, by grind⟩

end Distinct

section Ascending

variable {ν : Type}

theorem mem_putSorted {t : Table String ν} {key : String} {x : ν} {p : String × ν}
    (h : p ∈ putSorted t key x) : p = (key, x) ∨ p ∈ t := by
  induction t with
  | nil => simpa [putSorted] using h
  | cons q t ih =>
    simp only [putSorted] at h
    split at h
    · grind
    · split at h
      · grind
      · grind

theorem Ascending.putSorted {t : Table String ν} (h : Ascending t) (key : String) (x : ν) :
    Ascending (putSorted t key x) := by
  induction t with
  | nil => simp [Table.putSorted, Ascending]
  | cons q t ih =>
    obtain ⟨k, v⟩ := q
    have ht : Ascending t := (List.pairwise_cons.1 h).2
    have hk : ∀ p ∈ t, k < p.1 := (List.pairwise_cons.1 h).1
    simp only [Table.putSorted]
    split
    · next e => exact List.pairwise_cons.2 ⟨fun p hp => e ▸ hk p hp, ht⟩
    · next ne =>
      split
      · next lt =>
        refine List.pairwise_cons.2 ⟨fun p hp => ?_, h⟩
        rcases List.mem_cons.1 hp with rfl | hp
        · exact lt
        · exact String.lt_trans lt (hk p hp)
      · next nlt =>
        refine List.pairwise_cons.2 ⟨fun p hp => ?_, ih ht⟩
        rcases mem_putSorted hp with rfl | hp
        · grind
        · exact hk p hp

theorem ascending_sorted (pairs : List (String × ν)) : Ascending (sorted pairs) := by
  suffices h : ∀ t : Table String ν, Ascending t →
      Ascending (pairs.foldl (fun t p => Table.putSorted t p.1 p.2) t) from
    h [] List.Pairwise.nil
  induction pairs with
  | nil => exact fun _ h => h
  | cons p pairs ih => exact fun t h => ih _ (h.putSorted p.1 p.2)

theorem value?_eq_none_of_lt {t : Table String ν} {k : String} (h : ∀ p ∈ t, k < p.1) :
    value? t k = none := by
  induction t with
  | nil => rfl
  | cons p t ih =>
    obtain ⟨k', v⟩ := p
    have hlt : k < k' := h (k', v) (by simp)
    have hne : k' ≠ k := fun e => String.lt_irrefl k (e ▸ hlt)
    rw [value?_cons, if_neg hne]
    exact ih fun q hq => h q (List.mem_cons_of_mem _ hq)

theorem Ascending.distinct {t : Table String ν} (h : Ascending t) : Distinct t := by
  rw [Distinct, List.Nodup, List.pairwise_map]
  refine h.imp ?_
  intro p q hlt heq
  exact String.lt_irrefl p.1 (heq ▸ hlt)

/-- A table with ascending keys is known from what it holds. -/
theorem Ascending.ext {t t' : Table String ν} (h : Ascending t) (h' : Ascending t')
    (hv : ∀ k, value? t k = value? t' k) : t = t' := by
  induction t generalizing t' with
  | nil =>
    cases t' with
    | nil => rfl
    | cons p t' => simpa [value?] using hv p.1
  | cons p t ih =>
    cases t' with
    | nil => simpa [value?] using hv p.1
    | cons p' t' =>
      obtain ⟨k, v⟩ := p
      obtain ⟨k', v'⟩ := p'
      obtain ⟨hk, ht⟩ := List.pairwise_cons.1 h
      obtain ⟨hk', ht'⟩ := List.pairwise_cons.1 h'
      -- the smaller of the two first keys would be missing from the other table
      have hle : ¬ k < k' := by
        intro hlt
        have hnone := value?_eq_none_of_lt (t := (k', v') :: t') (k := k) fun q hq => by
          rcases List.mem_cons.1 hq with rfl | hq
          · exact hlt
          · exact String.lt_trans hlt (hk' q hq)
        rw [← hv k] at hnone
        simp [value?] at hnone
      have hge : ¬ k' < k := by
        intro hlt
        have hnone := value?_eq_none_of_lt (t := (k, v) :: t) (k := k') fun q hq => by
          rcases List.mem_cons.1 hq with rfl | hq
          · exact hlt
          · exact String.lt_trans hlt (hk q hq)
        rw [hv k'] at hnone
        simp [value?] at hnone
      obtain rfl : k = k' := String.le_antisymm (String.not_lt.1 hge) (String.not_lt.1 hle)
      have hvv : v = v' := by simpa [value?] using hv k
      rw [hvv, ih ht ht' fun x => ?_]
      by_cases hx : k = x
      · rw [← hx, value?_eq_none_of_lt hk, value?_eq_none_of_lt hk']
      · simpa [value?, hx] using hv x

theorem value?_putSorted (t : Table String ν) (key : String) (x : ν) (k : String) :
    value? (putSorted t key x) k = if k = key then some x else value? t k := by
  induction t with
  | nil => simp [putSorted, value?, eq_comm]
  | cons p t ih =>
    obtain ⟨k', v⟩ := p
    simp only [putSorted]
    split
    · next e => grind [value?]
    · next ne =>
      split
      · grind [value?]
      · rw [value?_cons, ih, value?_cons]
        grind

/-- A table made of pairs holds for each key the value of the last pair that has it. -/
theorem value?_sorted (pairs : List (String × ν)) (k : String) :
    value? (sorted pairs) k = List.lookup k pairs.reverse := by
  suffices h : ∀ t : Table String ν,
      value? (pairs.foldl (fun t p => Table.putSorted t p.1 p.2) t) k =
        (List.lookup k pairs.reverse).or (value? t k) by
    simpa [sorted] using h []
  induction pairs with
  | nil => simp
  | cons p pairs ih =>
    intro t
    obtain ⟨k', v⟩ := p
    rw [List.foldl_cons, ih, value?_putSorted, List.reverse_cons, List.lookup_append]
    by_cases h : k = k'
    · cases List.lookup k pairs.reverse <;> simp [h]
    · have hb : (k == k') = false := by simpa using h
      cases List.lookup k pairs.reverse <;> simp [List.lookup_cons, h, hb]

/-- A pair whose key is larger than all others goes to the end. -/
theorem putSorted_of_lt {t : Table String ν} {key : String} (h : ∀ p ∈ t, p.1 < key) (x : ν) :
    putSorted t key x = t ++ [(key, x)] := by
  induction t with
  | nil => rfl
  | cons p t ih =>
    obtain ⟨hp, ht⟩ := List.forall_mem_cons.1 h
    have hne : p.1 ≠ key := fun e => String.lt_irrefl key (e ▸ hp)
    have hnot : ¬ key < p.1 := fun hlt => String.lt_irrefl key (String.lt_trans hlt hp)
    rw [putSorted, if_neg hne, if_neg hnot, ih ht, List.cons_append]

/-- Keys that ascend are kept in their order. -/
theorem Ascending.sorted_eq {t : Table String ν} (h : Ascending t) : sorted t = t := by
  suffices hfold : ∀ front : Table String ν, Ascending (front ++ t) →
      t.foldl (fun t p => Table.putSorted t p.1 p.2) front = front ++ t from hfold [] h
  clear h
  induction t with
  | nil => exact fun front _ => (List.append_nil front).symm
  | cons p t ih =>
    intro front hfront
    have hlt : ∀ q ∈ front, q.1 < p.1 :=
      fun q hq => (List.pairwise_append.1 hfront).2.2 q hq p List.mem_cons_self
    have hsplit : front ++ p :: t = (front ++ [p]) ++ t := by simp
    rw [List.foldl_cons, putSorted_of_lt hlt, hsplit, ih _ (hsplit ▸ hfront)]

end Ascending

end Table

/-- A table of text keys, kept ascending. -/
structure Dictionary (ν : Type) where
  entries : Table String ν
  ascending : entries.Ascending
deriving DecidableEq

namespace Dictionary

variable {ν : Type}

/-- The dictionary of the pairs; of two with one key the later wins. -/
def ofList (pairs : List (String × ν)) : Dictionary ν :=
  ⟨Table.sorted pairs, Table.ascending_sorted pairs⟩

def empty : Dictionary ν := ⟨[], List.Pairwise.nil⟩

/-- Stores a value under a key. -/
def insert (d : Dictionary ν) (key : String) (x : ν) : Dictionary ν :=
  ⟨d.entries.putSorted key x, d.ascending.putSorted key x⟩

/-- The value stored under a key. -/
def value? (d : Dictionary ν) (key : String) : Option ν := d.entries.value? key

/-- The keys, ascending. -/
def keys (d : Dictionary ν) : List String := d.entries.map (·.1)

end Dictionary

end Switchboard
