import Switchboard.Proofs.Routing.Slots

set_option autoImplicit false

/-! # What a router answers

A router holds a list of entries when its slots are filled by exactly these entries
(`Router.Holds`). Adding a pattern puts one entry at the end or changes nothing, and a router that
holds entries answers as they resolve (`Router.Holds.resolves`). From this follows the answer of
every router that was filled by `add`: `find_run` compares it with the best of the patterns that
were taken.
-/

namespace Switchboard

variable {H : Type}

/-! ## Methods in order -/

theorem Method.name_injective {a b : Method} (h : a.name = b.name) : a = b := by
  cases a
  cases b
  exact congrArg Method.mk h

theorem Method.mem_sortByName {ms : List Method} {m : Method} : m ∈ sortByName ms ↔ m ∈ ms :=
  List.mem_mergeSort

theorem Method.sortByName_ascending {ms : List Method} (h : ms.Nodup) :
    (sortByName ms).Pairwise fun a b => a.name < b.name := by
  have hle : (sortByName ms).Pairwise fun a b => a.name ≤ b.name := by
    refine (List.pairwise_mergeSort ?_ ?_ ms).imp of_decide_eq_true
    · intro a b c hab hbc
      exact decide_eq_true (String.le_trans (of_decide_eq_true hab) (of_decide_eq_true hbc))
    · intro a b
      rcases String.le_total a.name b.name with hab | hba
      · simp [hab]
      · simp [hba]
  have hne : (sortByName ms).Nodup := (List.mergeSort_perm ms _).nodup_iff.2 h
  refine hle.imp₂ ?_ hne
  intro a b hab hne
  rcases Decidable.em (a.name < b.name) with hlt | hnlt
  · exact hlt
  · exact absurd (name_injective (String.le_antisymm hab (String.not_lt.1 hnlt))) hne

namespace Router

/-- The value that a pattern has for a method. -/
def slot? (r : Router H) (method : Method) (p : Pattern) : Option H :=
  (Table.value? r.trees method).bind (Tree.slot? p)

/-! ## Adding a pattern -/

section Add

variable {r : Router H} {method : Method} {path : String} {value : H}

/-- The tree of a method, empty if it has no routes yet. -/
def tree (r : Router H) (method : Method) : Tree H := (Table.value? r.trees method).getD Tree.empty

theorem slot?_tree (r : Router H) (method : Method) (p : Pattern) :
    (r.tree method).slot? p = r.slot? method p := by
  rw [tree, slot?]
  cases Table.value? r.trees method with
  | none => simp
  | some t => rfl

theorem add_of_parse_error {cause : PatternError} (h : Pattern.parse path = .error cause) :
    r.add method path value = (r, .error (.malformed path cause)) := by
  rw [add, h]

theorem add_of_insert_error {p : Pattern} {cause : Conflict} (hp : Pattern.parse path = .ok p)
    (h : ((r.tree method).insert value p).2 = .error cause) :
    r.add method path value =
      ({ r with trees := Table.put r.trees method ((r.tree method).insert value p).1 },
        .error (.conflict method p cause)) := by
  rw [tree] at h
  simp only [add, hp, tree, h]

theorem add_of_insert_ok {p : Pattern} (hp : Pattern.parse path = .ok p)
    (h : ((r.tree method).insert value p).2 = .ok ()) :
    r.add method path value =
      ({ trees := Table.put r.trees method ((r.tree method).insert value p).1, size := r.size + 1 },
        .ok ()) := by
  rw [tree] at h
  simp only [add, hp, tree, h]

/-- A refused pattern leaves the router as it was. -/
theorem add_eq_self_of_error {cause : AddError} (h : (r.add method path value).2 = .error cause) :
    (r.add method path value).1 = r := by
  cases hp : Pattern.parse path with
  | error e => rw [add_of_parse_error hp]
  | ok p =>
      cases hi : ((r.tree method).insert value p).2 with
      | ok u => rw [add_of_insert_ok hp hi] at h; cases h
      | error e =>
          rw [add_of_insert_error hp hi, Tree.insert_eq_self_of_error hi]
          -- a method without a tree has nothing to conflict with
          cases ht : Table.value? r.trees method with
          | none =>
              rw [tree, ht, Option.getD_none, Tree.insert_empty] at hi
              cases hi
          | some t => rw [tree, ht, Option.getD_some, Table.put_eq_self_of_value? ht]

/-- An accepted pattern can be read. -/
theorem parse_of_add_ok (h : (r.add method path value).2 = .ok ()) :
    ∃ p, Pattern.parse path = .ok p ∧ ((r.tree method).insert value p).2 = .ok () := by
  cases hp : Pattern.parse path with
  | error e => rw [add_of_parse_error hp] at h; cases h
  | ok p =>
      cases hi : ((r.tree method).insert value p).2 with
      | ok u => exact ⟨p, rfl, hi⟩
      | error e => rw [add_of_insert_error hp hi] at h; cases h

end Add

/-! ## The entries of a router -/

/-- The slots of the router are filled by the entries. -/
structure Holds (r : Router H) (entries : List (Entry H)) : Prop where
  slot : ∀ method p h, r.slot? method p = some h ↔ ⟨method, p, h⟩ ∈ entries
  distinct : r.trees.Distinct

theorem holds_empty : (empty : Router H).Holds [] :=
  ⟨fun _ _ _ => by simp [slot?, empty], Table.Distinct.nil⟩

/-- Adding a pattern puts its entry at the end. -/
theorem Holds.add {r : Router H} {entries : List (Entry H)} (hr : r.Holds entries)
    {method : Method} {path : String} {value : H} {p : Pattern} (hp : Pattern.parse path = .ok p)
    (h : (r.add method path value).2 = .ok ()) :
    (r.add method path value).1.Holds (entries ++ [⟨method, p, value⟩]) := by
  obtain ⟨p', hp', hi⟩ := parse_of_add_ok h
  obtain rfl : p = p' := by rw [hp] at hp'; exact Except.ok.inj hp'
  have hlast := Pattern.wildcardLast_of_parse hp
  rw [add_of_insert_ok hp hi]
  refine ⟨fun m q v => ?_, hr.distinct.put _ _⟩
  rw [slot?, Table.value?_put, List.mem_append, List.mem_singleton]
  by_cases hm : m = method
  · subst hm
    rw [if_pos rfl, Option.bind_some, Tree.slot?_insert hlast hi, slot?_tree]
    by_cases hq : q = p
    · subst hq
      -- the slot was empty, so no earlier entry has this pattern
      have hnone : r.slot? m q = none := slot?_tree r m q ▸ Tree.slot?_of_insert_ok hlast hi
      rw [if_pos rfl, ← hr.slot, hnone]
      simp [eq_comm]
    · rw [if_neg hq, hr.slot]
      simp [hq]
  · rw [if_neg hm, ← hr.slot, slot?]
    simp [hm]

/-- An entry of the list that fits is found unless a better one is. -/
theorem Holds.best {r : Router H} {entries : List (Entry H)} (hr : r.Holds entries)
    {method : Method} {path : String} {h : H} {bs : List (String × String)}
    (hf : (Table.value? r.trees method).bind (·.find? path (segments path)) = some (h, bs)) :
    ∃ p : Pattern, Best entries method path ⟨method, p, h⟩ ∧ p.captures path = bs := by
  obtain ⟨t, ht, hf⟩ := Option.bind_eq_some_iff.1 hf
  obtain ⟨p, hslot, hm, hb, hbest⟩ := Tree.find?_eq_some hf
  rw [map_text_segments] at hm
  have hmem : ∀ q v, t.slot? q = some v ↔ (⟨method, q, v⟩ : Entry H) ∈ entries := by
    intro q v
    rw [← hr.slot, slot?, ht, Option.bind_some]
  refine ⟨p, ⟨(hmem p h).1 hslot, ⟨rfl, hm⟩, ?_⟩, by rw [← hb, Pattern.bindings_segments hm]⟩
  rintro ⟨_, q, v⟩ ho ⟨rfl, hq⟩ hne
  have hv : t.slot? q = some v := (hmem q v).2 ho
  refine hbest q (by rwa [map_text_segments]) (by simp [hv]) ?_
  rintro rfl
  exact hne (by rw [Option.some.inj (hv.symm.trans hslot)])

/-- The search fails for a method exactly if none of the entries fits. -/
theorem Holds.find?_eq_none_iff {r : Router H} {entries : List (Entry H)} (hr : r.Holds entries)
    (method : Method) (path : String) :
    (Table.value? r.trees method).bind (·.find? path (segments path)) = none ↔
      ∀ e ∈ entries, ¬ e.Fits method path := by
  rw [Option.bind_eq_none_iff]
  constructor
  · rintro h ⟨_, p, v⟩ he ⟨rfl, hm⟩
    rw [← hr.slot, slot?] at he
    obtain ⟨t, ht, hslot⟩ := Option.bind_eq_some_iff.1 he
    have hnone := (Tree.find?_eq_none_iff _ t).1 (h t ht) p (by rwa [map_text_segments])
    rw [hnone] at hslot
    cases hslot
  · intro h t ht
    rw [Tree.find?_eq_none_iff]
    intro p hm
    rw [map_text_segments] at hm
    cases hs : t.slot? p with
    | none => rfl
    | some v =>
        have he : (⟨method, p, v⟩ : Entry H) ∈ entries := by
          rw [← hr.slot, slot?, ht]
          exact hs
        exact absurd ⟨rfl, hm⟩ (h _ he)

theorem Holds.mem_allowedMethods {r : Router H} {entries : List (Entry H)} (hr : r.Holds entries)
    {method m : Method} {path : String} :
    m ∈ r.allowedMethods method path ↔ m ≠ method ∧ ∃ e ∈ entries, e.Fits m path := by
  rw [allowedMethods, Method.mem_sortByName, List.mem_map]
  have hiff := hr.find?_eq_none_iff m path
  constructor
  · rintro ⟨⟨m, t⟩, ht, rfl⟩
    rw [List.mem_filter] at ht
    obtain ⟨hmem, hcond⟩ := ht
    rw [Bool.and_eq_true, decide_eq_true_eq] at hcond
    refine ⟨hcond.1, ?_⟩
    by_contra hno
    have hnone := hiff.2 fun e he hfits => hno ⟨e, he, hfits⟩
    rw [hr.distinct.value?_eq_some_iff.2 hmem, Option.bind_some] at hnone
    rw [hnone] at hcond
    cases hcond.2
  · rintro ⟨hne, e, he, hfits⟩
    cases ht : Table.value? r.trees m with
    | none =>
        have hnone : (Table.value? r.trees m).bind (·.find? path (segments path)) = none := by
          rw [ht]
          rfl
        exact absurd hfits (hiff.1 hnone e he)
    | some t =>
        refine ⟨(m, t), List.mem_filter.2 ⟨Table.mem_of_value? ht, ?_⟩, rfl⟩
        rw [Bool.and_eq_true, decide_eq_true_eq]
        refine ⟨hne, ?_⟩
        rw [Option.isSome_iff_ne_none]
        intro hnone
        exact hiff.1 (by rw [ht]; exact hnone) e he hfits

theorem Holds.allowedMethods_ascending {r : Router H} {entries : List (Entry H)}
    (hr : r.Holds entries) (method : Method) (path : String) :
    (r.allowedMethods method path).Pairwise fun a b => a.name < b.name := by
  refine Method.sortByName_ascending ?_
  exact hr.distinct.sublist (List.filter_sublist.map _)

/-- A router answers as its entries resolve. -/
theorem Holds.resolves {r : Router H} {entries : List (Entry H)} (hr : r.Holds entries)
    (method : Method) (path : String) : Resolves entries method path (r.find method path) := by
  rw [find]
  cases hf : (Table.value? r.trees method).bind (·.find? path (segments path)) with
  | some found =>
      obtain ⟨h, bs⟩ := found
      obtain ⟨p, hbest, rfl⟩ := hr.best hf
      exact .found hbest (binds_sorted _)
  | none =>
      have hno := (hr.find?_eq_none_iff method path).1 hf
      cases ha : r.allowedMethods method path with
      | nil =>
          refine .notFound fun m e he hfits => ?_
          by_cases hm : m = method
          · exact hno e he (hm ▸ hfits)
          · have hallowed := hr.mem_allowedMethods.2 ⟨hm, e, he, hfits⟩
            rw [ha] at hallowed
            cases hallowed
      | cons a rest =>
          refine .methodNotAllowed hno (by simp) ?_ fun m => ?_
          · rw [← ha]
            exact hr.allowedMethods_ascending method path
          · rw [← ha, hr.mem_allowedMethods]
            constructor
            · exact And.right
            · rintro ⟨e, he, hfits⟩
              exact ⟨fun hm => hno e he (hm ▸ hfits), e, he, hfits⟩

end Router

/-! ## Routers that are filled by adding -/

/-- What is asked for when a pattern is added. -/
structure Registration (H : Type) where
  method : Method
  path : String
  value : H

namespace Router

/-- Adds patterns one after another. One that is refused does not keep the others out. -/
def run (r : Router H) (l : List (Registration H)) : Router H :=
  l.foldl (fun r g => (r.add g.method g.path g.value).1) r

/-- The entries of those patterns that are accepted on the way. -/
def taken (r : Router H) : List (Registration H) → List (Entry H)
  | [] => []
  | g :: l =>
    let next := r.add g.method g.path g.value
    match next.2, Pattern.parse g.path with
    | .ok (), .ok p => ⟨g.method, p, g.value⟩ :: taken next.1 l
    | _, _ => taken next.1 l

theorem Holds.run {r : Router H} {entries : List (Entry H)} (hr : r.Holds entries)
    (l : List (Registration H)) : (r.run l).Holds (entries ++ r.taken l) := by
  induction l generalizing r entries with
  | nil => simpa [Router.run, taken] using hr
  | cons g l ih =>
      rw [Router.run, List.foldl_cons, ← Router.run, taken]
      cases h : (r.add g.method g.path g.value).2 with
      | error cause =>
          rw [add_eq_self_of_error h]
          exact ih hr
      | ok u =>
          obtain ⟨p, hp, -⟩ := parse_of_add_ok h
          have hrest := ih (hr.add hp h)
          rw [List.append_assoc, List.singleton_append] at hrest
          simpa only [hp] using hrest

theorem holds_run (l : List (Registration H)) :
    ((empty : Router H).run l).Holds ((empty : Router H).taken l) := by
  have h := (holds_empty (H := H)).run l
  rwa [List.nil_append] at h

/-- A router that was filled by adding finds something exactly if a pattern that was accepted for
the method matches the path. It finds the value of the best such pattern, of which there is only
one, with what that pattern captures. -/
theorem find_run (l : List (Registration H)) (method : Method) (path : String) :
    let entries := (empty : Router H).taken l
    let answer := ((empty : Router H).run l).find method path
    ((∃ h params, answer = .found h params) ↔ ∃ e ∈ entries, e.Fits method path) ∧
    ∀ h params, answer = .found h params ↔
      ∃ e, (Best entries method path e ∧ ∀ o, Best entries method path o → o = e) ∧
        e.value = h ∧ Binds params (e.pattern.captures path) := by
  intro entries answer
  have hres : Resolves entries method path answer := by
    have hr := (holds_empty (H := H)).run l
    rw [List.nil_append] at hr
    exact hr.resolves method path
  constructor
  · constructor
    · rintro ⟨h, params, ha⟩
      rw [ha] at hres
      cases hres with
      | found he _ => exact ⟨_, he.mem, he.fits⟩
    · rintro ⟨e, he, hfits⟩
      generalize answer = a at hres
      cases hres with
      | found _ _ => exact ⟨_, _, rfl⟩
      | methodNotAllowed hno => exact absurd hfits (hno e he)
      | notFound hno => exact absurd hfits (hno method e he)
  · intro h params
    constructor
    · intro ha
      rw [ha] at hres
      cases hres with
      | found he hps => exact ⟨_, ⟨he, fun o ho => he.unique ho⟩, rfl, hps⟩
    · rintro ⟨e, ⟨he, -⟩, rfl, hps⟩
      exact hres.unique (.found he hps) ▸ rfl

end Router

end Switchboard
