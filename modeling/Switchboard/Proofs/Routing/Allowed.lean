import Switchboard.Proofs.Routing.Resolution

set_option autoImplicit false

/-! # The methods of a path

A path that is not found for one method may be found for others. The list that a router then gives
is known from the answers for these other methods alone (`Router.methods_of_path`): it holds exactly
the methods for which the path is found, so it is the same list for every method for which it is
not. Nor does it depend on the order in which a router keeps its trees, since the order of the
trees has no part in which entries a router holds (`Router.Holds.perm`).
-/

namespace Switchboard

variable {H : Type}

/-- The path was found. -/
def Match.isFound : Match H → Bool
  | .found _ _ => true
  | .methodNotAllowed _ | .notFound => false

/-- A path is found if some entry fits. -/
theorem Resolves.isFound_iff {entries : List (Entry H)} {method : Method} {path : String}
    {a : Match H} (h : Resolves entries method path a) :
    a.isFound ↔ ∃ e ∈ entries, e.Fits method path := by
  cases h with
  | found he _ => exact iff_of_true rfl ⟨_, he.mem, he.fits⟩
  | methodNotAllowed hno =>
      refine iff_of_false Bool.false_ne_true ?_
      rintro ⟨e, he, hfits⟩
      exact hno e he hfits
  | notFound hno =>
      refine iff_of_false Bool.false_ne_true ?_
      rintro ⟨e, he, hfits⟩
      exact hno method e he hfits

/-! ## Answers by which methods are found -/

section Answers

variable {entries : List (Entry H)} {path : String} {answer : Method → Match H}

/-- When the answer to a method is a list of other methods. -/
theorem eq_methodNotAllowed_iff (h : ∀ m, Resolves entries m path (answer m)) (method : Method)
    (allowed : List Method) :
    answer method = .methodNotAllowed allowed ↔
      ¬ (answer method).isFound ∧ allowed ≠ [] ∧
        allowed.Pairwise (fun a b => a.name < b.name) ∧ ∀ m, m ∈ allowed ↔ (answer m).isFound := by
  constructor
  · intro ha
    have hres := h method
    rw [ha] at hres
    cases hres with
    | methodNotAllowed hno hne hsorted hmem =>
        refine ⟨by rw [ha]; exact Bool.false_ne_true, hne, hsorted, fun m => ?_⟩
        rw [hmem, (h m).isFound_iff]
  · rintro ⟨hno, hne, hsorted, hmem⟩
    -- a list with these properties is an answer, and there is only one
    refine (Resolves.methodNotAllowed ?_ hne hsorted fun m => ?_).unique (h method)
    · intro e he hfits
      exact hno ((h method).isFound_iff.2 ⟨e, he, hfits⟩)
    · rw [hmem, (h m).isFound_iff]

theorem eq_notFound_iff (h : ∀ m, Resolves entries m path (answer m)) (method : Method) :
    answer method = .notFound ↔ ∀ m, ¬ (answer m).isFound := by
  constructor
  · intro ha m hm
    have hres := h method
    rw [ha] at hres
    cases hres with
    | notFound hno =>
        obtain ⟨e, he, hfits⟩ := (h m).isFound_iff.1 hm
        exact hno m e he hfits
  · intro hno
    refine (Resolves.notFound fun m e he hfits => ?_).unique (h method)
    exact hno m ((h m).isFound_iff.2 ⟨e, he, hfits⟩)

/-- The answer to a method for which the path is not found says nothing about this method. -/
theorem eq_of_not_isFound (h : ∀ m, Resolves entries m path (answer m)) {method other : Method}
    (hmethod : ¬ (answer method).isFound) (hother : ¬ (answer other).isFound) :
    answer other = answer method := by
  cases ha : answer method with
  | found value params =>
      rw [ha] at hmethod
      exact absurd rfl hmethod
  | methodNotAllowed allowed =>
      obtain ⟨-, hlist⟩ := (eq_methodNotAllowed_iff h method allowed).1 ha
      exact (eq_methodNotAllowed_iff h other allowed).2 ⟨hother, hlist⟩
  | notFound => exact (eq_notFound_iff h other).2 ((eq_notFound_iff h method).1 ha)

end Answers

namespace Router

/-- The order of the trees has no part in which entries a router holds. -/
theorem Holds.perm {r r' : Router H} {entries : List (Entry H)} (hr : r.Holds entries)
    (hperm : r'.trees.Perm r.trees) : r'.Holds entries := by
  have hkeys : (r'.trees.map (·.1)).Perm (r.trees.map (·.1)) := hperm.map _
  have hdistinct : r'.trees.Distinct := hkeys.nodup_iff.2 hr.distinct
  refine ⟨fun method p v => ?_, hdistinct⟩
  have hvalue : Table.value? r'.trees method = Table.value? r.trees method := by
    refine Option.ext fun t => ?_
    rw [hdistinct.value?_eq_some_iff, hr.distinct.value?_eq_some_iff]
    exact hperm.mem_iff
  rw [← hr.slot, slot?, slot?, hvalue]

/-- Of a router that was filled by adding, the answers to one path for all methods. The answer to a
method is a list of methods exactly if the path is not found for this method and the list holds, in
ascending order of their names and each once, the methods for which it is found, at least one. No
answer at all says that it is found for no method. So the method that was asked for is not in the
list, every method of the list finds the path, all methods that do not find it get the same
answer, and a router that keeps its trees in another order gives the same answers. -/
theorem methods_of_path (l : List (Registration H)) (path : String) :
    let answer := fun method => ((empty : Router H).run l).find method path
    (∀ method allowed, answer method = .methodNotAllowed allowed ↔
      ¬ (answer method).isFound ∧ allowed ≠ [] ∧
        allowed.Pairwise (fun a b => a.name < b.name) ∧ ∀ m, m ∈ allowed ↔ (answer m).isFound) ∧
    (∀ method, answer method = .notFound ↔ ∀ m, ¬ (answer m).isFound) ∧
    (∀ method allowed, answer method = .methodNotAllowed allowed →
      method ∉ allowed ∧ ∀ m ∈ allowed, (answer m).isFound) ∧
    (∀ method other, ¬ (answer method).isFound → ¬ (answer other).isFound →
      answer other = answer method) ∧
    ∀ r' : Router H, r'.trees.Perm ((empty : Router H).run l).trees →
      ∀ method, r'.find method path = answer method := by
  intro answer
  have hholds : ((empty : Router H).run l).Holds ((empty : Router H).taken l) := by
    have h := (holds_empty (H := H)).run l
    rwa [List.nil_append] at h
  have hres : ∀ m, Resolves ((empty : Router H).taken l) m path (answer m) :=
    fun m => hholds.resolves m path
  have hlist := eq_methodNotAllowed_iff hres
  refine ⟨hlist, eq_notFound_iff hres, fun method allowed ha => ?_, ?_, fun r' hperm method => ?_⟩
  · obtain ⟨hno, -, -, hmem⟩ := (hlist method allowed).1 ha
    exact ⟨fun h => hno ((hmem method).1 h), fun m hm => (hmem m).1 hm⟩
  · intro method other hmethod hother
    exact eq_of_not_isFound hres hmethod hother
  · exact (hres method).unique ((hholds.perm hperm).resolves method path)

-- Two methods of one path, and what a third is answered.
example :
    ((empty : Router Nat).run [⟨.put, "/a/:id", 1⟩, ⟨.get, "/a/*", 2⟩, ⟨.post, "/a", 3⟩]).find
      .patch "/a/1" = .methodNotAllowed [.get, .put] := by
  cbv

end Router

end Switchboard
