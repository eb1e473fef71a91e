import Mathlib.Data.List.Sort
import Switchboard.Proofs.Routing.RawText
import Switchboard.Routing.Router

set_option autoImplicit false

/-! # Patterns against one path

What it means, without any tree, that a pattern matches a path (`Pattern.Matches`), what it
captures there (`Pattern.captures`), and which of two patterns is the better match
(`Pattern.Outranks`). A list of entries then determines the answer to every method and path:
`Resolves` relates them, and `Resolves.unique` says that there is at most one answer.
-/

namespace Switchboard

/-- Fixed text comes before a parameter, and a parameter before a wildcard. -/
def Part.rank : Part → Nat
  | .fixed _ => 2
  | .param _ => 1
  | .wildcard => 0

namespace Pattern

/-- A pattern takes the segments of a path. Fixed text takes a segment that equals it, a parameter
takes any one segment, and a wildcard at the end takes all that remain, also none. -/
inductive Matches : Pattern → List String → Prop
  | nil : Matches [] []
  | fixed {text : String} {p : Pattern} {segs : List String} :
      Matches p segs → Matches (.fixed text :: p) (text :: segs)
  | param {name s : String} {p : Pattern} {segs : List String} :
      Matches p segs → Matches (.param name :: p) (s :: segs)
  | wildcard {segs : List String} : Matches [.wildcard] segs

/-- The first pattern is the better match: at the first place where they differ it has the part of
higher rank, or it ends there and the other one has a wildcard left. -/
inductive Outranks : Pattern → Pattern → Prop
  | head {a b : Part} {p q : Pattern} : b.rank < a.rank → Outranks (a :: p) (b :: q)
  | tail {a : Part} {p q : Pattern} : Outranks p q → Outranks (a :: p) (a :: q)
  | ends : Outranks [] [.wildcard]

theorem Outranks.asymm {p q : Pattern} (h : p.Outranks q) : ¬ q.Outranks p := by
  induction h with
  | head h =>
      rintro (h' | h')
      · exact Nat.lt_asymm h h'
      · exact Nat.lt_irrefl _ h
  | tail _ ih =>
      rintro (h' | h')
      · exact Nat.lt_irrefl _ h'
      · exact ih h'
  | ends => rintro ⟨⟩

/-- What the part at place `i` of a pattern captures: a parameter the segment with that index, and
a wildcard the raw text from there on, both percent-decoded. -/
def capture? (path : String) (i : Nat) : Part → Option (String × String)
  | .fixed _ => none
  | .param name => some (name, Text.Percent.decode ((pathPieces path)[i]?.getD ""))
  | .wildcard => some (wildcardName, Text.Percent.decode (rawTail path i))

/-- What the parts of a pattern capture from a path, in order. -/
def captures (path : String) (p : Pattern) : List (String × String) :=
  p.zipIdx.filterMap fun part => capture? path part.2 part.1

theorem captures_append_wildcard (path : String) (front : Pattern) :
    captures path (front ++ [.wildcard]) = captures path front ++
      [(wildcardName, Text.Percent.decode (rawTail path front.length))] := by
  simp [captures, List.zipIdx_append, capture?]

end Pattern

/-! ## Answers of a list of entries -/

/-- A pattern with its method and the value it stands for. -/
structure Entry (H : Type) where
  method : Method
  pattern : Pattern
  value : H

variable {H : Type}

/-- The pattern of an entry for the method matches the path. -/
def Entry.Fits (e : Entry H) (method : Method) (path : String) : Prop :=
  e.method = method ∧ e.pattern.Matches (pathPieces path)

/-- The best of the entries that fit: it outranks all others. -/
structure Best (entries : List (Entry H)) (method : Method) (path : String) (e : Entry H) :
    Prop where
  mem : e ∈ entries
  fits : e.Fits method path
  outranks : ∀ o ∈ entries, o.Fits method path → o ≠ e → e.pattern.Outranks o.pattern

theorem Best.unique {entries : List (Entry H)} {method : Method} {path : String} {e o : Entry H}
    (he : Best entries method path e) (ho : Best entries method path o) : o = e := by
  by_contra hne
  exact (he.outranks o ho.mem ho.fits hne).asymm (ho.outranks e he.mem he.fits (Ne.symm hne))

/-- The parameters hold what was captured; of two captures with one name the later counts. -/
structure Binds (params : Params) (captures : List (String × String)) : Prop where
  ascending : Table.Ascending params
  value : ∀ name, Table.value? params name = List.lookup name captures.reverse

theorem binds_sorted (captures : List (String × String)) :
    Binds (Table.sorted captures) captures :=
  ⟨Table.ascending_sorted captures, Table.value?_sorted captures⟩

theorem Binds.unique {params params' : Params} {captures : List (String × String)}
    (h : Binds params captures) (h' : Binds params' captures) : params' = params :=
  h'.ascending.ext h.ascending fun name => (h'.value name).trans (h.value name).symm

/-- A capture at the end counts before all others. -/
theorem Binds.value?_of_concat {params : Params} {front : List (String × String)}
    {name value : String} (h : Binds params (front ++ [(name, value)])) (key : String) :
    Table.value? params key = if key = name then some value else List.lookup key front.reverse := by
  rw [h.value, List.reverse_append, List.reverse_singleton, List.singleton_append, List.lookup_cons]
  by_cases hkey : key = name
  · simp [hkey]
  · have hne : (key == name) = false := by simpa using hkey
    rw [hne, if_neg hkey]

/-- The answer that a list of entries gives to a method and a path. -/
inductive Resolves (entries : List (Entry H)) (method : Method) (path : String) : Match H → Prop
  | found {e : Entry H} {params : Params} : Best entries method path e →
      Binds params (e.pattern.captures path) → Resolves entries method path (.found e.value params)
  | methodNotAllowed {allowed : List Method} : (∀ e ∈ entries, ¬ e.Fits method path) →
      allowed ≠ [] → allowed.Pairwise (fun a b => a.name < b.name) →
      (∀ m, m ∈ allowed ↔ ∃ e ∈ entries, e.Fits m path) →
      Resolves entries method path (.methodNotAllowed allowed)
  | notFound : (∀ m, ∀ e ∈ entries, ¬ e.Fits m path) → Resolves entries method path .notFound

/-- Methods in strictly ascending order of their names are known from which they are. -/
theorem eq_of_ascending_names {ms ns : List Method}
    (hm : ms.Pairwise fun a b => a.name < b.name) (hn : ns.Pairwise fun a b => a.name < b.name)
    (h : ∀ m, m ∈ ms ↔ m ∈ ns) : ms = ns := by
  have hirrefl : Std.Irrefl fun a b : Method => a.name < b.name := ⟨fun _ => String.lt_irrefl _⟩
  have hanti : Std.Antisymm fun a b : Method => a.name < b.name :=
    ⟨fun _ _ hab hba => absurd hba (String.lt_asymm hab)⟩
  exact hm.eq_of_mem_iff hn h

/-- There is at most one answer. -/
theorem Resolves.unique {entries : List (Entry H)} {method : Method} {path : String}
    {a b : Match H} (ha : Resolves entries method path a) (hb : Resolves entries method path b) :
    b = a := by
  cases ha with
  | found he hps =>
      cases hb with
      | found ho hps' =>
          obtain rfl := he.unique ho
          rw [hps.unique hps']
      | methodNotAllowed hno => exact absurd he.fits (hno _ he.mem)
      | notFound hno => exact absurd he.fits (hno _ _ he.mem)
  | methodNotAllowed hno hne hsorted hmem =>
      cases hb with
      | found ho => exact absurd ho.fits (hno _ ho.mem)
      | methodNotAllowed _ _ hsorted' hmem' =>
          rw [eq_of_ascending_names hsorted' hsorted fun m => (hmem' m).trans (hmem m).symm]
      | notFound hno' =>
          obtain ⟨m, hm⟩ := List.exists_mem_of_ne_nil _ hne
          obtain ⟨e, he, hfits⟩ := (hmem m).1 hm
          exact absurd hfits (hno' m e he)
  | notFound hno =>
      cases hb with
      | found ho => exact absurd ho.fits (hno _ _ ho.mem)
      | methodNotAllowed _ hne _ hmem =>
          obtain ⟨m, hm⟩ := List.exists_mem_of_ne_nil _ hne
          obtain ⟨e, he, hfits⟩ := (hmem m).1 hm
          exact absurd hfits (hno m e he)
      | notFound _ => rfl

end Switchboard
