import Switchboard.Proofs.Routing.Matching
import Switchboard.Proofs.Text.Percent

set_option autoImplicit false

/-! # The slots of a route tree

A tree stands for the values in its slots: `Tree.slot?` is the value that a pattern has in it.
`slot?_insert` says what an insertion does to the slots, and `insert_eq_self_of_error` that a
refused one does nothing at all. `find?_eq_some` and `find?_eq_none_iff` say that the search with
its going back finds the best of all patterns that have a slot and match.
-/

namespace Switchboard

namespace Pattern

/-- A wildcard stands at the end only. -/
def WildcardLast : Pattern → Prop
  | [] => True
  | .wildcard :: p => p = []
  | .fixed _ :: p | .param _ :: p => WildcardLast p

theorem eq_ok_of_map {ε α β : Type} {f : α → β} {x : Except ε α} {b : β}
    (h : x.map f = .ok b) : ∃ a, x = .ok a ∧ f a = b := by
  cases x with
  | error e => cases h
  | ok a => exact ⟨a, rfl, Except.ok.inj h⟩

theorem wildcardLast_of_ofPieces {seen : List String} {ps : List (List Char)} {p : Pattern}
    (h : ofPieces seen ps = .ok p) : p.WildcardLast := by
  fun_induction ofPieces seen ps generalizing p with
  | case1 => cases h; trivial
  | case2 | case3 => cases h
  | case4 seen name rest =>
      rename_i ih
      obtain ⟨q, hq, rfl⟩ := eq_ok_of_map h
      show WildcardLast q
      exact ih hq
  | case5 | case6 => cases h
  | case7 => cases h; rfl
  | case8 seen text rest _ _ ih =>
      obtain ⟨q, hq, rfl⟩ := eq_ok_of_map h
      show WildcardLast q
      exact ih hq

/-- In a pattern that can be read a wildcard stands at the end only. -/
theorem wildcardLast_of_parse {path : String} {p : Pattern} (h : parse path = .ok p) :
    p.WildcardLast := by
  simp only [parse] at h
  split at h
  · cases h
  · split at h
    · cases h
    · exact wildcardLast_of_ofPieces h

/-- What a pattern binds along segments of a path. -/
def bindings (path : String) : Pattern → List Segment → List (String × String)
  | .fixed _ :: p, _ :: segs => bindings path p segs
  | .param name :: p, s :: segs => (name, Text.Percent.decode s.text) :: bindings path p segs
  | .wildcard :: _, [] => [(wildcardName, "")]
  | .wildcard :: _, s :: _ => [(wildcardName, Text.Percent.decode (textFrom path s.offset))]
  | _, _ => []

/-- The part of a pattern at place `i` stands before the segment with index `i`, so what is bound
along the segments is what the parts capture. -/
theorem bindings_drop (path : String) (p : Pattern) :
    ∀ (i : Nat) (segs : List Segment), (segments path).drop i = segs →
      p.Matches (segs.map (·.text)) →
        p.bindings path segs = (p.zipIdx i).filterMap fun part => capture? path part.2 part.1 := by
  induction p with
  | nil =>
      rintro i segs - hm
      cases segs <;> rfl
  | cons a p ih =>
      intro i segs hsegs hm
      have hget : (segments path)[i]? = segs.head? := by rw [← hsegs, List.head?_drop]
      have hdrop : (segments path).drop (i + 1) = segs.tail := by rw [← hsegs, List.tail_drop]
      cases segs with
      | nil =>
          obtain ⟨rfl, rfl⟩ : a = .wildcard ∧ p = [] := by cases hm; exact ⟨rfl, rfl⟩
          have hlen : (segments path).length ≤ i := List.drop_eq_nil_iff.1 hsegs
          rw [bindings, List.zipIdx_cons, List.filterMap_cons, capture?,
            rawTail_of_length_le hlen, Text.Percent.decode_empty]
          rfl
      | cons s segs =>
          cases a with
          | fixed text =>
              cases hm with
              | fixed hm =>
                  rw [bindings, ih (i + 1) segs hdrop hm]
                  rfl
          | param name =>
              cases hm with
              | param hm =>
                  rw [bindings, ih (i + 1) segs hdrop hm, List.zipIdx_cons, List.filterMap_cons,
                    capture?, ← map_text_segments, List.getElem?_map, hget]
                  rfl
          | wildcard =>
              obtain rfl : p = [] := by cases hm; rfl
              rw [bindings, textFrom_offset hget]
              rfl

theorem bindings_segments {path : String} {p : Pattern} (h : p.Matches (pathPieces path)) :
    p.bindings path (segments path) = p.captures path :=
  bindings_drop path p 0 _ rfl (by rwa [map_text_segments])

end Pattern

namespace Tree

open Pattern

variable {H : Type}

/-- The value that a pattern has in a tree. -/
def slot? : Pattern → Tree H → Option H
  | [], t => t.here
  | [.wildcard], t => t.wildcard
  | .wildcard :: _ :: _, _ => none
  | .fixed text :: p, t => (Table.value? t.fixed text).bind (slot? p)
  | .param name :: p, t => t.param.bind fun c => if c.1 = name then slot? p c.2 else none

theorem slot?_fixed (text : String) (p : Pattern) (t : Tree H) :
    slot? (.fixed text :: p) t = (Table.value? t.fixed text).bind (slot? p) := by
  rw [slot?]

theorem slot?_param (name : String) (p : Pattern) (t : Tree H) :
    slot? (.param name :: p) t =
      t.param.bind fun c => if c.1 = name then slot? p c.2 else none := by
  rw [slot?]

@[simp] theorem slot?_empty (p : Pattern) : slot? p (empty : Tree H) = none := by
  cases p with
  | nil => rfl
  | cons a p =>
      cases a with
      | fixed text => rw [slot?_fixed]; rfl
      | param name => rw [slot?_param]; rfl
      | wildcard => cases p <;> rfl

/-- The child reached by fixed text, empty if there is none. -/
def child (text : String) (t : Tree H) : Tree H := (Table.value? t.fixed text).getD empty

theorem slot?_child (text : String) (p : Pattern) (t : Tree H) :
    slot? p (t.child text) = slot? (.fixed text :: p) t := by
  rw [slot?_fixed, child]
  cases Table.value? t.fixed text with
  | none => simp
  | some c => rfl

/-! ## Insertion -/

section Insert

variable {value : H}

theorem insert_fixed (text : String) (p : Pattern) (t : Tree H) :
    insert value (.fixed text :: p) t =
      ({ t with fixed := Table.put t.fixed text (insert value p (t.child text)).1 },
        (insert value p (t.child text)).2) := by
  rw [insert, child]

theorem insert_param_none {t : Tree H} (ht : t.param = none) (name : String) (p : Pattern) :
    insert value (.param name :: p) t =
      ({ t with param := some (name, (insert value p empty).1) }, (insert value p empty).2) := by
  rw [insert, ht]

theorem insert_param_some {t child : Tree H} {name : String} (ht : t.param = some (name, child))
    (p : Pattern) :
    insert value (.param name :: p) t =
      ({ t with param := some (name, (insert value p child).1) }, (insert value p child).2) := by
  rw [insert, ht]
  simp

theorem insert_param_of_ne {t child : Tree H} {name existing : String}
    (ht : t.param = some (existing, child)) (hne : existing ≠ name) (p : Pattern) :
    insert value (.param name :: p) t = (t, .error (.renamed name existing)) := by
  rw [insert, ht]
  simp [hne]

/-- Nothing stands in the way in an empty tree. -/
theorem insert_empty (p : Pattern) : (insert value p (empty : Tree H)).2 = .ok () := by
  induction p with
  | nil => rfl
  | cons a p ih =>
      cases a with
      | fixed text => rw [insert_fixed]; exact ih
      | param name => rw [insert_param_none rfl]; exact ih
      | wildcard => rfl

/-- A refused insertion leaves the tree as it was: the walk to the conflict has met only nodes that
were there before. -/
theorem insert_eq_self_of_error {p : Pattern} {t : Tree H} {cause : Conflict}
    (h : (insert value p t).2 = .error cause) : (insert value p t).1 = t := by
  induction p generalizing t with
  | nil =>
      rw [insert] at h ⊢
      split at h
      · next hs => rw [if_pos hs]
      · cases h
  | cons a p ih =>
      cases a with
      | wildcard =>
          rw [insert] at h ⊢
          split at h
          · next hs => rw [if_pos hs]
          · cases h
      | fixed text =>
          rw [insert_fixed] at h ⊢
          rw [child] at h ⊢
          cases hc : Table.value? t.fixed text with
          | none =>
              rw [hc, Option.getD_none, insert_empty] at h
              cases h
          | some child =>
              rw [hc, Option.getD_some] at h
              simp only [Option.getD_some, ih h, Table.put_eq_self_of_value? hc]
              cases t
              rfl
      | param name =>
          cases hc : t.param with
          | none =>
              rw [insert_param_none hc, insert_empty] at h
              cases h
          | some c =>
              obtain ⟨existing, child⟩ := c
              by_cases hne : existing = name
              · subst hne
                rw [insert_param_some hc] at h ⊢
                simp only [ih h, ← hc]
                cases t
                rfl
              · rw [insert_param_of_ne hc hne]

/-- The slot that an insertion fills was empty. -/
theorem slot?_of_insert_ok {p : Pattern} (hp : p.WildcardLast) {t : Tree H}
    (h : (insert value p t).2 = .ok ()) : slot? p t = none := by
  induction p generalizing t with
  | nil =>
      rw [insert] at h
      split at h
      · cases h
      · next hs => simpa [slot?] using hs
  | cons a p ih =>
      cases a with
      | wildcard =>
          obtain rfl : p = [] := hp
          rw [insert] at h
          split at h
          · cases h
          · next hs => simpa [slot?] using hs
      | fixed text =>
          rw [insert_fixed] at h
          rw [← slot?_child]
          exact ih hp h
      | param name =>
          rw [slot?_param]
          cases hc : t.param with
          | none => rfl
          | some c =>
              obtain ⟨existing, child⟩ := c
              by_cases hne : existing = name
              · subst hne
                rw [insert_param_some hc] at h
                simpa using ih hp h
              · simp [hne]

/-! What the slots are after a change of one field of the root. -/

section Fields

variable {t c : Tree H} {text name : String} {h : Option H}

theorem slot?_set_here (q : Pattern) :
    slot? q { t with here := h } = if q = [] then h else slot? q t := by
  cases q with
  | nil => rfl
  | cons b q =>
      rw [if_neg (by simp)]
      cases b with
      | fixed text => rw [slot?_fixed, slot?_fixed]
      | param name => rw [slot?_param, slot?_param]
      | wildcard => cases q <;> rfl

theorem slot?_set_wildcard (q : Pattern) :
    slot? q { t with wildcard := h } = if q = [.wildcard] then h else slot? q t := by
  cases q with
  | nil => rfl
  | cons b q =>
      cases b with
      | fixed text => rw [slot?_fixed, slot?_fixed, if_neg (by simp)]
      | param name => rw [slot?_param, slot?_param, if_neg (by simp)]
      | wildcard => cases q <;> simp [slot?]

theorem slot?_put_fixed_self (q : Pattern) :
    slot? (.fixed text :: q) { t with fixed := Table.put t.fixed text c } = slot? q c := by
  rw [slot?_fixed, Table.value?_put_self, Option.bind_some]

theorem slot?_put_fixed_of_ne {q : Pattern} (hq : ∀ q', q ≠ .fixed text :: q') :
    slot? q { t with fixed := Table.put t.fixed text c } = slot? q t := by
  cases q with
  | nil => rfl
  | cons b q =>
      cases b with
      | fixed text' =>
          have hne : text ≠ text' := by
            rintro rfl
            exact hq q rfl
          rw [slot?_fixed, slot?_fixed, Table.value?_put_of_ne _ _ hne]
      | param name => rw [slot?_param, slot?_param]
      | wildcard => cases q <;> rfl

theorem slot?_set_param_self (q : Pattern) :
    slot? (.param name :: q) { t with param := some (name, c) } = slot? q c := by
  rw [slot?_param, Option.bind_some, if_pos rfl]

/-- A parameter that was there before had the same name. -/
theorem slot?_set_param_of_ne {q : Pattern} (hq : ∀ q', q ≠ .param name :: q')
    (ht : ∀ old ∈ t.param, old.1 = name) :
    slot? q { t with param := some (name, c) } = slot? q t := by
  cases q with
  | nil => rfl
  | cons b q =>
      cases b with
      | fixed text => rw [slot?_fixed, slot?_fixed]
      | param name' =>
          have hne : name ≠ name' := by
            rintro rfl
            exact hq q rfl
          rw [slot?_param, slot?_param, Option.bind_some, if_neg hne]
          refine (Option.bind_eq_none_iff.2 fun old hold => ?_).symm
          rw [ht old hold, if_neg hne]
      | wildcard => cases q <;> rfl

end Fields

/-- An insertion fills one slot and keeps all others. -/
theorem slot?_insert {p : Pattern} (hp : p.WildcardLast) {t : Tree H}
    (h : (insert value p t).2 = .ok ()) (q : Pattern) :
    slot? q (insert value p t).1 = if q = p then some value else slot? q t := by
  induction p generalizing t q with
  | nil =>
      rw [insert] at h ⊢
      split at h
      · cases h
      · next hs =>
          rw [if_neg hs]
          exact slot?_set_here q
  | cons a p ih =>
      cases a with
      | wildcard =>
          obtain rfl : p = [] := hp
          rw [insert] at h ⊢
          split at h
          · cases h
          · next hs =>
              rw [if_neg hs]
              exact slot?_set_wildcard q
      | fixed text =>
          rw [insert_fixed] at h ⊢
          by_cases hq : ∃ q', q = .fixed text :: q'
          · obtain ⟨q, rfl⟩ := hq
            rw [slot?_put_fixed_self, ih hp h, slot?_child]
            simp
          · rw [slot?_put_fixed_of_ne fun q' e => hq ⟨q', e⟩, if_neg fun e => hq ⟨p, e⟩]
      | param name =>
          cases hc : t.param with
          | none =>
              rw [insert_param_none hc] at h ⊢
              by_cases hq : ∃ q', q = .param name :: q'
              · obtain ⟨q, rfl⟩ := hq
                rw [slot?_set_param_self, ih hp h, slot?_param, hc, slot?_empty]
                simp
              · rw [slot?_set_param_of_ne (fun q' e => hq ⟨q', e⟩) (by simp [hc]),
                  if_neg fun e => hq ⟨p, e⟩]
          | some old =>
              obtain ⟨existing, child⟩ := old
              by_cases hne : existing = name
              · subst hne
                rw [insert_param_some hc] at h ⊢
                by_cases hq : ∃ q', q = .param existing :: q'
                · obtain ⟨q, rfl⟩ := hq
                  rw [slot?_set_param_self, ih hp h, slot?_param, hc]
                  simp
                · rw [slot?_set_param_of_ne (fun q' e => hq ⟨q', e⟩) (by simp [hc]),
                    if_neg fun e => hq ⟨p, e⟩]
              · rw [insert_param_of_ne hc hne] at h
                cases h

end Insert

/-! ## Search -/

section Search

variable {path : String}

theorem find?_nil (t : Tree H) :
    find? path [] t = (t.here.map fun h => (h, [])).or
      (t.wildcard.map fun h => (h, [(wildcardName, "")])) := by
  rw [find?]
  cases t.here <;> rfl

/-- The three candidates at a node, each tried after the one before it. -/
theorem find?_cons (s : Segment) (rest : List Segment) (t : Tree H) :
    find? path (s :: rest) t = ((Table.value? t.fixed s.text).bind (find? path rest)).or
      ((t.param.bind fun c => (find? path rest c.2).map fun r =>
        (r.1, (c.1, Text.Percent.decode s.text) :: r.2)).or
      (t.wildcard.map fun h =>
        (h, [(wildcardName, Text.Percent.decode (textFrom path s.offset))]))) := by
  rw [find?, Option.orElse_eq_orElse, Option.orElse_eq_or, Option.orElse_eq_or]
  cases Table.value? t.fixed s.text <;> cases t.param <;> rfl

/-- The search fails exactly if no pattern with a slot matches. -/
theorem find?_eq_none_iff (segs : List Segment) (t : Tree H) :
    find? path segs t = none ↔
      ∀ p : Pattern, p.Matches (segs.map (·.text)) → slot? p t = none := by
  induction segs generalizing t with
  | nil =>
      rw [find?_nil, Option.or_eq_none_iff, Option.map_eq_none_iff, Option.map_eq_none_iff]
      constructor
      · rintro ⟨hh, hw⟩ p (_ | _)
        · exact hh
        · exact hw
      · intro h
        exact ⟨h [] .nil, h [.wildcard] .wildcard⟩
  | cons s rest ih =>
      rw [find?_cons, Option.or_eq_none_iff, Option.or_eq_none_iff, Option.bind_eq_none_iff,
        Option.bind_eq_none_iff, Option.map_eq_none_iff]
      constructor
      · rintro ⟨hf, hp, hw⟩ p hm
        cases hm with
        | fixed hm =>
            rw [slot?_fixed, Option.bind_eq_none_iff]
            intro c hc
            exact (ih c).1 (hf c hc) _ hm
        | param hm =>
            rw [slot?_param, Option.bind_eq_none_iff]
            intro c hc
            split
            · exact (ih c.2).1 (Option.map_eq_none_iff.1 (hp c hc)) _ hm
            · rfl
        | wildcard => exact hw
      · intro h
        refine ⟨fun c hc => ?_, fun c hc => ?_, h _ .wildcard⟩
        · rw [ih]
          intro p hm
          have hslot := h _ (.fixed hm)
          rwa [slot?_fixed, hc] at hslot
        · rw [Option.map_eq_none_iff, ih]
          intro p hm
          have hslot := h (.param c.1 :: p) (.param hm)
          rwa [slot?_param, hc, Option.bind_some, if_pos rfl] at hslot

/-- If the search below fixed text fails, no pattern through that text has a slot and matches. -/
theorem slot?_fixed_eq_none {s : Segment} {rest : List Segment} {t : Tree H}
    (h : (Table.value? t.fixed s.text).bind (find? path rest) = none) {p : Pattern}
    (hm : p.Matches (rest.map (·.text))) : slot? (.fixed s.text :: p) t = none := by
  rw [slot?_fixed, Option.bind_eq_none_iff]
  intro c hc
  exact (find?_eq_none_iff rest c).1 (Option.bind_eq_none_iff.1 h c hc) p hm

/-- The same for the parameter. -/
theorem slot?_param_eq_none {s : Segment} {rest : List Segment} {t : Tree H}
    (h : (t.param.bind fun c => (find? path rest c.2).map fun r =>
      (r.1, (c.1, Text.Percent.decode s.text) :: r.2)) = none) {name : String}
    {p : Pattern} (hm : p.Matches (rest.map (·.text))) : slot? (.param name :: p) t = none := by
  rw [slot?_param, Option.bind_eq_none_iff]
  intro c hc
  split
  · have hnone := Option.bind_eq_none_iff.1 h c hc
    exact (find?_eq_none_iff rest c.2).1 (Option.map_eq_none_iff.1 hnone) p hm
  · rfl

/-- What the search finds is the best of the patterns that have a slot and match. -/
theorem find?_eq_some {segs : List Segment} {t : Tree H} {h : H} {bs : List (String × String)}
    (hf : find? path segs t = some (h, bs)) :
    ∃ p : Pattern, slot? p t = some h ∧ p.Matches (segs.map (·.text)) ∧ p.bindings path segs = bs ∧
      ∀ q : Pattern, q.Matches (segs.map (·.text)) → slot? q t ≠ none → q ≠ p → p.Outranks q := by
  induction segs generalizing t bs with
  | nil =>
      rw [find?_nil, Option.or_eq_some_iff] at hf
      rcases hf with hf | ⟨hnone, hf⟩
      · obtain ⟨_, hh, ⟨⟩⟩ := Option.map_eq_some_iff.1 hf
        refine ⟨[], hh, .nil, rfl, ?_⟩
        rintro q (_ | _) - hne
        · exact absurd rfl hne
        · exact .ends
      · obtain ⟨_, hw, ⟨⟩⟩ := Option.map_eq_some_iff.1 hf
        refine ⟨[.wildcard], hw, .wildcard, rfl, ?_⟩
        rintro q (_ | _) hs hne
        · exact absurd (Option.map_eq_none_iff.1 hnone) hs
        · exact absurd rfl hne
  | cons s rest ih =>
      rw [find?_cons, Option.or_eq_some_iff, Option.or_eq_some_iff] at hf
      rcases hf with hf | ⟨hnofixed, hf | ⟨hnoparam, hf⟩⟩
      · -- by fixed text
        obtain ⟨c, hc, hf⟩ := Option.bind_eq_some_iff.1 hf
        obtain ⟨p, hslot, hm, hb, hbest⟩ := ih hf
        refine ⟨.fixed s.text :: p, ?_, .fixed hm, hb, ?_⟩
        · rw [slot?_fixed, hc]
          exact hslot
        · intro q hq hs hne
          cases hq with
          | fixed hq =>
              rw [slot?_fixed, hc] at hs
              exact .tail (hbest _ hq hs fun e => hne (by rw [e]))
          | param hq => exact .head (Nat.lt_succ_self 1)
          | wildcard => exact .head Nat.zero_lt_two
      · -- by the parameter
        obtain ⟨⟨name, c⟩, hc, hmap⟩ := Option.bind_eq_some_iff.1 hf
        obtain ⟨⟨_, bs⟩, hfind, ⟨⟩⟩ := Option.map_eq_some_iff.1 hmap
        obtain ⟨p, hslot, hm, hb, hbest⟩ := ih hfind
        refine ⟨.param name :: p, ?_, .param hm, ?_, ?_⟩
        · rw [slot?_param, hc, Option.bind_some, if_pos rfl]
          exact hslot
        · rw [bindings, hb]
        · intro q hq hs hne
          cases hq with
          | fixed hq => exact absurd (slot?_fixed_eq_none hnofixed hq) hs
          | param hq =>
              rw [slot?_param, hc, Option.bind_some] at hs
              split at hs
              · next e =>
                  obtain rfl : name = _ := e
                  exact .tail (hbest _ hq hs fun e' => hne (by rw [e']))
              · exact absurd rfl hs
          | wildcard => exact .head Nat.zero_lt_one
      · -- by the wildcard
        obtain ⟨_, hw, ⟨⟩⟩ := Option.map_eq_some_iff.1 hf
        refine ⟨[.wildcard], hw, .wildcard, rfl, ?_⟩
        intro q hq hs hne
        cases hq with
        | fixed hq => exact absurd (slot?_fixed_eq_none hnofixed hq) hs
        | param hq => exact absurd (slot?_param_eq_none hnoparam hq) hs
        | wildcard => exact absurd rfl hne

end Search

end Tree

end Switchboard
