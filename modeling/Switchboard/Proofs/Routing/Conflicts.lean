import Mathlib.Data.List.Pairwise
import Switchboard.Proofs.Routing.Resolution

set_option autoImplicit false

/-! # Conflicts between patterns

An insertion walks down a tree and looks at one node after another. What it finds there is a
relation between two patterns, `Pattern.Clashes`, which asks for no tree and is symmetric: a router
refuses a pattern exactly if it clashes with one that the router holds (`Router.add_ok_iff`).

For this every node must be on the way to a slot (`Tree.Grown`), so that a parameter met on the walk
belongs to a pattern. A list of patterns is then accepted as a whole if no two of them clash, which
does not depend on their order, and nor does the router that it gives
(`Router.outcome_of_any_order`).
-/

namespace Switchboard

namespace Pattern

/-- Two patterns that cannot stand beside each other: they are equal, or after equal parts both go
on with a parameter, of different names. -/
inductive Clashes : Pattern → Pattern → Prop
  | same (p : Pattern) : Clashes p p
  | renamed (front : Pattern) {name other : String} (p q : Pattern) : name ≠ other →
      Clashes (front ++ .param name :: p) (front ++ .param other :: q)

theorem Clashes.symm {p q : Pattern} (h : p.Clashes q) : q.Clashes p := by
  cases h with
  | same => exact .same _
  | renamed front p q hne => exact .renamed front q p hne.symm

theorem clashes_nil_iff {q : Pattern} : Clashes [] q ↔ q = [] := by
  constructor
  · intro h
    generalize hp : ([] : Pattern) = p at h
    cases h with
    | same => rfl
    | renamed front p q hne => cases front <;> cases hp
  · rintro rfl
    exact .same []

/-- Two patterns with a first part clash there, or have it in common and clash behind it. -/
theorem clashes_cons_iff {a : Part} {p q : Pattern} :
    Clashes (a :: p) q ↔
      (∃ q', q = a :: q' ∧ Clashes p q') ∨
        ∃ name other q', a = .param name ∧ q = .param other :: q' ∧ name ≠ other := by
  constructor
  · intro h
    generalize hp : a :: p = p' at h
    cases h with
    | same => exact .inl ⟨p, hp.symm, .same p⟩
    | renamed front p' q' hne =>
        cases front with
        | nil =>
            obtain ⟨rfl, rfl⟩ := List.cons.inj hp
            exact .inr ⟨_, _, q', rfl, rfl, hne⟩
        | cons b front =>
            obtain ⟨rfl, rfl⟩ := List.cons.inj hp
            exact .inl ⟨_, rfl, .renamed front p' q' hne⟩
  · rintro (⟨q', rfl, h⟩ | ⟨name, other, q', rfl, rfl, hne⟩)
    · cases h with
      | same => exact .same _
      | renamed front p q hne => exact .renamed (a :: front) p q hne
    · exact .renamed [] p q' hne

theorem clashes_fixed_iff {text : String} {p q : Pattern} :
    Clashes (.fixed text :: p) q ↔ ∃ q', q = .fixed text :: q' ∧ Clashes p q' := by
  simp [clashes_cons_iff]

theorem clashes_param_iff {name : String} {p q : Pattern} :
    Clashes (.param name :: p) q ↔
      ∃ other q', q = .param other :: q' ∧ (name = other → Clashes p q') := by
  rw [clashes_cons_iff]
  constructor
  · rintro (⟨q', rfl, h⟩ | ⟨_, other, q', ⟨⟩, rfl, hne⟩)
    · exact ⟨name, q', rfl, fun _ => h⟩
    · exact ⟨other, q', rfl, fun e => absurd e hne⟩
  · rintro ⟨other, q', rfl, h⟩
    by_cases hne : name = other
    · exact .inl ⟨q', by rw [hne], h hne⟩
    · exact .inr ⟨name, other, q', rfl, rfl, hne⟩

theorem clashes_wildcard_iff {q : Pattern} : Clashes [.wildcard] q ↔ q = [.wildcard] := by
  simp [clashes_cons_iff, clashes_nil_iff]

end Pattern

/-! ## Trees in which every node leads to a slot -/

namespace Tree

open Pattern

variable {H : Type} {value : H}

/-- Some pattern has a value in the tree. -/
def Inhabited (t : Tree H) : Prop := ∃ p, slot? p t ≠ none

/-- Every node below the root leads to a slot. -/
inductive Grown : Tree H → Prop
  | node {t : Tree H} :
      (∀ text c, Table.value? t.fixed text = some c → c.Inhabited) →
      (∀ text c, Table.value? t.fixed text = some c → Grown c) →
      (∀ name c, t.param = some (name, c) → c.Inhabited) →
      (∀ name c, t.param = some (name, c) → Grown c) → Grown t

theorem grown_empty : Grown (empty : Tree H) := by
  refine .node ?_ ?_ ?_ ?_
  · intro text c hc
    cases hc
  · intro text c hc
    cases hc
  · intro name c hc
    cases hc
  · intro name c hc
    cases hc

theorem Grown.child {t : Tree H} (h : t.Grown) (text : String) : (t.child text).Grown := by
  obtain ⟨-, hfixed, -, -⟩ := h
  rw [Tree.child]
  cases hc : Table.value? t.fixed text with
  | none => exact grown_empty
  | some c => exact hfixed text c hc

theorem Grown.below_param {t c : Tree H} {name : String} (h : t.Grown)
    (hc : t.param = some (name, c)) : c.Grown := by
  obtain ⟨-, -, -, hparam⟩ := h
  exact hparam name c hc

/-- A change of the values at the root does not concern the nodes below. -/
theorem Grown.congr {t t' : Tree H} (h : t.Grown) (hfixed : t'.fixed = t.fixed)
    (hparam : t'.param = t.param) : t'.Grown := by
  obtain ⟨h₁, h₂, h₃, h₄⟩ := h
  refine .node ?_ ?_ ?_ ?_
  · rwa [hfixed]
  · rwa [hfixed]
  · rwa [hparam]
  · rwa [hparam]

theorem Grown.put_fixed {t c : Tree H} (h : t.Grown) (text : String) (hc : c.Grown)
    (hin : c.Inhabited) : Grown { t with fixed := Table.put t.fixed text c } := by
  obtain ⟨h₁, h₂, h₃, h₄⟩ := h
  refine .node ?_ ?_ h₃ h₄
  · intro text' c' hc'
    rw [Table.value?_put] at hc'
    split at hc'
    · cases hc'
      exact hin
    · exact h₁ text' c' hc'
  · intro text' c' hc'
    rw [Table.value?_put] at hc'
    split at hc'
    · cases hc'
      exact hc
    · exact h₂ text' c' hc'

theorem Grown.set_param {t c : Tree H} (h : t.Grown) (name : String) (hc : c.Grown)
    (hin : c.Inhabited) : Grown { t with param := some (name, c) } := by
  obtain ⟨h₁, h₂, -, -⟩ := h
  refine .node h₁ h₂ ?_ ?_
  · rintro _ _ ⟨⟩
    exact hin
  · rintro _ _ ⟨⟩
    exact hc

/-- The tree that an insertion leaves has a value for the pattern. -/
theorem inhabited_insert {p : Pattern} (hp : p.WildcardLast) {t : Tree H}
    (h : (insert value p t).2 = .ok ()) : (insert value p t).1.Inhabited := by
  refine ⟨p, ?_⟩
  rw [slot?_insert hp h, if_pos rfl]
  exact Option.some_ne_none value

/-- An insertion makes no node that leads nowhere. -/
theorem Grown.insert {p : Pattern} (hp : p.WildcardLast) {t : Tree H} (ht : t.Grown)
    (h : (insert value p t).2 = .ok ()) : (insert value p t).1.Grown := by
  induction p generalizing t with
  | nil =>
      rw [Tree.insert]
      split
      · exact ht
      · exact ht.congr rfl rfl
  | cons a p ih =>
      cases a with
      | wildcard =>
          rw [Tree.insert]
          split
          · exact ht
          · exact ht.congr rfl rfl
      | fixed text =>
          have hp' : WildcardLast p := hp
          rw [insert_fixed] at h ⊢
          exact ht.put_fixed text (ih hp' (ht.child text) h) (inhabited_insert hp' h)
      | param name =>
          have hp' : WildcardLast p := hp
          cases hc : t.param with
          | none =>
              rw [insert_param_none hc] at h ⊢
              exact ht.set_param name (ih hp' grown_empty h) (inhabited_insert hp' h)
          | some old =>
              obtain ⟨existing, c⟩ := old
              by_cases hne : existing = name
              · subst hne
                rw [insert_param_some hc] at h ⊢
                exact ht.set_param existing (ih hp' (ht.below_param hc) h) (inhabited_insert hp' h)
              · rw [insert_param_of_ne hc hne] at h
                cases h

theorem slot?_eq_none_iff_forall {p : Pattern} {t : Tree H} :
    slot? p t = none ↔ ∀ q, slot? q t ≠ none → q ≠ p := by
  constructor
  · rintro h q hq rfl
    exact hq h
  · intro h
    by_contra hne
    exact h p hne rfl

/-- In a grown tree an insertion succeeds exactly if the pattern clashes with none that has a
value. -/
theorem insert_ok_iff {p : Pattern} (hp : p.WildcardLast) {t : Tree H} (ht : t.Grown) :
    (insert value p t).2 = .ok () ↔ ∀ q, slot? q t ≠ none → ¬ p.Clashes q := by
  induction p generalizing t with
  | nil =>
      simp only [clashes_nil_iff, ← ne_eq, ← slot?_eq_none_iff_forall, slot?, Tree.insert]
      cases t.here <;> simp
  | cons a p ih =>
      cases a with
      | wildcard =>
          obtain rfl : p = [] := hp
          simp only [clashes_wildcard_iff, ← ne_eq, ← slot?_eq_none_iff_forall, slot?, Tree.insert]
          cases t.wildcard <;> simp
      | fixed text =>
          rw [insert_fixed, ih hp (ht.child text)]
          constructor
          · intro h q hq hclash
            obtain ⟨q', rfl, hbehind⟩ := clashes_fixed_iff.1 hclash
            rw [← slot?_child] at hq
            exact h q' hq hbehind
          · intro h q hq hclash
            rw [slot?_child] at hq
            exact h _ hq (clashes_fixed_iff.2 ⟨q, rfl, hclash⟩)
      | param name =>
          cases hc : t.param with
          | none =>
              rw [insert_param_none hc, insert_empty]
              refine iff_of_true rfl fun q hq hclash => hq ?_
              obtain ⟨other, q', rfl, -⟩ := clashes_param_iff.1 hclash
              rw [slot?_param, hc]
              rfl
          | some old =>
              obtain ⟨existing, c⟩ := old
              have hslot : ∀ q, slot? (.param existing :: q) t = slot? q c := by
                intro q
                rw [slot?_param, hc, Option.bind_some, if_pos rfl]
              by_cases hne : existing = name
              · subst hne
                rw [insert_param_some hc, ih hp (ht.below_param hc)]
                constructor
                · intro h q hq hclash
                  obtain ⟨other, q', rfl, hbehind⟩ := clashes_param_iff.1 hclash
                  by_cases he : existing = other
                  · subst he
                    rw [hslot] at hq
                    exact h q' hq (hbehind rfl)
                  · rw [slot?_param, hc, Option.bind_some, if_neg he] at hq
                    exact hq rfl
                · intro h q hq hclash
                  rw [← hslot] at hq
                  exact h _ hq (clashes_param_iff.2 ⟨existing, q, rfl, fun _ => hclash⟩)
              · -- the parameter that stands there belongs to a pattern, since the tree is grown
                rw [insert_param_of_ne hc hne]
                obtain ⟨-, -, hparam, -⟩ := ht
                obtain ⟨q, hq⟩ := hparam existing c hc
                refine iff_of_false (fun hok => ?_) fun h => ?_
                · cases hok
                · rw [← hslot] at hq
                  exact h _ hq (clashes_param_iff.2 ⟨existing, q, rfl, fun e => absurd e.symm hne⟩)

end Tree

namespace Router

variable {H : Type} {r : Router H} {entries : List (Entry H)}

/-! ## What a router refuses -/

/-- Every node of every tree leads to a slot. -/
def Grown (r : Router H) : Prop := ∀ method, (r.tree method).Grown

theorem grown_new : (empty : Router H).Grown := fun _ => Tree.grown_empty

theorem Grown.add (hr : r.Grown) (method : Method) (path : String) (value : H) :
    (r.add method path value).1.Grown := by
  cases h : (r.add method path value).2 with
  | error cause =>
      rw [add_eq_self_of_error h]
      exact hr
  | ok u =>
      obtain ⟨p, hp, hi⟩ := parse_of_add_ok h
      rw [add_of_insert_ok hp hi]
      intro m
      rw [tree, Table.value?_put]
      split
      · exact (hr method).insert (Pattern.wildcardLast_of_parse hp) hi
      · exact hr m

theorem Grown.run (hr : r.Grown) (l : List (Registration H)) : (r.run l).Grown := by
  induction l generalizing r with
  | nil => exact hr
  | cons g l ih => exact ih (hr.add g.method g.path g.value)

/-- A router accepts what can be read and clashes with no pattern of the method. -/
theorem Holds.add_ok_iff (hr : r.Holds entries) (hg : r.Grown) (method : Method) (path : String)
    (value : H) :
    (r.add method path value).2 = .ok () ↔
      ∃ p, Pattern.parse path = .ok p ∧
        ∀ e ∈ entries, e.method = method → ¬ p.Clashes e.pattern := by
  have hslots : ∀ p : Pattern, (∀ q, (r.tree method).slot? q ≠ none → ¬ p.Clashes q) ↔
      ∀ e ∈ entries, e.method = method → ¬ p.Clashes e.pattern := by
    intro p
    constructor
    · rintro h ⟨_, q, v⟩ he rfl
      refine h q ?_
      rw [slot?_tree, (hr.slot _ q v).2 he]
      exact Option.some_ne_none v
    · intro h q hq
      rw [slot?_tree] at hq
      obtain ⟨v, hv⟩ := Option.ne_none_iff_exists'.1 hq
      exact h ⟨method, q, v⟩ ((hr.slot method q v).1 hv) rfl
  constructor
  · intro h
    obtain ⟨p, hp, hi⟩ := parse_of_add_ok h
    refine ⟨p, hp, (hslots p).1 ?_⟩
    exact (Tree.insert_ok_iff (Pattern.wildcardLast_of_parse hp) (hg method)).1 hi
  · rintro ⟨p, hp, h⟩
    have hi : ((r.tree method).insert value p).2 = .ok () :=
      (Tree.insert_ok_iff (Pattern.wildcardLast_of_parse hp) (hg method)).2 ((hslots p).2 h)
    rw [add_of_insert_ok hp hi]

end Router

/-! ## Lists of patterns -/

section Lists

variable {H : Type}

namespace Registration

/-- The pattern can be read. -/
def Readable (g : Registration H) : Prop := ∃ p, Pattern.parse g.path = .ok p

/-- Two patterns that can stand beside each other, in either order. -/
def Compatible (g g' : Registration H) : Prop :=
  g.method = g'.method → ∀ p p', Pattern.parse g.path = .ok p → Pattern.parse g'.path = .ok p' →
    ¬ p.Clashes p'

theorem Compatible.symm {g g' : Registration H} (h : g.Compatible g') : g'.Compatible g :=
  fun hm p' p hp' hp hclash => h hm.symm p p' hp hp' hclash.symm

/-- The pattern clashes with none of the entries. -/
def GoesWith (g : Registration H) (entries : List (Entry H)) : Prop :=
  ∀ e ∈ entries, e.method = g.method → ∀ p, Pattern.parse g.path = .ok p → ¬ p.Clashes e.pattern

/-- The entry that an accepted pattern becomes. -/
def Yields (g : Registration H) (e : Entry H) : Prop :=
  e.method = g.method ∧ Pattern.parse g.path = .ok e.pattern ∧ e.value = g.value

end Registration

namespace Router

/-- The patterns are accepted one after another, all of them. -/
def Accepts (r : Router H) : List (Registration H) → Prop
  | [] => True
  | g :: l => (r.add g.method g.path g.value).2 = .ok () ∧
      Accepts (r.add g.method g.path g.value).1 l

instance decidableAccepts : (r : Router H) → (l : List (Registration H)) → Decidable (r.Accepts l)
  | _, [] => isTrue trivial
  | r, g :: l =>
    match h : (r.add g.method g.path g.value).2 with
    | .error _ => isFalse fun ha => nomatch h.symm.trans ha.1
    | .ok () =>
      match decidableAccepts (r.add g.method g.path g.value).1 l with
      | isTrue hl => isTrue ⟨h, hl⟩
      | isFalse hl => isFalse fun ha => hl ha.2

variable {r : Router H} {entries : List (Entry H)}

/-- Which lists a router accepts: the patterns can be read, go with the entries of the router, and
go with each other. -/
theorem Holds.accepts_iff (hr : r.Holds entries) (hg : r.Grown) (l : List (Registration H)) :
    r.Accepts l ↔
      (∀ g ∈ l, g.Readable ∧ g.GoesWith entries) ∧ l.Pairwise Registration.Compatible := by
  induction l generalizing r entries with
  | nil => simp [Accepts]
  | cons g l ih =>
      have hfirst :
          (r.add g.method g.path g.value).2 = .ok () ↔ g.Readable ∧ g.GoesWith entries := by
        rw [hr.add_ok_iff hg]
        constructor
        · rintro ⟨p, hp, h⟩
          refine ⟨⟨p, hp⟩, fun e he hm p' hp' => ?_⟩
          obtain rfl := Except.ok.inj (hp.symm.trans hp')
          exact h e he hm
        · rintro ⟨⟨p, hp⟩, h⟩
          exact ⟨p, hp, fun e he hm => h e he hm p hp⟩
      rw [Accepts, List.pairwise_cons, List.forall_mem_cons, and_assoc, ← hfirst]
      refine and_congr_right fun hadd => ?_
      obtain ⟨p, hp, -⟩ := parse_of_add_ok hadd
      rw [ih (hr.add hp hadd) (hg.add _ _ _)]
      -- the entry of the first pattern is one of those that the others must go with
      have hlonger : ∀ g', g'.GoesWith (entries ++ [⟨g.method, p, g.value⟩]) ↔
          g'.GoesWith entries ∧ g.Compatible g' := by
        intro g'
        rw [Registration.GoesWith, List.forall_mem_append]
        refine and_congr_right fun _ => ?_
        rw [List.forall_mem_singleton]
        constructor
        · intro h hm q q' hq hq' hclash
          obtain rfl := Except.ok.inj (hp.symm.trans hq)
          exact h hm q' hq' hclash.symm
        · intro h hm q' hq' hclash
          exact h hm p q' hp hq' hclash.symm
      simp only [hlonger]
      constructor
      · rintro ⟨hall, hpair⟩
        exact ⟨fun g' hg' => ⟨(hall g' hg').1, (hall g' hg').2.1⟩,
          fun g' hg' => (hall g' hg').2.2, hpair⟩
      · rintro ⟨hall, hcomp, hpair⟩
        exact ⟨fun g' hg' => ⟨(hall g' hg').1, (hall g' hg').2, hcomp g' hg'⟩, hpair⟩

-- A parameter may be met again under its own name and by another method, but not under another
-- name.
example :
    (empty : Router Nat).Accepts [⟨.get, "/users/:id", 1⟩, ⟨.put, "/users/:name", 2⟩,
      ⟨.get, "/users/:id/posts", 3⟩, ⟨.get, "/users/*", 4⟩] ∧
    ¬ (empty : Router Nat).Accepts [⟨.get, "/users/:id", 1⟩, ⟨.get, "/users/:name/posts", 2⟩] := by
  decide

/-- The entries of a list that is accepted as a whole. -/
theorem Accepts.mem_taken_iff {l : List (Registration H)} (h : r.Accepts l) (e : Entry H) :
    e ∈ r.taken l ↔ ∃ g ∈ l, g.Yields e := by
  induction l generalizing r with
  | nil => simp [taken]
  | cons g l ih =>
      obtain ⟨hadd, hl⟩ := h
      obtain ⟨p, hp, -⟩ := parse_of_add_ok hadd
      have hyields : g.Yields e ↔ e = ⟨g.method, p, g.value⟩ := by
        constructor
        · rintro ⟨hm, hp', hv⟩
          obtain rfl := Except.ok.inj (hp.symm.trans hp')
          cases e
          simp_all
        · rintro rfl
          exact ⟨rfl, hp, rfl⟩
      rw [taken]
      simp only [hadd, hp, List.mem_cons, exists_eq_or_imp, ih hl, hyields]

theorem Accepts.size_run {l : List (Registration H)} (h : r.Accepts l) :
    (r.run l).size = r.size + l.length := by
  induction l generalizing r with
  | nil => rfl
  | cons g l ih =>
      obtain ⟨hadd, hl⟩ := h
      obtain ⟨p, hp, hi⟩ := parse_of_add_ok hadd
      have hsize : (r.add g.method g.path g.value).1.size = r.size + 1 := by
        rw [add_of_insert_ok hp hi]
      show ((r.add g.method g.path g.value).1.run l).size = _
      rw [ih hl, hsize, List.length_cons]
      omega

end Router

/-- Answers depend on which entries there are, not on their order. -/
theorem Resolves.congr {entries entries' : List (Entry H)} (h : ∀ e, e ∈ entries ↔ e ∈ entries')
    {method : Method} {path : String} {a : Match H} (ha : Resolves entries method path a) :
    Resolves entries' method path a := by
  cases ha with
  | found he hps =>
      refine .found ⟨(h _).1 he.mem, he.fits, fun o ho => ?_⟩ hps
      exact he.outranks o ((h o).2 ho)
  | methodNotAllowed hno hne hsorted hmem =>
      refine .methodNotAllowed (fun e he => hno e ((h e).2 he)) hne hsorted fun m => ?_
      rw [hmem]
      simp only [h]
  | notFound hno => exact .notFound fun m e he => hno m e ((h e).2 he)

namespace Router

/-- A router accepts a pattern exactly if it can be read and clashes with none of those accepted
for the method before. To clash is symmetric. So a list of patterns that is accepted as a whole is
accepted in every other order too, and the routers are of the same size and answer alike. -/
theorem outcome_of_any_order :
    (∀ (l : List (Registration H)) (g : Registration H),
      (((empty : Router H).run l).add g.method g.path g.value).2 = .ok () ↔
        ∃ p, Pattern.parse g.path = .ok p ∧
          ∀ e ∈ (empty : Router H).taken l, e.method = g.method → ¬ p.Clashes e.pattern) ∧
    (∀ p q : Pattern, p.Clashes q ↔ q.Clashes p) ∧
    ∀ l l' : List (Registration H), l.Perm l' → (empty : Router H).Accepts l →
      (empty : Router H).Accepts l' ∧
      ((empty : Router H).run l').size = ((empty : Router H).run l).size ∧
      ∀ method path, ((empty : Router H).run l').find method path =
        ((empty : Router H).run l).find method path := by
  have hholds : ∀ l, ((empty : Router H).run l).Holds ((empty : Router H).taken l) := by
    intro l
    have hrun := (holds_empty (H := H)).run l
    rwa [List.nil_append] at hrun
  refine ⟨fun l g => ?_, fun p q => ⟨.symm, .symm⟩, fun l l' hperm hl => ?_⟩
  · exact (hholds l).add_ok_iff (grown_new.run l) _ _ _
  · have hl' : (empty : Router H).Accepts l' := by
      rw [holds_empty.accepts_iff grown_new] at hl ⊢
      refine ⟨fun g hg => hl.1 g (hperm.mem_iff.2 hg), ?_⟩
      exact (hperm.pairwise_iff Registration.Compatible.symm).1 hl.2
    refine ⟨hl', ?_, fun method path => ?_⟩
    · rw [hl.size_run, hl'.size_run, hperm.length_eq]
    · have hmem : ∀ e, e ∈ (empty : Router H).taken l ↔ e ∈ (empty : Router H).taken l' := by
        intro e
        rw [hl.mem_taken_iff, hl'.mem_taken_iff]
        simp only [hperm.mem_iff]
      exact ((hholds l).resolves method path |>.congr hmem).unique
        ((hholds l').resolves method path)

/-- Three patterns that overlap without a clash, and the same in reverse. -/
theorem outcome_of_any_order_reversed :
    let l : List (Registration Nat) :=
      [⟨.get, "/users/:id", 1⟩, ⟨.get, "/users/new", 2⟩, ⟨.get, "/users/*", 3⟩]
    (empty : Router Nat).Accepts l ∧ (empty : Router Nat).Accepts l.reverse ∧
      ((empty : Router Nat).run l.reverse).size = ((empty : Router Nat).run l).size ∧
      ∀ method path, ((empty : Router Nat).run l.reverse).find method path =
        ((empty : Router Nat).run l).find method path := by
  intro l
  have hl : (empty : Router Nat).Accepts l := by decide
  exact ⟨hl, outcome_of_any_order.2.2 l l.reverse l.reverse_perm.symm hl⟩

end Router

end Lists

end Switchboard
