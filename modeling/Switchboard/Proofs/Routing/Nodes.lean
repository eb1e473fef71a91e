import Mathlib.Data.List.Perm.Basic
import Switchboard.Proofs.Routing.Resolution

set_option autoImplicit false

/-! # The nodes of route trees

An insertion makes nodes on its way down and does not take them back when it meets a conflict.
Nothing of it is left all the same, since a conflict is met among nodes that were there before. So
no tree of a router has a node that leads to no value, and the size of a router is the number of
its filled slots (`Router.refused_leaves_no_trace`).

Here a tree is looked at as it is stored, node by node (`Tree.nodes`), and not by what a walk along
a pattern finds in it.
-/

namespace Switchboard

namespace Table

variable {κ ν α : Type} [DecidableEq κ]

theorem mem_put {t : Table κ ν} {key : κ} {x : ν} {p : κ × ν} (h : p ∈ put t key x) :
    p = (key, x) ∨ p ∈ t := by
  induction t with
  | nil => simpa [put] using h
  | cons q t ih =>
      obtain ⟨k, v⟩ := q
      rw [put] at h
      split at h
      · next heq =>
        rcases List.mem_cons.1 h with hp | hp
        · exact .inl (heq ▸ hp)
        · exact .inr (List.mem_cons_of_mem _ hp)
      · rcases List.mem_cons.1 h with hp | hp
        · exact .inr (hp ▸ List.mem_cons_self)
        · exact (ih hp).imp_right (List.mem_cons_of_mem _)

/-- If what is stored under a key gains one item, so does the whole table. -/
theorem perm_flatMap_put {t : Table κ ν} {key : κ} {x : ν} {f : ν → List α} {a : α}
    (h : (f x).Perm (a :: (value? t key).toList.flatMap f)) :
    ((put t key x).flatMap fun p => f p.2).Perm (a :: t.flatMap fun p => f p.2) := by
  induction t with
  | nil => simpa [put] using h
  | cons q t ih =>
      obtain ⟨k, v⟩ := q
      rw [value?_cons] at h
      rw [put]
      split at h
      · next heq =>
        rw [if_pos heq, List.flatMap_cons, List.flatMap_cons]
        simpa using h.append_right (t.flatMap fun p => f p.2)
      · next hne =>
        rw [if_neg hne, List.flatMap_cons, List.flatMap_cons]
        exact ((ih h).append_left (f v)).trans List.perm_middle

end Table

namespace Tree

variable {H : Type}

mutual

/-- The nodes of a tree, its root first. -/
def nodes : Tree H → List (Tree H)
  | ⟨fixed, param, wildcard, here⟩ =>
    ⟨fixed, param, wildcard, here⟩ :: (fixedNodes fixed ++ paramNodes param)

/-- The nodes of the children that are reached by fixed text. -/
def fixedNodes : List (String × Tree H) → List (Tree H)
  | [] => []
  | (_, t) :: l => nodes t ++ fixedNodes l

/-- The nodes of the child that is reached by a parameter. -/
def paramNodes : Option (String × Tree H) → List (Tree H)
  | none => []
  | some (_, t) => nodes t

end

/-- The values in the slots of a tree, those of all its nodes. -/
def values (t : Tree H) : List H := t.nodes.flatMap fun n => n.here.toList ++ n.wildcard.toList

theorem fixedNodes_eq (l : List (String × Tree H)) : fixedNodes l = l.flatMap (·.2.nodes) := by
  induction l with
  | nil => rfl
  | cons p l ih => rw [fixedNodes, ih, List.flatMap_cons]

theorem paramNodes_eq (o : Option (String × Tree H)) :
    paramNodes o = o.toList.flatMap (·.2.nodes) := by
  cases o with
  | none => rfl
  | some p => simp [paramNodes]

theorem nodes_eq (t : Tree H) :
    t.nodes = t :: (t.fixed.flatMap (·.2.nodes) ++ t.param.toList.flatMap (·.2.nodes)) := by
  obtain ⟨fixed, param, wildcard, here⟩ := t
  rw [nodes, fixedNodes_eq, paramNodes_eq]

theorem mem_nodes_iff {t n : Tree H} :
    n ∈ t.nodes ↔ n = t ∨ (∃ p ∈ t.fixed, n ∈ p.2.nodes) ∨ ∃ p ∈ t.param, n ∈ p.2.nodes := by
  rw [nodes_eq, List.mem_cons, List.mem_append, List.mem_flatMap, List.mem_flatMap]
  simp only [Option.mem_toList, Option.mem_def]

theorem values_eq (t : Tree H) :
    t.values = (t.here.toList ++ t.wildcard.toList) ++
      (t.fixed.flatMap (·.2.values) ++ t.param.toList.flatMap (·.2.values)) := by
  rw [values, nodes_eq, List.flatMap_cons, List.flatMap_append, List.flatMap_assoc,
    List.flatMap_assoc]
  rfl

@[simp] theorem values_empty : (empty : Tree H).values = [] := rfl

theorem values_child (text : String) (t : Tree H) :
    (t.child text).values = (Table.value? t.fixed text).toList.flatMap values := by
  rw [child]
  cases Table.value? t.fixed text with
  | none => rfl
  | some c => simp

/-- Every node of the tree leads to a value. -/
def Live (t : Tree H) : Prop := ∀ n ∈ t.nodes, n.values ≠ []

theorem live_iff {t : Tree H} :
    t.Live ↔ t.values ≠ [] ∧ (∀ p ∈ t.fixed, p.2.Live) ∧ ∀ p ∈ t.param, p.2.Live := by
  constructor
  · intro h
    refine ⟨h t (mem_nodes_iff.2 (.inl rfl)), fun p hp n hn => ?_, fun p hp n hn => ?_⟩
    · exact h n (mem_nodes_iff.2 (.inr (.inl ⟨p, hp, hn⟩)))
    · exact h n (mem_nodes_iff.2 (.inr (.inr ⟨p, hp, hn⟩)))
  · rintro ⟨hroot, hfixed, hparam⟩ n hn
    rcases mem_nodes_iff.1 hn with rfl | ⟨p, hp, hn⟩ | ⟨p, hp, hn⟩
    · exact hroot
    · exact hfixed p hp n hn
    · exact hparam p hp n hn

/-- All children are live, while the root may still be without a value. -/
structure Pruned (t : Tree H) : Prop where
  fixed : ∀ p ∈ t.fixed, p.2.Live
  param : ∀ p ∈ t.param, p.2.Live

theorem Pruned.live {t : Tree H} (h : t.Pruned) (hroot : t.values ≠ []) : t.Live :=
  live_iff.2 ⟨hroot, h.fixed, h.param⟩

theorem pruned_empty : (empty : Tree H).Pruned :=
  ⟨fun _ hp => absurd hp List.not_mem_nil, fun _ hp => absurd hp (Option.not_mem_none _)⟩

theorem Live.pruned {t : Tree H} (h : t.Live) : t.Pruned :=
  ⟨(live_iff.1 h).2.1, (live_iff.1 h).2.2⟩

theorem Pruned.child {t : Tree H} (h : t.Pruned) (text : String) : (t.child text).Pruned := by
  rw [Tree.child]
  cases hc : Table.value? t.fixed text with
  | none => exact pruned_empty
  | some c => exact (h.fixed _ (Table.mem_of_value? hc)).pruned

/-! ## Insertion, node by node -/

section Insert

variable {value : H}

/-- An insertion that succeeds adds one value. -/
theorem values_insert {p : Pattern} {t : Tree H} (h : (insert value p t).2 = .ok ()) :
    (insert value p t).1.values.Perm (value :: t.values) := by
  induction p generalizing t with
  | nil =>
      rw [insert] at h ⊢
      split at h
      · cases h
      · next hfree =>
        rw [if_neg hfree, values_eq, values_eq t, Option.not_isSome_iff_eq_none.1 hfree]
        exact .refl _
  | cons a p ih =>
      cases a with
      | wildcard =>
          rw [insert] at h ⊢
          split at h
          · cases h
          · next hfree =>
            rw [if_neg hfree, values_eq, values_eq t, Option.not_isSome_iff_eq_none.1 hfree,
              ← List.cons_append]
            exact List.perm_middle.append_right _
      | fixed text =>
          rw [insert_fixed] at h ⊢
          have hchild := ih h
          rw [values_child] at hchild
          rw [values_eq, values_eq t]
          refine (List.Perm.append_left _ ?_).trans List.perm_middle
          exact (Table.perm_flatMap_put hchild).append_right _
      | param name =>
          have hadded : ∀ {old new : Option (String × Tree H)},
              (new.toList.flatMap (·.2.values)).Perm (value :: old.toList.flatMap (·.2.values)) →
              t.param = old → (values { t with param := new }).Perm (value :: t.values) := by
            rintro _ new hnew rfl
            rw [values_eq, values_eq t]
            refine (List.Perm.append_left _ ?_).trans List.perm_middle
            exact (hnew.append_left _).trans List.perm_middle
          cases hc : t.param with
          | none =>
              rw [insert_param_none hc] at h ⊢
              exact hadded (by simpa using ih h) hc
          | some old =>
              obtain ⟨existing, c⟩ := old
              by_cases hne : existing = name
              · subst hne
                rw [insert_param_some hc] at h ⊢
                exact hadded (by simpa using ih h) hc
              · rw [insert_param_of_ne hc hne] at h
                cases h

theorem values_insert_ne_nil {p : Pattern} {t : Tree H} (h : (insert value p t).2 = .ok ()) :
    (insert value p t).1.values ≠ [] := by
  intro hnil
  have hperm := values_insert h
  rw [hnil] at hperm
  exact List.not_perm_nil_cons _ _ hperm

theorem Pruned.insert {p : Pattern} {t : Tree H} (ht : t.Pruned)
    (h : (insert value p t).2 = .ok ()) : (insert value p t).1.Pruned := by
  induction p generalizing t with
  | nil =>
      rw [Tree.insert]
      split
      · exact ht
      · exact ⟨ht.fixed, ht.param⟩
  | cons a p ih =>
      cases a with
      | wildcard =>
          rw [Tree.insert]
          split
          · exact ht
          · exact ⟨ht.fixed, ht.param⟩
      | fixed text =>
          rw [insert_fixed] at h ⊢
          refine ⟨fun q hq => ?_, ht.param⟩
          rcases Table.mem_put hq with rfl | hq
          · exact (ih (ht.child text) h).live (values_insert_ne_nil h)
          · exact ht.fixed q hq
      | param name =>
          -- the child that the insertion leaves has the new value
          have hreplaced : ∀ {c : Tree H}, c.Pruned → (Tree.insert value p c).2 = .ok () →
              ({ t with param := some (name, (Tree.insert value p c).1) } : Tree H).Pruned := by
            intro c hc hok
            refine ⟨ht.fixed, ?_⟩
            rintro _ ⟨⟩
            exact (ih hc hok).live (values_insert_ne_nil hok)
          cases hc : t.param with
          | none =>
              rw [insert_param_none hc] at h ⊢
              exact hreplaced pruned_empty h
          | some old =>
              obtain ⟨existing, c⟩ := old
              by_cases hne : existing = name
              · subst hne
                rw [insert_param_some hc] at h ⊢
                exact hreplaced (ht.param _ hc).pruned h
              · rw [insert_param_of_ne hc hne] at h
                cases h

end Insert

end Tree

/-! ## Routers -/

namespace Router

variable {H : Type}

/-- The values in the slots of a router, over all methods. -/
def values (r : Router H) : List H := r.trees.flatMap fun entry => entry.2.values

/-- A tree is made for a method only together with a value in it, and each value counts. -/
structure Pruned (r : Router H) : Prop where
  live : ∀ entry ∈ r.trees, entry.2.Live
  size : r.size = r.values.length

theorem pruned_new : (empty : Router H).Pruned :=
  ⟨fun _ h => absurd h List.not_mem_nil, rfl⟩

theorem Pruned.tree {r : Router H} (hr : r.Pruned) (method : Method) : (r.tree method).Pruned := by
  rw [Router.tree]
  cases ht : Table.value? r.trees method with
  | none => exact Tree.pruned_empty
  | some t => exact (hr.live _ (Table.mem_of_value? ht)).pruned

theorem values_tree (r : Router H) (method : Method) :
    (r.tree method).values = (Table.value? r.trees method).toList.flatMap Tree.values := by
  rw [tree]
  cases Table.value? r.trees method with
  | none => rfl
  | some t => simp

theorem Pruned.add {r : Router H} (hr : r.Pruned) (method : Method) (path : String) (value : H) :
    (r.add method path value).1.Pruned := by
  cases h : (r.add method path value).2 with
  | error cause =>
      rw [add_eq_self_of_error h]
      exact hr
  | ok u =>
      obtain ⟨p, hp, hi⟩ := parse_of_add_ok h
      rw [add_of_insert_ok hp hi]
      constructor
      · intro entry hentry
        rcases Table.mem_put hentry with rfl | hentry
        · exact ((hr.tree method).insert hi).live (Tree.values_insert_ne_nil hi)
        · exact hr.live entry hentry
      · have hperm := Tree.values_insert hi
        rw [values_tree] at hperm
        have hlength := (Table.perm_flatMap_put hperm).length_eq
        rw [List.length_cons] at hlength
        show r.size + 1 = _
        rw [hr.size]
        exact hlength.symm

theorem Pruned.run {r : Router H} (hr : r.Pruned) (l : List (Registration H)) :
    (r.run l).Pruned := by
  induction l generalizing r with
  | nil => exact hr
  | cons g l ih => exact ih (hr.add g.method g.path g.value)

/-- Patterns were added one after another, some of them in vain. If one more is refused, the router
is what it was before: no tree has another node, another parameter or another value, no method has
a tree that it did not have, and the size is the same. This is so since of all nodes of all trees,
the roots among them, there is none that leads to no value. The size is the number of the filled
slots, those at the ends of patterns and those of wildcards. -/
theorem refused_leaves_no_trace (l : List (Registration H)) :
    let r := (empty : Router H).run l
    (∀ (g : Registration H) (cause : AddError),
      (r.add g.method g.path g.value).2 = .error cause → (r.add g.method g.path g.value).1 = r) ∧
    (∀ method t, (method, t) ∈ r.trees → ∀ n ∈ t.nodes,
      ∃ d ∈ n.nodes, d.here.isSome ∨ d.wildcard.isSome) ∧
    r.size = (r.trees.flatMap fun entry => entry.2.nodes.flatMap fun n =>
      n.here.toList ++ n.wildcard.toList).length := by
  intro r
  have hr : r.Pruned := pruned_new.run l
  refine ⟨fun g cause h => add_eq_self_of_error h, fun method t ht n hn => ?_, hr.size⟩
  have hvalues : n.values ≠ [] := hr.live _ ht n hn
  obtain ⟨v, hv⟩ := List.exists_mem_of_ne_nil _ hvalues
  obtain ⟨d, hd, hv⟩ := List.mem_flatMap.1 hv
  refine ⟨d, hd, (List.mem_append.1 hv).imp ?_ ?_⟩
  · intro hhere
    rw [Option.mem_toList.1 hhere]
    rfl
  · intro hwildcard
    rw [Option.mem_toList.1 hwildcard]
    rfl

/-- A pattern that is refused at its second part, where it meets a parameter of another name. -/
theorem refused_leaves_no_trace_renamed :
    let r := (empty : Router Nat).run [⟨.get, "/users/:id", 1⟩, ⟨.get, "/users/*", 2⟩]
    let refused := r.add .get "/users/:name/posts" 3
    refused.2 = .error (.conflict .get [.fixed "users", .param "name", .fixed "posts"]
      (.renamed "name" "id")) ∧ refused.1 = r ∧ r.size = 2 := by
  intro r refused
  have h : refused.2 = .error (.conflict .get [.fixed "users", .param "name", .fixed "posts"]
      (.renamed "name" "id")) := by decide
  exact ⟨h, (refused_leaves_no_trace _).1 ⟨.get, "/users/:name/posts", 3⟩ _ h, by decide⟩

end Router

end Switchboard
