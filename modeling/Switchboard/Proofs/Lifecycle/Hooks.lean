import Mathlib.Data.List.Basic
import Mathlib.Data.List.Range
import Switchboard.Lifecycle.Basic

set_option autoImplicit false

/-! # The shared state of a server

What holds of a server whatever its calls have done so far (`Server.Sound`), and what one call may
do to it without disturbing another one (`Server.Spares`).

The hooks registered before the shutdown began are the early ones. A pass over the hooks can be
given up halfway and taken up by another call, which starts again with the newest hook and may have
more hooks in its list. What survives is a number `k`: the early hooks from `k` on have run, in
reverse order, and those below `k` have not (`Server.Awaits`). -/

namespace Switchboard

namespace Phase

variable {p : Phase}

theorem one_le_rank (h : p ≠ created) : 1 ≤ p.rank := by
  cases p with
  | created => exact absurd rfl h
  | running | shuttingDown | stopped => decide

theorem ne_created (h : 1 ≤ p.rank) : p ≠ created := by
  rintro rfl
  exact absurd h (by decide)

theorem two_le_rank (h : 1 ≤ p.rank) (hne : p ≠ running) : 2 ≤ p.rank := by
  cases p with
  | created => exact absurd h (by decide)
  | running => exact absurd rfl hne
  | shuttingDown | stopped => decide

theorem eq_shuttingDown (h : 2 ≤ p.rank) (hne : p ≠ stopped) : p = shuttingDown := by
  cases p with
  | created | running => exact absurd h (by decide)
  | shuttingDown => rfl
  | stopped => exact absurd rfl hne

end Phase

/-- The hook was registered before the shutdown began. -/
def Hook.isEarly (h : Hook) : Bool := h.registeredIn.rank ≤ 1

namespace Cell

variable {c : Cell} {call : Nat}

theorem release_of_ne (h : c ≠ .held call) : c.release call = c := by
  cases c with
  | held i =>
      rw [release, if_neg]
      rintro rfl
      exact h rfl
  | empty | full => rfl

theorem release_ne_held : c.release call ≠ .held call := by
  cases c with
  | held i =>
      rw [release]
      split
      · exact Cell.noConfusion
      · next hne =>
        intro h
        cases h
        exact hne rfl
  | empty | full => exact Cell.noConfusion

theorem release_eq_full_iff : c.release call = .full ↔ c = .full := by
  cases c with
  | held i =>
      rw [release]
      split <;> simp
  | empty | full => rfl

end Cell

namespace Server

section Defs

variable (s : Server)

/-- The number of early hooks. -/
def early : Nat := s.hooks.countP Hook.isEarly

/-- The places of the hooks that have run, in the order in which they ran. -/
def places : List Nat := s.ran.map (·.1)

/-- What a hook has noted in a phase. -/
def noted (r : Nat × Phase) : List String := ((s.hooks[r.1]?).map (·.note r.2)).getD []

/-- Of the early hooks those below `k` are still to run. The others have run, newest first. -/
structure Awaits (k : Nat) : Prop where
  le : k ≤ s.early
  split : s.places.filter (· < s.early) ++ (List.range k).reverse = (List.range s.early).reverse

/-- What holds of a server at any time. -/
structure Sound : Prop where
  /-- The early hooks are the first ones. -/
  early_iff : ∀ i hook, s.hooks[i]? = some hook → (hook.isEarly ↔ i < s.early)
  /-- Before the shutdown all hooks are early, and none has run. -/
  before : s.phase.rank ≤ 1 → s.early = s.hooks.length ∧ s.ran = []
  during : ∀ r ∈ s.ran, r.1 < s.hooks.length ∧ r.2 = .shuttingDown
  nodup : s.places.Nodup
  awaits : ∃ k, s.Awaits k
  notes : s.notes = s.ran.flatMap s.noted
  /-- The hooks are touched after the shutdown has begun. -/
  begun : s.finished ≠ .empty → 2 ≤ s.phase.rank
  stopped : s.phase = .stopped → s.Awaits 0 ∧ s.finished ≠ .empty
  full : s.finished = .full → s.phase = .stopped
  shut : s.shut = .full → s.finished = .full

/-- A call that holds no cell for the hooks. -/
def Free (call : Nat) : Prop := s.finished ≠ .held call

end Defs

theorem free_of_held {s : Server} {call j : Nat} (h : s.finished = .held call) (hj : j ≠ call) :
    s.Free j := by
  intro hheld
  rw [h] at hheld
  exact hj (Cell.held.inj hheld).symm

theorem free_of_empty {s : Server} {j : Nat} (h : s.finished = .empty) : s.Free j := by
  intro hheld
  rw [h] at hheld
  cases hheld

theorem Awaits.congr {s s' : Server} {k : Nat} (h : s.Awaits k) (hran : s'.ran = s.ran)
    (hearly : s'.early = s.early) : s'.Awaits k := by
  have hplaces : s'.places = s.places := by rw [places, hran, places]
  exact ⟨hearly ▸ h.le, by rw [hplaces, hearly, h.split]⟩

/-! ## One hook -/

section RunHook

variable {s : Server} {next : Nat}

theorem exists_runHook_eq (s : Server) (next : Nat) :
    ∃ ran notes, s.runHook next = { s with ran, notes } := by
  rw [runHook]
  split
  · exact ⟨_, _, rfl⟩
  · split
    · exact ⟨_, _, rfl⟩
    · exact ⟨_, _, rfl⟩

@[simp] theorem runHook_phase : (s.runHook next).phase = s.phase := by
  obtain ⟨_, _, h⟩ := exists_runHook_eq s next
  rw [h]

@[simp] theorem runHook_hooks : (s.runHook next).hooks = s.hooks := by
  obtain ⟨_, _, h⟩ := exists_runHook_eq s next
  rw [h]

@[simp] theorem runHook_finished : (s.runHook next).finished = s.finished := by
  obtain ⟨_, _, h⟩ := exists_runHook_eq s next
  rw [h]

@[simp] theorem runHook_shut : (s.runHook next).shut = s.shut := by
  obtain ⟨_, _, h⟩ := exists_runHook_eq s next
  rw [h]

@[simp] theorem runHook_served : (s.runHook next).served = s.served := by
  obtain ⟨_, _, h⟩ := exists_runHook_eq s next
  rw [h]

theorem runHook_early : (s.runHook next).early = s.early := by rw [early, runHook_hooks, early]

theorem runHook_of_mem (h : next ∈ s.places) : s.runHook next = s := by
  have hany : s.ran.any (·.1 = next) = true := by
    obtain ⟨r, hr, rfl⟩ := List.mem_map.1 h
    exact List.any_eq_true.2 ⟨r, hr, by simp⟩
  rw [runHook]
  split
  · rfl
  · rw [if_pos hany]

theorem runHook_of_not_mem {hook : Hook} (hhook : s.hooks[next]? = some hook)
    (h : next ∉ s.places) :
    s.runHook next = { s with
      ran := s.ran ++ [(next, s.phase)], notes := s.notes ++ hook.note s.phase } := by
  have hany : ¬ s.ran.any (·.1 = next) = true := by
    intro hany
    obtain ⟨r, hr, heq⟩ := List.any_eq_true.1 hany
    exact h (List.mem_map.2 ⟨r, hr, of_decide_eq_true heq⟩)
  simp only [runHook, hhook, if_neg hany]

/-- An early hook that is not awaited has run. -/
theorem Awaits.mem_places {k i : Nat} (h : s.Awaits k) (hi : i < s.early) :
    i ∈ s.places ↔ k ≤ i := by
  have hnodup : (s.places.filter (· < s.early) ++ (List.range k).reverse).Nodup := by
    rw [h.split]
    exact (List.reverse_perm _).nodup_iff.2 List.nodup_range
  have hmem : i ∈ s.places.filter (· < s.early) ++ (List.range k).reverse := by
    rw [h.split]
    simpa using hi
  have hfilter : i ∈ s.places.filter (· < s.early) ↔ i ∈ s.places := by simp [hi]
  rw [← hfilter]
  rcases List.mem_append.1 hmem with hran | hrange
  · refine iff_of_true hran (Nat.le_of_not_lt fun hlt => ?_)
    exact (List.nodup_append.1 hnodup).2.2 i hran i (by simpa using hlt) rfl
  · refine iff_of_false (fun hran => ?_) (by simpa using hrange)
    exact (List.nodup_append.1 hnodup).2.2 i hran i hrange rfl

/-- After the next hook of a pass only older ones can be awaited. -/
theorem Awaits.runHook {k : Nat} (h : s.Awaits k) (hk : k ≤ next + 1)
    (hnext : next < s.hooks.length) : ∃ k' ≤ next, (s.runHook next).Awaits k' := by
  by_cases hran : next ∈ s.places
  · rw [runHook_of_mem hran]
    refine ⟨k, ?_, h⟩
    by_contra hlt
    have hearly : next < s.early := Nat.lt_of_lt_of_le (by omega) h.le
    exact hlt ((h.mem_places hearly).1 hran)
  · have hrun := runHook_of_not_mem (List.getElem?_eq_getElem hnext) hran
    have hplaces : (s.runHook next).places = s.places ++ [next] := by
      rw [hrun, places, List.map_append]
      rfl
    by_cases hearly : next < s.early
    · -- an early hook that has not run is awaited, so it is the newest one that is
      have hlt : ¬ k ≤ next := fun hle => hran ((h.mem_places hearly).2 hle)
      obtain rfl : k = next + 1 := by omega
      refine ⟨next, Nat.le_refl _, by rw [runHook_early]; omega, ?_⟩
      have hsplit := h.split
      rw [List.range_succ, List.reverse_append, List.reverse_singleton] at hsplit
      rw [runHook_early, hplaces, List.filter_append, ← hsplit, List.append_assoc]
      simp [hearly]
    · refine ⟨k, Nat.le_trans h.le (Nat.le_of_not_lt hearly), by rw [runHook_early]; exact h.le, ?_⟩
      rw [runHook_early, hplaces, List.filter_append, ← h.split]
      simp [hearly]

/-- Running a hook while the server shuts down. -/
theorem Sound.runHook (h : s.Sound) (hphase : s.phase = .shuttingDown)
    (hnext : next < s.hooks.length) {k : Nat} (hk : s.Awaits k) (hle : k ≤ next + 1) :
    (s.runHook next).Sound := by
  by_cases hran : next ∈ s.places
  · rwa [runHook_of_mem hran]
  · have hrun := runHook_of_not_mem (List.getElem?_eq_getElem hnext) hran
    constructor
    · intro i hook
      rw [runHook_hooks, runHook_early]
      exact h.early_iff i hook
    · rw [runHook_phase, hphase]
      intro hrank
      exact absurd hrank (by decide)
    · intro r hr
      rw [runHook_hooks]
      rw [hrun] at hr
      rcases List.mem_append.1 hr with hr | hr
      · exact h.during r hr
      · obtain rfl := List.mem_singleton.1 hr
        exact ⟨hnext, hphase⟩
    · rw [hrun, places, List.map_append]
      refine List.nodup_append.2 ⟨h.nodup, by simp, ?_⟩
      intro i hi j hj
      obtain rfl := List.mem_singleton.1 hj
      rintro rfl
      exact hran hi
    · obtain ⟨k', -, hk'⟩ := hk.runHook hle hnext
      exact ⟨k', hk'⟩
    · rw [hrun]
      show s.notes ++ _ = (s.ran ++ [(next, s.phase)]).flatMap s.noted
      rw [List.flatMap_append, ← h.notes, List.flatMap_singleton, noted,
        List.getElem?_eq_getElem hnext]
      rfl
    · rw [runHook_phase, runHook_finished]
      exact h.begun
    · rw [runHook_phase, hphase]
      intro hstop
      cases hstop
    · rw [runHook_phase, runHook_finished]
      exact h.full
    · rw [runHook_shut, runHook_finished]
      exact h.shut

end RunHook

/-! ## Steps of one call -/

/-- Nothing happens that the call `j` relies on not to happen. The server does not go back, and
while `j` holds the cell for the hooks, its phase and its early hooks are left to `j`. -/
structure Spares (j : Nat) (s s' : Server) : Prop where
  rank_le : s.phase.rank ≤ s'.phase.rank
  length_le : s.hooks.length ≤ s'.hooks.length
  held_iff : s'.finished = .held j ↔ s.finished = .held j
  kept : s.finished = .held j → s'.phase = s.phase ∧ s'.ran = s.ran ∧ s'.early = s.early
  full : s.finished = .full → s'.finished = .full
  served : s.served → s'.served

/-- A step that a call takes: the server goes on by at most one phase, and the step spares all
other calls. -/
structure Moves (call : Nat) (s s' : Server) : Prop where
  sound : s'.Sound
  phase : s'.phase = s.phase ∨ s'.phase.rank = s.phase.rank + 1
  others : ∀ j, j ≠ call → Spares j s s'

/-- What comes of a step of a call: the server moves, and the stage that follows fits. -/
structure Leads {α : Type} (call : Nat) (s : Server) (fits : Nat → Server → α → Prop)
    (r : Server × α) : Prop where
  moves : Moves call s r.1
  fits : fits call r.1 r.2

section Steps

variable {s s' : Server} {call : Nat}

theorem Spares.free {j : Nat} (hs : Spares j s s') (h : s.Free j) : s'.Free j :=
  fun hheld => h (hs.held_iff.1 hheld)

/-- What is served stays served, as any other call sees it. -/
theorem Moves.served (h : Moves call s s') : s.served → s'.served :=
  (h.others (call + 1) (Nat.succ_ne_self _)).served

theorem Moves.rank_le (h : Moves call s s') : s.phase.rank ≤ s'.phase.rank :=
  (h.others (call + 1) (Nat.succ_ne_self _)).rank_le

/-- A step that leaves the hooks alone, and those that have run. -/
theorem Sound.congr (h : s.Sound) (hhooks : s'.hooks = s.hooks) (hran : s'.ran = s.ran)
    (hnotes : s'.notes = s.notes) (hbefore : s'.phase.rank ≤ 1 → s.phase.rank ≤ 1)
    (hbegun : s'.finished ≠ .empty → 2 ≤ s'.phase.rank)
    (hstopped : s'.phase = .stopped → s.Awaits 0 ∧ s'.finished ≠ .empty)
    (hfull : s'.finished = .full → s'.phase = .stopped)
    (hshut : s'.shut = .full → s'.finished = .full) : s'.Sound := by
  have hearly : s'.early = s.early := by rw [early, hhooks, early]
  have hnoted : s'.noted = s.noted := by
    funext r
    rw [noted, hhooks, noted]
  constructor
  · rw [hhooks, hearly]
    exact h.early_iff
  · intro hrank
    rw [hhooks, hearly, hran]
    exact h.before (hbefore hrank)
  · rw [hhooks, hran]
    exact h.during
  · rw [places, hran]
    exact h.nodup
  · obtain ⟨k, hk⟩ := h.awaits
    exact ⟨k, hk.congr hran hearly⟩
  · rw [hnotes, hran, hnoted]
    exact h.notes
  · exact hbegun
  · intro hphase
    obtain ⟨hawaits, hcell⟩ := hstopped hphase
    exact ⟨hawaits.congr hran hearly, hcell⟩
  · exact hfull
  · exact hshut

/-- What touches neither the phase nor the hooks and their cell spares every call. -/
theorem Sound.spares_of_same (h : s.Sound) (hphase : s'.phase = s.phase)
    (hhooks : s'.hooks = s.hooks) (hran : s'.ran = s.ran) (hnotes : s'.notes = s.notes)
    (hcell : s'.finished = s.finished) (hserved : s.served → s'.served)
    (hshut : s'.shut = .full → s.finished = .full) : s'.Sound ∧ ∀ j, Spares j s s' := by
  have hearly : s'.early = s.early := by rw [early, hhooks, early]
  constructor
  · refine h.congr hhooks hran hnotes ?_ ?_ ?_ ?_ ?_
    · rw [hphase]
      exact id
    · rw [hphase, hcell]
      exact h.begun
    · rw [hphase, hcell]
      exact h.stopped
    · rw [hphase, hcell]
      exact h.full
    · rw [hcell]
      exact hshut
  · intro j
    constructor
    · rw [hphase]
    · rw [hhooks]
    · rw [hcell]
    · exact fun _ => ⟨hphase, hran, hearly⟩
    · rw [hcell]
      exact id
    · exact hserved

theorem Sound.spares_inFlight (h : s.Sound) (n : Nat) :
    { s with inFlight := n }.Sound ∧ ∀ j, Spares j s { s with inFlight := n } :=
  h.spares_of_same rfl rfl rfl rfl rfl id h.shut

theorem Sound.moves_of_same (h : s.Sound) (hphase : s'.phase = s.phase)
    (hhooks : s'.hooks = s.hooks) (hran : s'.ran = s.ran) (hnotes : s'.notes = s.notes)
    (hcell : s'.finished = s.finished) (hserved : s.served → s'.served)
    (hshut : s'.shut = .full → s.finished = .full) : Moves call s s' := by
  obtain ⟨hsound, hspares⟩ := h.spares_of_same hphase hhooks hran hnotes hcell hserved hshut
  exact ⟨hsound, .inl hphase, fun j _ => hspares j⟩

theorem Sound.moves_refl (h : s.Sound) : Moves call s s :=
  h.moves_of_same rfl rfl rfl rfl rfl id h.shut

theorem awaits_of_ran_nil (h : s.ran = []) : s.Awaits s.early :=
  ⟨Nat.le_refl _, by simp [places, h]⟩

theorem early_register (note : Phase → List String) :
    (s.register note).early = s.early + if s.phase.rank ≤ 1 then 1 else 0 := by
  rw [early, Server.register, List.countP_append, early]
  simp [Hook.isEarly]

theorem Sound.register (h : s.Sound) (note : Phase → List String) : (s.register note).Sound := by
  have hlength : (s.register note).hooks.length = s.hooks.length + 1 := by simp [Server.register]
  have hsplit : ∀ i hook, (s.register note).hooks[i]? = some hook →
      s.hooks[i]? = some hook ∨ i = s.hooks.length ∧ hook = ⟨note, s.phase⟩ := by
    intro i hook hi
    rw [Server.register, List.getElem?_append] at hi
    split at hi
    · exact .inl hi
    · next hge =>
      have hlt := (List.getElem?_eq_some_iff.1 hi).1
      rw [List.length_singleton] at hlt
      obtain rfl : i = s.hooks.length := by omega
      rw [Nat.sub_self] at hi
      exact .inr ⟨rfl, (Option.some.inj hi).symm⟩
  have hnoted : ∀ r ∈ s.ran, (s.register note).noted r = s.noted r := by
    intro r hr
    rw [noted, Server.register, List.getElem?_append_left (h.during r hr).1, noted]
  have hduring : ∀ r ∈ s.ran, r.1 < (s.register note).hooks.length ∧ r.2 = .shuttingDown := by
    intro r hr
    rw [hlength]
    exact ⟨Nat.lt_succ_of_lt (h.during r hr).1, (h.during r hr).2⟩
  have hnotes : s.notes = s.ran.flatMap (s.register note).noted := by
    rw [List.flatMap_congr hnoted]
    exact h.notes
  by_cases hrank : s.phase.rank ≤ 1
  · obtain ⟨hearly, hran⟩ := h.before hrank
    have hearly' : (s.register note).early = s.early + 1 := by rw [early_register, if_pos hrank]
    have hphase : s.phase ≠ .stopped := by
      intro hstopped
      rw [hstopped] at hrank
      exact absurd hrank (by decide)
    refine ⟨?_, fun _ => ⟨by rw [hearly', hlength, hearly], hran⟩, hduring, h.nodup,
      ⟨_, awaits_of_ran_nil hran⟩, hnotes, h.begun, fun hstopped => absurd hstopped hphase,
      h.full, h.shut⟩
    intro i hook hi
    rw [hearly']
    rcases hsplit i hook hi with hold | ⟨rfl, rfl⟩
    · have hiff := h.early_iff i hook hold
      have hlt := (List.getElem?_eq_some_iff.1 hold).1
      exact iff_of_true (hiff.2 (by omega)) (by omega)
    · exact iff_of_true (decide_eq_true hrank) (by omega)
  · have hearly' : (s.register note).early = s.early := by rw [early_register, if_neg hrank]; rfl
    obtain ⟨k, hk⟩ := h.awaits
    refine ⟨?_, fun hrank' => absurd hrank' hrank, hduring, h.nodup, ⟨k, hk.congr rfl hearly'⟩,
      hnotes, h.begun, ?_, h.full, h.shut⟩
    · intro i hook hi
      rw [hearly']
      rcases hsplit i hook hi with hold | ⟨rfl, rfl⟩
      · exact h.early_iff i hook hold
      · have hle : s.early ≤ s.hooks.length := List.countP_le_length
        refine iff_of_false ?_ (by omega)
        intro h'
        exact hrank (of_decide_eq_true h')
    · intro hstopped
      obtain ⟨hawaits, hcell⟩ := h.stopped hstopped
      exact ⟨hawaits.congr rfl hearly', hcell⟩

/-- Registering a hook spares every call: it is late if a call has begun with the hooks. -/
theorem Sound.spares_register (h : s.Sound) (note : Phase → List String) (j : Nat) :
    Spares j s (s.register note) where
  rank_le := Nat.le_refl _
  length_le := by simp [Server.register]
  held_iff := Iff.rfl
  kept := by
    intro hheld
    have hrank := h.begun (by rw [hheld]; exact Cell.noConfusion)
    refine ⟨rfl, rfl, ?_⟩
    rw [early_register, if_neg (by omega), Nat.add_zero]
  full := id
  served := id

/-! ## The steps that change the phase or the cell for the hooks -/

/-- A call takes the cell for the hooks. -/
theorem Sound.moves_hold (h : s.Sound) (hcell : s.finished = .empty) (hrank : 2 ≤ s.phase.rank) :
    Moves call s { s with finished := .held call } := by
  refine ⟨?_, .inl rfl, fun j hj => ?_⟩
  · refine h.congr rfl rfl rfl id (fun _ => hrank) ?_ (fun hfull => nomatch hfull) ?_
    · intro hstopped
      exact absurd hcell (h.stopped hstopped).2
    · intro hshut
      rw [h.shut hshut] at hcell
      cases hcell
  · refine ⟨Nat.le_refl _, Nat.le_refl _, ?_, ?_, ?_, id⟩
    · rw [hcell]
      simp [Ne.symm hj]
    · exact fun hheld => absurd hheld (free_of_empty hcell)
    · intro hfull
      rw [hcell] at hfull
      cases hfull

/-- The call that holds the cell runs a hook. -/
theorem Sound.moves_runHook (h : s.Sound) (hcell : s.finished = .held call)
    (hphase : s.phase = .shuttingDown) {next k : Nat} (hnext : next < s.hooks.length)
    (hk : s.Awaits k) (hle : k ≤ next + 1) : Moves call s (s.runHook next) := by
  refine ⟨h.runHook hphase hnext hk hle, .inl runHook_phase, fun j hj => ?_⟩
  refine ⟨?_, ?_, ?_, ?_, ?_, ?_⟩
  · rw [runHook_phase]
  · rw [runHook_hooks]
  · rw [runHook_finished]
  · exact fun hheld => absurd hheld (free_of_held hcell hj)
  · rw [runHook_finished]
    exact id
  · rw [runHook_served]
    exact id

/-- The call that holds the cell makes it known that all hooks have run. -/
theorem Sound.moves_announce (h : s.Sound) (hcell : s.finished = .held call)
    (hphase : s.phase = .shuttingDown) (hawaits : s.Awaits 0) :
    Moves call s { s with phase := .stopped } := by
  have hstop : 2 ≤ Phase.stopped.rank := by decide
  refine ⟨?_, ?_, fun j hj => ?_⟩
  · refine h.congr rfl rfl rfl ?_ (fun _ => hstop) ?_ (fun _ => rfl) h.shut
    · intro hrank
      exact absurd (Nat.le_trans hstop hrank) (by decide)
    · intro _
      exact ⟨hawaits, by simp [hcell]⟩
  · rw [hphase]
    exact .inr rfl
  · refine ⟨?_, Nat.le_refl _, Iff.rfl, ?_, id, id⟩
    · rw [hphase]
      exact hstop
    · exact fun hheld => absurd hheld (free_of_held hcell hj)

/-- The call that holds the cell fills it. -/
theorem Sound.moves_fill (h : s.Sound) (hcell : s.finished = .held call)
    (hphase : s.phase = .stopped) : Moves call s { s with finished := .full } := by
  refine ⟨?_, .inl rfl, fun j hj => ?_⟩
  · refine h.congr rfl rfl rfl id ?_ ?_ (fun _ => hphase) (fun _ => rfl)
    · intro _
      rw [hphase]
      decide
    · intro hstopped
      exact ⟨(h.stopped hstopped).1, Cell.noConfusion⟩
  · refine ⟨Nat.le_refl _, Nat.le_refl _, ?_, ?_, fun _ => rfl, id⟩
    · rw [hcell]
      simp [Ne.symm hj]
    · exact fun hheld => absurd hheld (free_of_held hcell hj)

/-- The phase goes on by one, while no call has begun with the hooks. -/
theorem Sound.moves_phase (h : s.Sound) {phase : Phase} (hrank : s.phase.rank ≤ 1)
    (hnext : phase.rank = s.phase.rank + 1) : Moves call s { s with phase } := by
  have hcell : s.finished = .empty := by
    by_contra hne
    have hbegun := h.begun hne
    omega
  have hphase : phase ≠ .stopped := by
    rintro rfl
    rw [Phase.rank] at hnext
    omega
  refine ⟨?_, .inr hnext, fun j _ => ?_⟩
  · refine h.congr rfl rfl rfl (fun _ => hrank) (fun hne => absurd hcell hne) ?_ ?_ h.shut
    · intro hstopped
      exact absurd hstopped hphase
    · intro hfull
      rw [hcell] at hfull
      cases hfull
  · refine ⟨?_, Nat.le_refl _, Iff.rfl, ?_, id, id⟩
    · show s.phase.rank ≤ phase.rank
      omega
    · exact fun hheld => absurd hheld (free_of_empty hcell)

/-- A call gives back its cells before it has made it known that all hooks have run. -/
theorem Sound.moves_release (h : s.Sound)
    (hphase : s.finished = .held call → s.phase = .shuttingDown) :
    Moves call s (s.release call) := by
  have hshut : (s.release call).shut = .full → s.finished = .full :=
    fun hfull => h.shut (Cell.release_eq_full_iff.1 hfull)
  by_cases hheld : s.finished = .held call
  · have hcell : (s.release call).finished = .empty := by
      rw [release, hheld, Cell.release, if_pos rfl]
    refine ⟨?_, .inl rfl, fun j hj => ?_⟩
    · refine h.congr rfl rfl rfl id (fun hne => absurd hcell hne) ?_ ?_ ?_
      · intro hstopped
        rw [release, hphase hheld] at hstopped
        cases hstopped
      · intro hfull
        rw [hcell] at hfull
        cases hfull
      · intro hfull
        rw [hshut hfull] at hheld
        cases hheld
    · refine ⟨Nat.le_refl _, Nat.le_refl _, ?_, ?_, ?_, id⟩
      · rw [hcell, hheld]
        simp [Ne.symm hj]
      · exact fun hheld' => absurd hheld' (free_of_held hheld hj)
      · intro hfull
        rw [hheld] at hfull
        cases hfull
  · have hcell : (s.release call).finished = s.finished := Cell.release_of_ne hheld
    exact h.moves_of_same rfl rfl rfl rfl hcell id hshut

theorem free_release : (s.release call).Free call := Cell.release_ne_held

end Steps

end Server

end Switchboard
