import Mathlib.Data.List.Induction
import Switchboard.Lifecycle.Session
import Switchboard.Proofs.Lifecycle.Shutdown

set_option autoImplicit false

/-! # What a step can do, and what has happened

What a call returns is explained by events that lie behind it. `Machine.Happened` says that such an
event is among those of a run, at a time when the machine was as the event needs it.

A step of a machine is taken by one call or by none (`Machine.idle_or_steps`). What matters of a
call is mostly the shutdown inside it (`Call.closing?`), so the steps are sorted by it, once:
`Machine.shifts` says how that shutdown can change, and `Machine.exists_touched` that hooks run, and
the server is stopped, only where a call is polled whose shutdown is at the hooks.
-/

namespace Switchboard

open Server (Leads Spares)

/-! ## The shutdown inside a call -/

namespace Server

/-- A step that is not one of a shutdown: no hook runs, and the server is not stopped by it. -/
structure Apart (s s' : Server) : Prop where
  config : s'.config = s.config
  ran : s'.ran = s.ran
  stopped_iff : s'.phase = .stopped ↔ s.phase = .stopped
  draining : s.draining → s'.draining

theorem Apart.refl (s : Server) : Apart s s := ⟨rfl, rfl, Iff.rfl, id⟩

theorem apart_of_phase {s s' : Server} (hconfig : s'.config = s.config) (hran : s'.ran = s.ran)
    (hphase : s'.phase = s.phase) (hdraining : s.draining → s'.draining) : Apart s s' :=
  ⟨hconfig, hran, by rw [hphase], hdraining⟩

@[simp] theorem runHook_config {s : Server} {next : Nat} :
    (s.runHook next).config = s.config := by
  obtain ⟨_, _, h⟩ := exists_runHook_eq s next
  rw [h]

@[simp] theorem runHook_draining {s : Server} {next : Nat} :
    (s.runHook next).draining = s.draining := by
  obtain ⟨_, _, h⟩ := exists_runHook_eq s next
  rw [h]

theorem places_subset_runHook (s : Server) (next : Nat) : s.places ⊆ (s.runHook next).places := by
  rw [runHook]
  split
  · exact List.Subset.refl _
  · split
    · exact List.Subset.refl _
    · rw [places, places, List.map_append]
      exact List.subset_append_left _ _

theorem mem_places_runHook {s : Server} {next : Nat} (h : next < s.hooks.length) :
    next ∈ (s.runHook next).places := by
  by_cases hran : next ∈ s.places
  · exact places_subset_runHook s next hran
  · rw [runHook_of_not_mem (List.getElem?_eq_getElem h) hran, places, List.map_append]
    exact List.mem_append_right _ (List.mem_singleton_self _)

/-- How the step of a call changes the server, by the shutdown inside the call, which is given with
its deadline. Only a pass over the hooks runs hooks and stops the server. -/
inductive Touched (s : Server) (i : Nat) :
    Event → Option (Option Duration × Closing) → Server → Prop
  | apart {e : Event} {k : Option (Option Duration × Closing)} {s' : Server} :
      Apart s s' → Touched s i e k s'
  | runs {timeout : Option Duration} {missed : Bool} {next : Nat} {rest : List Nat} :
      Touched s i (.poll i) (some (timeout, .hooks missed (.running next rest))) (s.runHook next)
  | announces {timeout : Option Duration} {missed : Bool} :
      Touched s i (.poll i) (some (timeout, .hooks missed .announcing))
        { s with phase := .stopped }

theorem Touched.config {s s' : Server} {i : Nat} {e : Event}
    {k : Option (Option Duration × Closing)} (h : Touched s i e k s') :
    s'.config = s.config := by
  cases h with
  | apart h => exact h.config
  | runs => exact runHook_config
  | announces => rfl

theorem Touched.draining {s s' : Server} {i : Nat} {e : Event}
    {k : Option (Option Duration × Closing)} (h : Touched s i e k s') :
    s.draining → s'.draining := by
  cases h with
  | apart h => exact h.draining
  | runs =>
      rw [runHook_draining]
      exact id
  | announces => exact id

theorem Touched.places_subset {s s' : Server} {i : Nat} {e : Event}
    {k : Option (Option Duration × Closing)} (h : Touched s i e k s') :
    s.places ⊆ s'.places := by
  cases h with
  | apart h =>
      rw [places, places, h.ran]
      exact List.Subset.refl _
  | runs => exact places_subset_runHook s _
  | announces => exact List.Subset.refl _

end Server

open Server (Apart Touched apart_of_phase)

variable {s : Server} {i : Nat}

/-- At the hooks a shutdown does what the pass over them does. -/
theorem Closing.advance_hooks_fst (missed : Bool) (pass : HookPass) (timeout : Option Duration) :
    ((hooks missed pass).advance i timeout s).1 = (pass.advance i s).1 := by
  rw [advance]
  rcases pass.advance i s with ⟨s', pass'⟩
  cases pass' <;> rfl

theorem Closing.touched_advance (k : Closing) (timeout : Option Duration) :
    Touched s i (.poll i) (some (timeout, k)) (k.advance i timeout s).1 := by
  cases k with
  | entering =>
      rw [advance]
      split <;> exact .apart (.refl s)
  | marking =>
      refine .apart ⟨rfl, rfl, ?_, id⟩
      rw [advance]
      dsimp only
      split
      · next hphase => simp [hphase]
      · rfl
  | draining expired =>
      rw [advance]
      split
      · exact .apart (.refl s)
      · split <;> exact .apart (.refl s)
  | hooks missed pass =>
      rw [advance_hooks_fst]
      cases pass with
      | waiting =>
          rw [HookPass.advance]
          split
          · exact .apart (.refl s)
          · exact .apart (apart_of_phase rfl rfl rfl id)
          · exact .apart (.refl s)
      | running next rest => exact .runs
      | announcing => exact .announces
      | filling => exact .apart (apart_of_phase rfl rfl rfl id)
      | gathering | done => exact .apart (.refl s)
  | asking => exact .apart (apart_of_phase rfl rfl rfl fun _ => rfl)
  | done | refused => exact .apart (.refl s)

/-- What a poll of the call `i` does to the server and to the shutdown inside the call, which is
given with its deadline. In a shutdown the call takes a step of it, otherwise it at most begins
one. -/
inductive Polled (i : Nat) (s : Server) :
    Option (Option Duration × Closing) → Server → Option (Option Duration × Closing) → Prop
  | ends {timeout : Option Duration} {k : Closing} :
      Polled i s (some (timeout, k)) (k.advance i timeout s).1 none
  | goesOn {timeout : Option Duration} {k : Closing} :
      Polled i s (some (timeout, k)) (k.advance i timeout s).1
        (some (timeout, (k.advance i timeout s).2))
  | apart {s' : Server} : Apart s s' → Polled i s none s' none
  | begins {s' : Server} {timeout : Option Duration} :
      Apart s s' → Polled i s none s' (some (timeout, .entering))

namespace Stopping

/-- The shutdown inside a stop. -/
def closing? (configured : Option Duration) : Stopping → Option (Option Duration × Closing)
  | .closing k => some (configured, k)
  | _ => none

theorem polled_advance (p : Stopping) :
    Polled i s (p.closing? s.config.shutdownTimeout) (p.advance i s).1
      ((p.advance i s).2.closing? s.config.shutdownTimeout) := by
  cases p with
  | entering =>
      rw [advance]
      split <;> exact .apart (.refl s)
  | waiting =>
      rw [advance]
      split
      · exact .apart (.refl s)
      · exact .begins (apart_of_phase rfl rfl rfl id)
      · exact .apart (.refl s)
  | closing k =>
      rw [advance]
      dsimp only
      split
      · exact .ends
      · exact .goesOn
  | filling => exact .apart (apart_of_phase rfl rfl rfl id)
  | done => exact .apart (.refl s)

theorem closing?_expire (configured : Option Duration) (p : Stopping) :
    p.expire.closing? configured =
      (p.closing? configured).map fun r => (r.1, r.2.expire) := by
  cases p <;> rfl

end Stopping

namespace Starting

/-- The shutdown inside a start. -/
def closing? (configured : Option Duration) : Starting → Option (Option Duration × Closing)
  | .interrupted p | .stopping _ p => p.closing? configured
  | _ => none

theorem polled_advance (p : Starting) (addr : String) :
    Polled i s (p.closing? s.config.shutdownTimeout) (p.advance i addr s).1
      ((p.advance i addr s).2.closing? s.config.shutdownTimeout) := by
  cases p with
  | entering =>
      rw [advance]
      split
      · exact .apart (.refl s)
      · split
        · next hphase => exact .apart ⟨rfl, rfl, by simp [hphase], id⟩
        · exact .apart (.refl s)
  | serving =>
      rw [advance]
      split <;> exact .apart (.refl s)
  | interrupted p | stopping outcome p =>
      have hp := p.polled_advance (i := i) (s := s)
      rw [advance]
      rcases hadvance : p.advance i s with ⟨s', p'⟩
      rw [hadvance] at hp
      cases p' <;> exact hp
  | reporting | ending => exact .apart (apart_of_phase rfl rfl rfl id)
  | binding | done | refused => exact .apart (.refl s)

theorem closing?_expire (configured : Option Duration) (p : Starting) :
    p.expire.closing? configured =
      (p.closing? configured).map fun r => (r.1, r.2.expire) := by
  cases p with
  | interrupted p | stopping outcome p => exact p.closing?_expire configured
  | entering | reporting | binding | serving | ending | done | refused => rfl

end Starting

namespace Call

/-- The shutdown inside a call with its deadline, where `configured` is the deadline of a stop. -/
def closing? (configured : Option Duration) : Call → Option (Option Duration × Closing)
  | .start _ _ p => p.closing? configured
  | .stop p => p.closing? configured
  | .shutdown own k => some (own, k)
  | _ => none

theorem polled_advance (c : Call) :
    Polled i s (c.closing? s.config.shutdownTimeout) (c.advance i s).1
      ((c.advance i s).2.closing? s.config.shutdownTimeout) := by
  cases c with
  | start addr tls p => exact p.polled_advance addr
  | stop p => exact p.polled_advance
  | shutdown own k => exact .goesOn
  | wait released => cases released <;> exact .apart (.refl s)
  | gone => exact .apart (.refl s)

theorem closing?_expire (configured : Option Duration) (c : Call) :
    c.expire.closing? configured =
      (c.closing? configured).map fun r => (r.1, r.2.expire) := by
  cases c with
  | start addr tls p => exact p.closing?_expire configured
  | stop p => exact p.closing?_expire configured
  | shutdown | wait | gone => rfl

/-- What is done to a start from outside gives up a shutdown inside it or leaves it. -/
theorem apart_onStart (configured : Option Duration) (c : Call)
    {f : Option TlsConfig → Server → Starting → Server × Starting}
    (hf : ∀ tls p, Apart s (f tls s p).1 ∧
      ((f tls s p).2.closing? configured = p.closing? configured ∨
        (f tls s p).2.closing? configured = none)) :
    Apart s (c.onStart f s).1 ∧
      ((c.onStart f s).2.closing? configured = c.closing? configured ∨
        (c.onStart f s).2.closing? configured = none) := by
  cases c with
  | start addr tls p => exact hf tls p
  | stop | shutdown | wait | gone => exact ⟨.refl s, .inl rfl⟩

end Call

/-- The call that an event is about, if it is about one. -/
def Event.call? : Event → Option Nat
  | .poll i | .drop i | .expire i | .bound i _ | .signal i _ | .drained i | .listenerFails i _ =>
    some i
  | .register _ | .start _ _ | .stop | .shutdown _ | .wait | .request | .response => none

namespace Machine

/-- The shutdown inside a call of a machine, with its deadline. -/
def closing? (m : Machine) (i : Nat) : Option (Option Duration × Closing) :=
  (m.call i).closing? m.server.config.shutdownTimeout

/-! ## What has happened -/

/-- Some event has happened, at a time when `P` held of the machine and the event. -/
def Happened (config : ServerConfig) (events : List Event) (P : Machine → Event → Prop) : Prop :=
  ∃ before e after, events = before ++ e :: after ∧ P ((new config).run before) e

section Happened

variable {config : ServerConfig} {events : List Event} {P : Machine → Event → Prop}

theorem not_happened_nil : ¬ Happened config [] P := by
  rintro ⟨before, e, after, h, -⟩
  cases before <;> cases h

theorem happened_concat {e : Event} :
    Happened config (events ++ [e]) P ↔
      Happened config events P ∨ P ((new config).run events) e := by
  constructor
  · rintro ⟨before, e', after, h, hP⟩
    cases after using List.reverseRecOn with
    | nil =>
        obtain ⟨rfl, hlast⟩ := List.append_inj' h rfl
        obtain rfl := List.singleton_inj.1 hlast
        exact .inr hP
    | append_singleton after e'' =>
        rw [← List.cons_append, ← List.append_assoc] at h
        obtain ⟨rfl, -⟩ := List.append_inj' h rfl
        exact .inl ⟨before, e', after, rfl, hP⟩
  · rintro (⟨before, e', after, rfl, hP⟩ | hP)
    · exact ⟨before, e', after ++ [e], by simp, hP⟩
    · exact ⟨events, e, [], rfl, hP⟩

theorem run_concat (m : Machine) (events : List Event) (e : Event) :
    m.run (events ++ [e]) = (m.run events).step e := run_append m events [e]

end Happened

/-! ## Steps of one call -/

/-- A call as it is when it has just been made. -/
inductive Fresh : Call → Prop
  | start (addr : String) (tls : Option TlsConfig) : Fresh (.start addr tls .entering)
  | stop : Fresh (.stop .entering)
  | shutdown (timeout : Option Duration) : Fresh (.shutdown timeout .entering)
  | wait : Fresh (.wait none)

/-- What an event makes of the server and of the call that it is about. -/
inductive Turn (s : Server) (i : Nat) (c : Call) : Event → Server × Call → Prop
  | poll : Turn s i c (.poll i) (c.advance i s)
  | drop : c.pauses → Turn s i c (.drop i) (s.release i, .gone)
  | expire : Turn s i c (.expire i) (s, c.expire)
  | bound (result : Except ServerError Ip) :
      Turn s i c (.bound i result) (c.onStart (fun tls s p => p.bound tls result s) s)
  | signal (sig : Signal) :
      Turn s i c (.signal i sig) (c.onStart (fun _ s p => (s, p.signal sig s)) s)
  | drained : s.draining → s.inFlight = 0 →
      Turn s i c (.drained i) (c.onStart (fun _ s p => p.serveEnds i (.ok ()) s) s)
  | listenerFails (message : String) :
      Turn s i c (.listenerFails i message)
        (c.onStart (fun _ s p => p.serveEnds i (.error (.listenerFailed message)) s) s)

/-- A step that no call takes: a hook is registered, a request comes or goes, or nothing happens at
all. At most a call is made. -/
structure Idle (m m' : Machine) : Prop where
  server : m'.server = m.server ∨ (∃ note, m'.server = m.server.register note) ∨
    ∃ n, m'.server = { m.server with inFlight := n }
  call : ∀ i, m'.call i = m.call i ∨ i = m.calls.length ∧ Fresh (m'.call i)

/-- A step that the call `i` takes. -/
structure Steps (m : Machine) (e : Event) (m' : Machine) (i : Nat) : Prop where
  turn : Turn m.server i (m.call i) e (m'.server, m'.call i)
  others : ∀ j, j ≠ i → m'.call j = m.call j

variable {m : Machine} {e : Event}

theorem idle_refl (m : Machine) : Idle m m := ⟨.inl rfl, fun _ => .inl rfl⟩

theorem call_of_length_le {i : Nat} (h : m.calls.length ≤ i) : m.call i = .gone := by
  rw [call, List.getElem?_eq_none h]
  rfl

theorem getElem?_of_call {i : Nat} {c : Call} (h : m.call i = c) (hc : c ≠ .gone) :
    m.calls[i]? = some c := by
  rw [call] at h
  cases hi : m.calls[i]? with
  | none =>
      rw [hi] at h
      exact absurd h.symm hc
  | some c' =>
      rw [hi] at h
      exact congrArg some h

theorem idle_begin {c : Call} (hc : Fresh c) : Idle m (m.begin c) := by
  refine ⟨.inl rfl, fun i => ?_⟩
  rcases Nat.lt_trichotomy i m.calls.length with hlt | rfl | hgt
  · refine .inl ?_
    rw [call, Machine.begin, List.getElem?_append_left hlt, call]
  · refine .inr ⟨rfl, ?_⟩
    rw [call, Machine.begin, List.getElem?_concat_length]
    exact hc
  · refine .inl ?_
    rw [call_of_length_le (Nat.le_of_lt hgt), call_of_length_le]
    rw [Machine.begin, List.length_append, List.length_singleton]
    exact hgt

/-- A step of one call. Where there is no call nothing happens. -/
theorem steps_update (i : Nat) (f : Server → Call → Server × Call)
    (hgone : f m.server .gone = (m.server, .gone))
    (hf : Turn m.server i (m.call i) e (f m.server (m.call i))) : Steps m e (m.update i f) i := by
  cases hc : m.calls[i]? with
  | none =>
      have hcall : m.call i = .gone := call_of_length_le (List.getElem?_eq_none_iff.1 hc)
      have hupdate : m.update i f = m := by rw [update, hc]
      rw [hupdate]
      refine ⟨?_, fun j _ => rfl⟩
      rw [hcall, hgone] at hf
      rwa [hcall]
  | some c =>
      have hcall : m.call i = c := by rw [call, hc]; rfl
      have hserver : (m.update i f).server = (f m.server c).1 := by rw [update, hc]
      refine ⟨?_, fun j hj => ?_⟩
      · rw [call_update hc, if_pos rfl, hserver, hcall]
        rwa [hcall] at hf
      · rw [call_update hc, if_neg hj]

/-- What changes neither the server nor the call. -/
theorem update_eq_self (i : Nat) (f : Server → Call → Server × Call)
    (hf : f m.server (m.call i) = (m.server, m.call i)) : m.update i f = m := by
  cases hc : m.calls[i]? with
  | none => rw [update, hc]
  | some c =>
      have hcall : m.call i = c := by rw [call, hc]; rfl
      rw [hcall] at hf
      have hset : m.calls.set i c = m.calls := by
        obtain ⟨hlt, rfl⟩ := List.getElem?_eq_some_iff.1 hc
        exact List.set_getElem_self hlt
      simp only [update, hc, hf, hset]

theorem length_update (i : Nat) (f : Server → Call → Server × Call) :
    (m.update i f).calls.length = m.calls.length := by
  rw [update]
  split
  · rfl
  · exact List.length_set

/-- No call leaves its place. -/
theorem length_le_step (m : Machine) (e : Event) :
    m.calls.length ≤ (m.step e).calls.length := by
  cases e with
  | start | stop | shutdown | wait =>
      rw [step, Machine.begin, List.length_append]
      exact Nat.le_add_right _ _
  | poll | drop | expire | bound | signal | drained | listenerFails =>
      rw [step, length_update]
  | request =>
      rw [step]
      split <;> exact Nat.le_refl _
  | register | response => exact Nat.le_refl _

/-- An event that is about a call is a step of this call or changes nothing. -/
theorem eq_or_steps {i : Nat} (h : e.call? = some i) : m.step e = m ∨ Steps m e (m.step e) i := by
  cases e with
  | register | start | stop | shutdown | wait | request | response => cases h
  | poll j =>
      cases h
      exact .inr (steps_update i (fun s c => c.advance i s) rfl .poll)
  -- giving up a call that does not pause changes nothing, and neither does an end of serving that
  -- was not asked for
  | drop j =>
      cases h
      by_cases hp : (m.call i).pauses
      · refine .inr (steps_update i
          (fun s c => if c.pauses then (s.release i, .gone) else (s, c)) ?_ ?_)
        · rfl
        · rw [if_pos hp]
          exact .drop hp
      · refine .inl ?_
        rw [step, update_eq_self i _ (if_neg hp)]
  | expire j =>
      cases h
      exact .inr (steps_update i (fun s c => (s, c.expire)) rfl .expire)
  | bound j result =>
      cases h
      refine .inr (steps_update i _ ?_ (.bound result))
      rfl
  | signal j sig =>
      cases h
      refine .inr (steps_update i _ ?_ (.signal sig))
      rfl
  | drained j =>
      cases h
      by_cases hd : m.server.draining ∧ m.server.inFlight = 0
      · refine .inr (steps_update i (fun s c => c.drained i s) ?_ ?_)
        · rw [Call.drained, if_pos hd]
          rfl
        · rw [Call.drained, if_pos hd]
          exact .drained hd.1 hd.2
      · refine .inl ?_
        rw [step, update_eq_self i _ (by rw [Call.drained, if_neg hd])]
  | listenerFails j message =>
      cases h
      refine .inr (steps_update i _ ?_ (.listenerFails message))
      rfl

/-- An event that is about no call is a step of none. -/
theorem idle_of_call?_eq_none (h : e.call? = none) : Idle m (m.step e) := by
  cases e with
  | register note => exact ⟨.inr (.inl ⟨note, rfl⟩), fun _ => .inl rfl⟩
  | start addr tls => exact idle_begin (.start addr tls)
  | stop => exact idle_begin .stop
  | shutdown timeout => exact idle_begin (.shutdown timeout)
  | wait => exact idle_begin .wait
  | request =>
      rw [step]
      split
      · exact ⟨.inr (.inr ⟨_, rfl⟩), fun _ => .inl rfl⟩
      · exact idle_refl m
  | response => exact ⟨.inr (.inr ⟨_, rfl⟩), fun _ => .inl rfl⟩
  | poll | drop | expire | bound | signal | drained | listenerFails => cases h

/-- Every step is taken by one call or by none. -/
theorem idle_or_steps (m : Machine) (e : Event) :
    Idle m (m.step e) ∨ ∃ i, Steps m e (m.step e) i := by
  cases h : e.call? with
  | none => exact .inl (idle_of_call?_eq_none h)
  | some i =>
      rcases eq_or_steps (m := m) h with hsame | hsteps
      · rw [hsame]
        exact .inl (idle_refl m)
      · exact .inr ⟨i, hsteps⟩

/-- A step of a machine, as one call sees it: the call takes it, or keeps as it is, or is made. -/
theorem call_step_cases (m : Machine) (e : Event) (i : Nat) :
    Turn m.server i (m.call i) e ((m.step e).server, (m.step e).call i) ∨
      (m.step e).call i = m.call i ∨ i = m.calls.length ∧ Fresh ((m.step e).call i) := by
  rcases idle_or_steps m e with h | ⟨j, h⟩
  · exact .inr (h.call i)
  · by_cases hj : i = j
    · subst hj
      exact .inl h.turn
    · exact .inr (.inl (h.others i hj))

theorem step_poll (m : Machine) (i : Nat) :
    (m.step (.poll i)).server = ((m.call i).advance i m.server).1 ∧
      (m.step (.poll i)).call i = ((m.call i).advance i m.server).2 := by
  have h : Steps m (.poll i) (m.step (.poll i)) i :=
    steps_update i (fun s c => c.advance i s) rfl .poll
  have hturn := h.turn
  generalize hr : ((m.step (.poll i)).server, (m.step (.poll i)).call i) = r at hturn
  cases hturn
  exact ⟨congrArg Prod.fst hr, congrArg Prod.snd hr⟩

/-! ## Steps by the shutdown that they are of -/

/-- How a step changes the shutdown inside a call, which is given with its deadline. -/
inductive Shifts (s : Server) (i : Nat) : Event → Option (Option Duration × Closing) → Server →
    Option (Option Duration × Closing) → Prop
  | stays {e : Event} {k : Option (Option Duration × Closing)} {s' : Server} : Shifts s i e k s' k
  | ends {e : Event} {k : Option (Option Duration × Closing)} {s' : Server} :
      Shifts s i e k s' none
  | begins {e : Event} {s' : Server} {timeout : Option Duration} :
      Shifts s i e none s' (some (timeout, .entering))
  | goesOn {timeout : Option Duration} {k : Closing} :
      Shifts s i (.poll i) (some (timeout, k)) (k.advance i timeout s).1
        (some (timeout, (k.advance i timeout s).2))
  | expires {s' : Server} {timeout : Option Duration} {k : Closing} :
      Shifts s i (.expire i) (some (timeout, k)) s' (some (timeout, k.expire))

/-- What a step does to the server and to the shutdown inside the call that takes it. -/
structure Shift (s : Server) (i : Nat) (e : Event) (before : Option (Option Duration × Closing))
    (s' : Server) (after : Option (Option Duration × Closing)) : Prop where
  shifts : Shifts s i e before s' after
  touched : Touched s i e before s'

theorem shift_of_polled {before after : Option (Option Duration × Closing)} {s' : Server}
    (h : Polled i s before s' after) : Shift s i (.poll i) before s' after := by
  cases h with
  | ends => exact ⟨.ends, Closing.touched_advance _ _⟩
  | goesOn => exact ⟨.goesOn, Closing.touched_advance _ _⟩
  | apart h => exact ⟨.stays, .apart h⟩
  | begins h => exact ⟨.begins, .apart h⟩

theorem shift_of_onStart {c : Call} {e : Event}
    {f : Option TlsConfig → Server → Starting → Server × Starting}
    (hf : ∀ tls p, Apart s (f tls s p).1 ∧
      ((f tls s p).2.closing? s.config.shutdownTimeout = p.closing? s.config.shutdownTimeout ∨
        (f tls s p).2.closing? s.config.shutdownTimeout = none)) :
    Shift s i e (c.closing? s.config.shutdownTimeout) (c.onStart f s).1
      ((c.onStart f s).2.closing? s.config.shutdownTimeout) := by
  obtain ⟨happart, hsame | hnone⟩ := c.apart_onStart s.config.shutdownTimeout hf
  · rw [hsame]
    exact ⟨.stays, .apart happart⟩
  · rw [hnone]
    exact ⟨.ends, .apart happart⟩

theorem shift_serveEnds {c : Call} {e : Event} (outcome : Outcome) :
    Shift s i e (c.closing? s.config.shutdownTimeout)
      (c.onStart (fun _ s p => p.serveEnds i outcome s) s).1
      ((c.onStart (fun _ s p => p.serveEnds i outcome s) s).2.closing?
        s.config.shutdownTimeout) := by
  refine shift_of_onStart fun tls p => ?_
  cases p with
  | interrupted p =>
      rw [Starting.serveEnds]
      split
      · exact ⟨apart_of_phase rfl rfl rfl id, .inr rfl⟩
      · exact ⟨.refl s, .inl rfl⟩
  | entering | reporting | binding | serving | ending | stopping | done | refused =>
      exact ⟨.refl s, .inl rfl⟩

theorem Turn.shift {c : Call} {r : Server × Call} (h : Turn s i c e r) :
    Shift s i e (c.closing? s.config.shutdownTimeout) r.1
      (r.2.closing? s.config.shutdownTimeout) := by
  cases h with
  | poll => exact shift_of_polled c.polled_advance
  | drop hc => exact ⟨.ends, .apart (apart_of_phase rfl rfl rfl id)⟩
  | expire =>
      refine ⟨?_, .apart (.refl s)⟩
      rw [Call.closing?_expire]
      cases c.closing? s.config.shutdownTimeout with
      | none => exact .stays
      | some k => exact .expires
  | bound result =>
      refine shift_of_onStart fun tls p => ?_
      cases p with
      | binding =>
          cases result with
          | error cause => exact ⟨.refl s, .inl rfl⟩
          | ok ip => cases tls <;> exact ⟨apart_of_phase rfl rfl rfl id, .inl rfl⟩
      | entering | reporting | serving | interrupted | ending | stopping | done | refused =>
          exact ⟨.refl s, .inl rfl⟩
  | signal sig =>
      refine shift_of_onStart fun tls p => ?_
      cases p with
      | serving =>
          refine ⟨.refl s, .inl ?_⟩
          dsimp only [Starting.signal]
          split <;> rfl
      | entering | reporting | binding | interrupted | ending | stopping | done | refused =>
          exact ⟨.refl s, .inl rfl⟩
  | drained hdrain hzero => exact shift_serveEnds (.ok ())
  | listenerFails message => exact shift_serveEnds _

theorem Idle.apart {m' : Machine} (h : Idle m m') : Apart m.server m'.server := by
  obtain hs | ⟨note, hs⟩ | ⟨n, hs⟩ := h.server
  all_goals
    rw [hs]
    exact apart_of_phase rfl rfl rfl id

/-- Hooks run, and the server is stopped, where a call is polled whose shutdown is at the hooks. -/
theorem exists_touched (m : Machine) (e : Event) :
    ∃ i, Touched m.server i e (m.closing? i) (m.step e).server := by
  rcases idle_or_steps m e with h | ⟨i, h⟩
  · exact ⟨0, .apart h.apart⟩
  · exact ⟨i, h.turn.shift.touched⟩

theorem step_config (m : Machine) (e : Event) : (m.step e).server.config = m.server.config := by
  obtain ⟨i, h⟩ := exists_touched m e
  exact h.config

theorem shifts (m : Machine) (e : Event) (i : Nat) :
    Shifts m.server i e (m.closing? i) (m.step e).server ((m.step e).closing? i) := by
  have hclosing : (m.step e).closing? i =
      ((m.step e).call i).closing? m.server.config.shutdownTimeout := by
    rw [closing?, step_config]
  rw [hclosing]
  rcases call_step_cases m e i with hturn | hsame | ⟨rfl, hfresh⟩
  · exact hturn.shift.shifts
  · rw [hsame]
    exact .stays
  · rw [closing?, call_of_length_le (Nat.le_refl _)]
    generalize (m.step e).call _ = c at hfresh
    cases hfresh with
    | start | stop | wait => exact .stays
    | shutdown timeout => exact .begins

/-! ## What a step keeps -/

theorem Turn.leads {c : Call} {r : Server × Call} (h : Turn s i c e r) (hs : s.Sound)
    (hc : c.Fits i s) : Leads i s Call.Fits r := by
  cases h with
  | poll => exact Call.leads_advance hs hc
  | drop hp =>
      have hleads := Call.leads_drop hs hc
      rwa [if_pos hp] at hleads
  | expire => exact ⟨hs.moves_refl, hc.expire⟩
  | bound result =>
      exact Call.leads_onStart hs hc fun tls p hp => Starting.leads_bound hs hp tls result
  | signal sig => exact Call.leads_onStart hs hc fun tls p hp => ⟨hs.moves_refl, hp.signal sig⟩
  | drained | listenerFails =>
      exact Call.leads_onStart hs hc fun _ p hp => Starting.leads_serveEnds hs hp _

/-- What a server that has come so far does not lose again. -/
structure Later (s s' : Server) : Prop where
  rank_le : s.phase.rank ≤ s'.phase.rank
  full : s.finished = .full → s'.finished = .full
  served : s.served → s'.served
  draining : s.draining → s'.draining
  places : s.places ⊆ s'.places

theorem Later.refl (s : Server) : Later s s :=
  ⟨Nat.le_refl _, id, id, id, List.Subset.refl _⟩

theorem Later.trans {s₁ s₂ s₃ : Server} (h : Later s₁ s₂) (h' : Later s₂ s₃) : Later s₁ s₃ :=
  ⟨Nat.le_trans h.rank_le h'.rank_le, h'.full ∘ h.full, h'.served ∘ h.served,
    h'.draining ∘ h.draining, List.Subset.trans h.places h'.places⟩

theorem Later.stopped {s' : Server} (h : Later s s') (hstopped : s.phase = .stopped) :
    s'.phase = .stopped := by
  have hle := h.rank_le
  rw [hstopped] at hle
  cases hphase : s'.phase with
  | stopped => rfl
  | created | running | shuttingDown =>
      rw [hphase] at hle
      exact absurd hle (by decide)

theorem Sound.later (hm : m.Sound) (e : Event) : Later m.server (m.step e).server := by
  obtain ⟨j, hspares⟩ : ∃ j, Spares j m.server (m.step e).server := by
    rcases idle_or_steps m e with h | ⟨i, h⟩
    · obtain hs | ⟨note, hs⟩ | ⟨n, hs⟩ := h.server
      · have hmoves : Server.Moves 1 m.server m.server := hm.server.moves_refl
        exact ⟨0, hs ▸ hmoves.others 0 (by decide)⟩
      · exact ⟨0, hs ▸ hm.server.spares_register note 0⟩
      · exact ⟨0, hs ▸ (hm.server.spares_inFlight n).2 0⟩
    · exact ⟨i + 1, (h.turn.leads hm.server (hm.calls i)).moves.others _ (Nat.succ_ne_self i)⟩
  obtain ⟨i, htouched⟩ := exists_touched m e
  exact ⟨hspares.rank_le, hspares.full, hspares.served, htouched.draining, htouched.places_subset⟩

theorem Sound.later_run (hm : m.Sound) (events : List Event) :
    Later m.server (m.run events).server := by
  induction events generalizing m with
  | nil => exact Later.refl _
  | cons e events ih => exact (hm.later e).trans (ih (hm.step e).1)

theorem Sound.fits_closing (hm : m.Sound) {timeout : Option Duration} {k : Closing}
    (h : m.closing? i = some (timeout, k)) : k.Fits i m.server := by
  have hstop : ∀ p : Stopping, p.Fits i m.server →
      p.closing? m.server.config.shutdownTimeout = some (timeout, k) → k.Fits i m.server := by
    intro p hp hk
    cases p with
    | closing k' =>
        cases hk
        exact hp.1
    | entering | waiting | filling | done => cases hk
  have hc := hm.calls i
  rw [closing?] at h
  cases hcall : m.call i with
  | start addr tls p =>
      rw [hcall] at h hc
      cases p with
      | interrupted p => exact hstop p hc h
      | stopping outcome p => exact hstop p hc h
      | entering | reporting | binding | serving | ending | done | refused => cases h
  | stop p =>
      rw [hcall] at h hc
      exact hstop p hc h
  | shutdown own k' =>
      rw [hcall] at h hc
      cases h
      exact hc
  | wait | gone =>
      rw [hcall] at h
      cases h

end Machine

end Switchboard
