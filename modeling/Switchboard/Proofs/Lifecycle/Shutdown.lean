import Mathlib.Data.List.Nodup
import Switchboard.Lifecycle.Machine
import Switchboard.Proofs.Lifecycle.Calls

set_option autoImplicit false

/-! # Shutting down in order

The server of a machine is sound and each of its calls fits, whatever has happened
(`Machine.Sound.run`): one event is a step of one call or changes the server only, and in both cases
it spares the calls that it is not about. From this follow the order of the phases and the order
of the hooks (`Machine.shutdown_in_order`). -/

namespace Switchboard

open Server (Leads Spares)

namespace Machine

/-- The call at a place. A place without a call is like one whose call is gone. -/
def call (m : Machine) (i : Nat) : Call := (m.calls[i]?).getD .gone

/-- What holds of a machine at any time. -/
structure Sound (m : Machine) : Prop where
  server : m.server.Sound
  calls : ∀ i, (m.call i).Fits i m.server

variable {m : Machine}

theorem sound_new (config : ServerConfig) : (new config).Sound := by
  refine ⟨⟨?_, ?_, ?_, ?_, ?_, ?_, ?_, ?_, ?_, ?_⟩, fun i => ?_⟩
  · intro i hook hi
    cases hi
  · exact fun _ => ⟨rfl, rfl⟩
  · intro r hr
    cases hr
  · exact List.nodup_nil
  · exact ⟨0, Server.awaits_of_ran_nil rfl⟩
  · rfl
  · exact fun h => absurd rfl h
  · intro h
    cases h
  · intro h
    cases h
  · intro h
    cases h
  · intro h
    cases h

/-- A new call comes to a place without one. -/
theorem Sound.begin (hm : m.Sound) {c : Call}
    (hc : ∀ i, m.server.Free i → c.Fits i m.server) : (m.begin c).Sound := by
  refine ⟨hm.server, fun i => ?_⟩
  have hold := hm.calls i
  rw [call, Machine.begin, List.getElem?_append]
  split
  · exact hold
  · next hge =>
    have hgone : m.call i = .gone := by
      rw [call, List.getElem?_eq_none (Nat.le_of_not_lt hge)]
      rfl
    rw [hgone] at hold
    cases i - m.calls.length with
    | zero => exact hc i hold
    | succ n => exact hold

/-- A step that changes the server and spares all calls. -/
theorem Sound.serve (hm : m.Sound) {s : Server} (hs : s.Sound)
    (hspares : ∀ j, Spares j m.server s) : ({ m with server := s } : Machine).Sound :=
  ⟨hs, fun i => (hm.calls i).spared (hspares i)⟩

theorem call_update {i : Nat} {c : Call} (hc : m.calls[i]? = some c)
    (f : Server → Call → Server × Call) (j : Nat) :
    (m.update i f).call j = if j = i then (f m.server c).2 else m.call j := by
  have hlt : i < m.calls.length := (List.getElem?_eq_some_iff.1 hc).1
  rw [call, update, hc]
  show ((m.calls.set i (f m.server c).2)[j]?).getD .gone = _
  by_cases hj : j = i
  · rw [if_pos hj, hj, List.getElem?_set_self hlt]
    rfl
  · rw [if_neg hj, List.getElem?_set_ne (Ne.symm hj), call]

/-- A step of one call. -/
theorem Sound.update (hm : m.Sound) (i : Nat) {f : Server → Call → Server × Call}
    (hf : ∀ c : Call, c.Fits i m.server → Leads i m.server Call.Fits (f m.server c)) :
    (m.update i f).Sound ∧
      ((m.update i f).server.phase = m.server.phase ∨
        (m.update i f).server.phase.rank = m.server.phase.rank + 1) := by
  cases hc : m.calls[i]? with
  | none =>
      rw [Machine.update, hc]
      exact ⟨hm, .inl rfl⟩
  | some c =>
      have hfits : c.Fits i m.server := by
        have hcall := hm.calls i
        rwa [call, hc] at hcall
      have hserver : (m.update i f).server = (f m.server c).1 := by rw [Machine.update, hc]
      obtain ⟨hmoves, hnext⟩ := hf c hfits
      rw [hserver]
      refine ⟨⟨hserver ▸ hmoves.sound, fun j => ?_⟩, hmoves.phase⟩
      rw [call_update hc, hserver]
      by_cases hj : j = i
      · rw [if_pos hj, hj]
        exact hnext
      · rw [if_neg hj]
        exact (hm.calls j).spared (hmoves.others j hj)

/-- Whatever happens next keeps the machine sound, and the server goes on by at most one phase. -/
theorem Sound.step (hm : m.Sound) (e : Event) :
    (m.step e).Sound ∧
      ((m.step e).server.phase = m.server.phase ∨
        (m.step e).server.phase.rank = m.server.phase.rank + 1) := by
  have hs := hm.server
  cases e with
  | register note =>
      exact ⟨hm.serve (hs.register note) (hs.spares_register note), .inl rfl⟩
  | start | stop | shutdown | wait => exact ⟨hm.begin fun _ h => h, .inl rfl⟩
  | poll i => exact hm.update i fun c hc => Call.leads_advance hs hc
  | drop i =>
      rw [Machine.step]
      exact hm.update i fun c hc => Call.leads_drop hs hc
  | expire i =>
      rw [Machine.step]
      exact hm.update i fun c hc => ⟨hs.moves_refl, hc.expire⟩
  | bound i result =>
      rw [Machine.step]
      refine hm.update i fun c hc => Call.leads_onStart hs hc fun tls p hp => ?_
      exact Starting.leads_bound hs hp tls result
  | signal i sig =>
      rw [Machine.step]
      refine hm.update i fun c hc => Call.leads_onStart hs hc fun tls p hp => ?_
      exact ⟨hs.moves_refl, hp.signal sig⟩
  | request =>
      rw [Machine.step]
      split
      · obtain ⟨hs', hspares⟩ := hs.spares_inFlight (m.server.inFlight + 1)
        exact ⟨hm.serve hs' hspares, .inl rfl⟩
      · exact ⟨hm, .inl rfl⟩
  | response =>
      obtain ⟨hs', hspares⟩ := hs.spares_inFlight (m.server.inFlight - 1)
      exact ⟨hm.serve hs' hspares, .inl rfl⟩
  | drained i => exact hm.update i fun c hc => Call.leads_drained hs hc
  | listenerFails i message =>
      rw [Machine.step]
      refine hm.update i fun c hc => Call.leads_onStart hs hc fun tls p hp => ?_
      exact Starting.leads_serveEnds hs hp _

theorem Sound.run (hm : m.Sound) (events : List Event) : (m.run events).Sound := by
  induction events generalizing m with
  | nil => exact hm
  | cons e events ih => exact ih (hm.step e).1

end Machine

/-! ## The order of the hooks -/

namespace Server

/-- The hook at a place is early. -/
def isEarly (s : Server) (i : Nat) : Bool := (s.hooks[i]?).any Hook.isEarly

theorem Sound.isEarly_iff {s : Server} (h : s.Sound) {i : Nat} : s.isEarly i ↔ i < s.early := by
  have hle : s.early ≤ s.hooks.length := List.countP_le_length
  rw [isEarly]
  cases hi : s.hooks[i]? with
  | none =>
      have hge := List.getElem?_eq_none_iff.1 hi
      exact iff_of_false (by simp) (by omega)
  | some hook => exact h.early_iff i hook hi

/-- In a stopped server the early hooks have run, each once, in the reverse of the order in which
they were registered. -/
theorem Sound.reverse_of_stopped {s : Server} (h : s.Sound) (hphase : s.phase = .stopped) :
    s.places.filter s.isEarly = ((List.range s.hooks.length).filter s.isEarly).reverse := by
  have hearly : s.isEarly = fun i => decide (i < s.early) := by
    funext i
    rw [Bool.eq_iff_iff, h.isEarly_iff, decide_eq_true_iff]
  have hrange : (List.range s.hooks.length).filter (· < s.early) = List.range s.early := by
    obtain ⟨late, hlength⟩ : ∃ late, s.hooks.length = s.early + late :=
      Nat.exists_eq_add_of_le List.countP_le_length
    rw [hlength, List.range_add, List.filter_append, List.filter_eq_self.2,
      List.filter_eq_nil_iff.2, List.append_nil]
    · intro i hi
      obtain ⟨n, -, rfl⟩ := List.mem_map.1 hi
      simp
    · intro i hi
      simpa using hi
  have hsplit := (h.stopped hphase).1.split
  rw [hearly, hrange, ← hsplit, List.range_zero, List.reverse_nil, List.append_nil]

theorem Sound.count_of_stopped {s : Server} (h : s.Sound) (hphase : s.phase = .stopped) {i : Nat}
    (hi : s.isEarly i) : s.places.count i = 1 := by
  have hmem := (h.stopped hphase).1.mem_places (h.isEarly_iff.1 hi)
  exact List.count_eq_one_of_mem h.nodup (hmem.2 (Nat.zero_le _))

end Server

/-- Whatever happens to a server and in whatever order, it goes through the phases one by one and
never back. Once it is stopped, every hook that was registered before the shutdown began has run
exactly once, and these hooks ran in the reverse of the order in which they were registered. No
hook ever runs but while the server shuts down, and what the hooks have noted is what those noted
that have run. -/
theorem Machine.shutdown_in_order (config : ServerConfig) (events : List Event) (e : Event) :
    let m := (new config).run events
    ((m.step e).server.phase = m.server.phase ∨
      (m.step e).server.phase.rank = m.server.phase.rank + 1) ∧
    (m.server.phase = .stopped →
      (∀ i, m.server.isEarly i → m.server.places.count i = 1) ∧
      m.server.places.filter m.server.isEarly =
        ((List.range m.server.hooks.length).filter m.server.isEarly).reverse) ∧
    (∀ r ∈ m.server.ran, r.2 = .shuttingDown) ∧
    m.server.notes = m.server.ran.flatMap m.server.noted := by
  intro m
  have hm : m.Sound := (sound_new config).run events
  refine ⟨(hm.step e).2, fun hstopped => ⟨?_, ?_⟩, ?_, hm.server.notes⟩
  · intro i hi
    exact hm.server.count_of_stopped hstopped hi
  · exact hm.server.reverse_of_stopped hstopped
  · intro r hr
    exact (hm.server.during r hr).2

-- A shutdown is given up after the newest of three early hooks, a late hook is registered, and
-- another shutdown runs what is left.
example :
    let begin (i : Nat) : List Event := [.shutdown (some ⟨0⟩), .poll i, .poll i, .poll i, .expire i,
      .poll i, .poll i, .poll i, .poll i]
    let s := ((Machine.new {}).run ([.register fun _ => [], .register fun _ => [], .start "" none,
      .poll 0, .poll 0] ++ begin 1 ++ [.drop 1, .register fun _ => []] ++ begin 2 ++
        [.poll 2, .poll 2, .poll 2, .poll 2])).server
    s.phase = .stopped ∧ s.places = [2, 3, 1, 0] ∧ s.places.filter s.isEarly = [2, 1, 0] := by
  decide

end Switchboard
