import Switchboard.Proofs.Lifecycle.Completion

set_option autoImplicit false

/-! # The gate of a server, and the request to drain

A server is started once. Until then it is as new but for the hooks that were registered
(`Machine.server_of_not_opens`): a call that is turned away by the check at its beginning does
nothing to it, neither then nor at any other time (`Machine.not_acts_of_turnedAway`). The first
start that passes the gate is the only one, since the server never goes back.

A shutdown that has come past its check marks the phase and asks serving to end. Neither is ever
undone, also if serving has not begun yet. `Machine.gate_opens_once` puts all this together.
-/

namespace Switchboard

variable {s : Server} {i : Nat} {e : Event}

/-! ## Calls that are turned away -/

/-- The shutdown has not come past the check at its beginning. -/
def Closing.Inert : Closing → Prop
  | .entering | .refused => True
  | _ => False

/-- The start has not come past the check at its beginning. -/
def Starting.Inert : Starting → Prop
  | .entering | .refused _ => True
  | _ => False

namespace Call

/-- The call can be seen not to have come past the check at its beginning. A stop that has returned
does not tell. -/
def Inert : Call → Prop
  | .start _ _ p => p.Inert
  | .stop p => p = .entering
  | .shutdown _ k => k.Inert
  | _ => False

/-- The check at the beginning of the call turns it away: a start with an address other than the
only one allowed or of a server that was started, and a stop or a shutdown before the start. -/
def Refused (s : Server) : Call → Prop
  | .start addr _ .entering => Starting.addressError? s.config addr ≠ none ∨ s.phase ≠ .created
  | .stop .entering | .shutdown _ .entering => s.phase = .created
  | _ => False

/-- The call stands where it comes to when it is turned away. -/
def AtEnd : Call → Prop
  | .start _ _ (.refused _) | .stop .done | .shutdown _ .refused => True
  | _ => False

/-- A call that is turned away does nothing to the server. -/
theorem Refused.advance {c : Call} (h : c.Refused s) :
    c.Inert ∧ (c.advance i s).1 = s ∧ (c.advance i s).2.AtEnd := by
  cases c with
  | start addr tls p =>
      cases p with
      | entering =>
          refine ⟨trivial, ?_⟩
          show (Starting.entering.advance i addr s).1 = s ∧
            (Call.start addr tls (Starting.entering.advance i addr s).2).AtEnd
          rw [Starting.advance]
          split
          · exact ⟨rfl, trivial⟩
          · next haddr =>
            have hphase : s.phase ≠ .created := h.resolve_left fun hne => hne haddr
            rw [if_neg hphase]
            exact ⟨rfl, trivial⟩
      | reporting | binding | serving | interrupted | ending | stopping | done | refused => cases h
  | stop p =>
      cases p with
      | entering =>
          have hphase : s.phase = .created := h
          rw [Call.advance, Stopping.advance, if_pos hphase]
          exact ⟨rfl, rfl, trivial⟩
      | waiting | closing | filling | done => cases h
  | shutdown own k =>
      cases k with
      | entering =>
          have hphase : s.phase = .created := h
          rw [Call.advance, Closing.advance, if_pos hphase]
          exact ⟨trivial, rfl, trivial⟩
      | marking | asking | draining | hooks | done | refused => cases h
  | wait | gone => cases h

end Call

/-! ### What comes before a call that is inert

A call never comes back to the check at its beginning, so one that stands there, or was turned away
by it, has done nothing so far. -/

theorem Closing.Inert.of_advance {k : Closing} {timeout : Option Duration}
    (h : (k.advance i timeout s).2.Inert) : (k.advance i timeout s).1 = s ∧ k.Inert := by
  cases k with
  | entering =>
      rw [advance] at h ⊢
      by_cases hphase : s.phase = .created
      · rw [if_pos hphase]
        exact ⟨rfl, trivial⟩
      · rw [if_neg hphase] at h
        cases h
  | refused => exact ⟨rfl, trivial⟩
  | draining expired =>
      rw [advance] at h
      split at h
      · cases h
      · split at h <;> cases h
  | hooks missed pass =>
      rw [advance] at h
      rcases hpass : pass.advance i s with ⟨s', pass'⟩
      rw [hpass] at h
      cases pass' <;> cases h
  | marking | asking | done => cases h

theorem Stopping.advance_ne_entering (p : Stopping) : (p.advance i s).2 ≠ .entering := by
  cases p with
  | entering | waiting =>
      rw [advance]
      split <;> exact Stopping.noConfusion
  | closing k =>
      rw [advance]
      dsimp only
      split <;> exact Stopping.noConfusion
  | filling | done => exact Stopping.noConfusion

namespace Starting.Inert

variable {p : Starting}

theorem of_advance {addr : String} (h : (p.advance i addr s).2.Inert) :
    (p.advance i addr s).1 = s ∧ p.Inert := by
  cases p with
  | entering =>
      rw [advance] at h ⊢
      split
      · exact ⟨rfl, trivial⟩
      · next haddr =>
        rw [haddr] at h
        dsimp only at h
        by_cases hphase : s.phase = .created
        · rw [if_pos hphase] at h
          cases h
        · rw [if_neg hphase]
          exact ⟨rfl, trivial⟩
  | refused => exact ⟨rfl, trivial⟩
  | serving =>
      rw [advance] at h
      split at h <;> cases h
  | interrupted p | stopping outcome p =>
      rw [advance] at h
      rcases hp : p.advance i s with ⟨s', p'⟩
      rw [hp] at h
      cases p' <;> cases h
  | reporting | binding | ending | done => cases h

theorem of_bound {tls : Option TlsConfig} {result : Except ServerError Ip}
    (h : (p.bound tls result s).2.Inert) : (p.bound tls result s).1 = s ∧ p.Inert := by
  cases p with
  | binding =>
      cases result with
      | error cause => cases h
      | ok ip => cases tls <;> cases h
  | entering | refused => exact ⟨rfl, trivial⟩
  | reporting | serving | interrupted | ending | stopping | done => cases h

theorem of_signal {sig : Signal} (h : (p.signal sig s).Inert) : p.Inert := by
  cases p with
  | serving =>
      rw [signal] at h
      split at h <;> cases h
  | entering | refused => trivial
  | reporting | binding | interrupted | ending | stopping | done => cases h

theorem of_serveEnds {outcome : Outcome} (h : (p.serveEnds i outcome s).2.Inert) :
    (p.serveEnds i outcome s).1 = s ∧ p.Inert := by
  cases p with
  | interrupted p =>
      rw [serveEnds] at h
      split at h <;> cases h
  | entering | refused => exact ⟨rfl, trivial⟩
  | reporting | binding | serving | ending | stopping | done => cases h

end Starting.Inert

namespace Call.Inert

variable {c : Call}

theorem of_advance (h : (c.advance i s).2.Inert) : (c.advance i s).1 = s ∧ c.Inert := by
  cases c with
  | start addr tls p => exact Starting.Inert.of_advance h
  | stop p => exact absurd h p.advance_ne_entering
  | shutdown own k => exact Closing.Inert.of_advance h
  | wait released => cases released <;> cases h
  | gone => cases h

theorem of_expire (h : c.expire.Inert) : c.Inert := by
  cases c with
  | start addr tls p => cases p <;> exact h
  | stop p =>
      cases p with
      | entering => rfl
      | waiting | closing | filling | done => cases h
  | shutdown own k => cases k <;> exact h
  | wait | gone => cases h

theorem of_onStart {f : Option TlsConfig → Server → Starting → Server × Starting}
    (hf : ∀ tls p, (f tls s p).2.Inert → (f tls s p).1 = s ∧ p.Inert)
    (h : (c.onStart f s).2.Inert) : (c.onStart f s).1 = s ∧ c.Inert := by
  cases c with
  | start addr tls p => exact hf tls p h
  | stop | shutdown | wait | gone => exact ⟨rfl, h⟩

end Call.Inert

/-- The calls with a shutdown inside them that is at a given stage. -/
inductive Call.Closes (k : Closing) : Call → Prop
  | shutdown (own : Option Duration) : Closes k (.shutdown own k)
  | stop : Closes k (.stop (.closing k))
  | interrupted (addr : String) (tls : Option TlsConfig) :
      Closes k (.start addr tls (.interrupted (.closing k)))
  | stopping (addr : String) (tls : Option TlsConfig) (outcome : Outcome) :
      Closes k (.start addr tls (.stopping outcome (.closing k)))

theorem Call.Closes.closing? {c : Call} {k : Closing} (h : c.Closes k)
    (configured : Option Duration) : ∃ timeout, c.closing? configured = some (timeout, k) := by
  cases h with
  | shutdown own => exact ⟨own, rfl⟩
  | stop | interrupted | stopping => exact ⟨configured, rfl⟩

/-- The hook that an event registers before the gate opens. -/
def Event.hook? : Event → Option Hook
  | .register note => some ⟨note, .created⟩
  | _ => none

namespace Machine

variable {m : Machine} {c : Call} {r : Server × Call} {config : ServerConfig} {events : List Event}

/-- A step that leaves a call inert does nothing to the server, and the call was inert before. -/
theorem Turn.of_inert (h : Turn s i c e r) (hr : r.2.Inert) : r.1 = s ∧ c.Inert := by
  cases h with
  | poll => exact Call.Inert.of_advance hr
  | drop => cases hr
  | expire => exact ⟨rfl, Call.Inert.of_expire hr⟩
  | bound result => exact Call.Inert.of_onStart (fun _ _ => Starting.Inert.of_bound) hr
  | signal sig =>
      refine Call.Inert.of_onStart (fun tls p hp => ?_) hr
      exact ⟨rfl, Starting.Inert.of_signal hp⟩
  | drained | listenerFails =>
      exact Call.Inert.of_onStart (fun _ _ => Starting.Inert.of_serveEnds) hr

/-- A call that was turned away stays where it is, and nothing that is done to it does anything. -/
theorem Turn.of_atEnd (h : Turn s i c e r) (hc : c.AtEnd) : r = (s, c) := by
  cases c with
  | start addr tls p =>
      cases p with
      | refused cause =>
          cases h with
          | drop hp => cases hp
          | poll | expire | bound | signal | drained | listenerFails => rfl
      | entering | reporting | binding | serving | interrupted | ending | stopping | done =>
          cases hc
  | stop p =>
      cases p with
      | done =>
          cases h with
          | drop hp => cases hp
          | poll | expire | bound | signal | drained | listenerFails => rfl
      | entering | waiting | closing | filling => cases hc
  | shutdown own k =>
      cases k with
      | refused =>
          cases h with
          | drop hp => cases hp
          | poll | expire | bound | signal | drained | listenerFails => rfl
      | entering | marking | asking | draining | hooks | done => cases hc
  | wait | gone => cases hc

/-! ## Calls that do nothing -/

/-- A step of the call at a place changes the server. -/
def Acts (i : Nat) (m : Machine) (e : Event) : Prop :=
  e.call? = some i ∧ (m.step e).server ≠ m.server

/-- The call at a place is turned away by the check at its beginning. -/
def TurnedAway (i : Nat) (m : Machine) (e : Event) : Prop :=
  e = .poll i ∧ (m.call i).Refused m.server

/-- The call at a place is a start and passes the gate. -/
def Opens (i : Nat) (m : Machine) (e : Event) : Prop :=
  Enters i m e ∧ ∃ addr tls, m.call i = .start addr tls .entering

theorem step_of_length_le (h : e.call? = some i) (hi : m.calls.length ≤ i) : m.step e = m := by
  have hnone : m.calls[i]? = none := List.getElem?_eq_none hi
  cases e with
  | poll | drop | expire | bound | signal | drained | listenerFails =>
      cases h
      rw [step, update, hnone]
  | register | start | stop | shutdown | wait | request | response => cases h

/-- An event that is not about a call leaves it as it is. -/
theorem call_step_of_ne (h : e.call? ≠ some i) :
    (m.step e).call i = m.call i ∨ i = m.calls.length ∧ Fresh ((m.step e).call i) := by
  cases hcall : e.call? with
  | none => exact (idle_of_call?_eq_none hcall).call i
  | some j =>
      have hij : i ≠ j := by
        rintro rfl
        exact h hcall
      rcases eq_or_steps (m := m) hcall with hsame | hsteps
      · rw [hsame]
        exact .inl rfl
      · exact .inl (hsteps.others i hij)

/-- A call that is inert after a step was inert before, or has been made by it, and has not
acted. -/
theorem inert_step (h : (m.step e).calls.length ≤ i ∨ ((m.step e).call i).Inert) :
    (m.calls.length ≤ i ∨ (m.call i).Inert) ∧ ¬ Acts i m e := by
  by_cases hcall : e.call? = some i
  · by_cases hi : m.calls.length ≤ i
    · have hsame : m.step e = m := step_of_length_le hcall hi
      exact ⟨.inl hi, fun hacts => hacts.2 (by rw [hsame])⟩
    · have hinert : ((m.step e).call i).Inert :=
        h.resolve_left fun hle => hi (Nat.le_trans (length_le_step m e) hle)
      rcases eq_or_steps (m := m) hcall with hsame | hsteps
      · rw [hsame] at hinert
        exact ⟨.inr hinert, fun hacts => hacts.2 (by rw [hsame])⟩
      · obtain ⟨hserver, hbefore⟩ := hsteps.turn.of_inert hinert
        exact ⟨.inr hbefore, fun hacts => hacts.2 hserver⟩
  · refine ⟨?_, fun hacts => hcall hacts.1⟩
    rcases h with hle | hinert
    · exact .inl (Nat.le_trans (length_le_step m e) hle)
    · rcases call_step_of_ne (m := m) hcall with hsame | ⟨rfl, -⟩
      · rw [hsame] at hinert
        exact .inr hinert
      · exact .inl (Nat.le_refl _)

/-- A call that is inert has never acted. -/
theorem not_acts_of_inert
    (h : ((new config).run events).calls.length ≤ i ∨ (((new config).run events).call i).Inert) :
    ¬ Happened config events (Acts i) := by
  induction events using List.reverseRecOn with
  | nil => exact not_happened_nil
  | append_singleton events e ih =>
      rw [run_concat] at h
      obtain ⟨hbefore, hlast⟩ := inert_step h
      intro hacts
      rcases happened_concat.1 hacts with hold | hnew
      · exact ih hbefore hold
      · exact hlast hnew

theorem atEnd_step (hi : i < m.calls.length) (h : (m.call i).AtEnd) (e : Event) :
    ((m.step e).call i).AtEnd ∧ ¬ Acts i m e := by
  by_cases hcall : e.call? = some i
  · rcases eq_or_steps (m := m) hcall with hsame | hsteps
    · rw [hsame]
      exact ⟨h, fun hacts => hacts.2 (by rw [hsame])⟩
    · obtain ⟨hserver, hafter⟩ := Prod.mk.inj (hsteps.turn.of_atEnd h)
      rw [hafter]
      exact ⟨h, fun hacts => hacts.2 hserver⟩
  · refine ⟨?_, fun hacts => hcall hacts.1⟩
    rcases call_step_of_ne (m := m) hcall with hsame | ⟨rfl, -⟩
    · rw [hsame]
      exact h
    · exact absurd hi (Nat.lt_irrefl _)

/-- A call that is turned away never acts: not before, since it was at its beginning, not then, and
not afterwards, since it is over. -/
theorem not_acts_of_turnedAway (h : Happened config events (TurnedAway i)) :
    i < ((new config).run events).calls.length ∧ (((new config).run events).call i).AtEnd ∧
      ¬ Happened config events (Acts i) := by
  induction events using List.reverseRecOn with
  | nil => exact absurd h not_happened_nil
  | append_singleton events e ih =>
      rw [run_concat, happened_concat]
      rcases happened_concat.1 h with hbefore | ⟨rfl, hrefused⟩
      · obtain ⟨hi, hend, hnot⟩ := ih hbefore
        obtain ⟨hend', hlast⟩ := atEnd_step hi hend e
        exact ⟨Nat.lt_of_lt_of_le hi (length_le_step _ e), hend', not_or.2 ⟨hnot, hlast⟩⟩
      · obtain ⟨hinert, hserver, hend⟩ := hrefused.advance (i := i)
        obtain ⟨hstep, hcall⟩ := step_poll ((new config).run events) i
        have hi : i < ((new config).run events).calls.length := by
          by_contra hle
          rw [call_of_length_le (Nat.le_of_not_lt hle)] at hinert
          cases hinert
        refine ⟨Nat.lt_of_lt_of_le hi (length_le_step _ _), ?_, ?_⟩
        · rw [hcall]
          exact hend
        · rintro (hacts | ⟨-, hacts⟩)
          · exact not_acts_of_inert (.inr hinert) hacts
          · exact hacts (hstep.trans hserver)

/-! ## Starts that do not pass the gate -/

/-- What is a start after a step was one before. -/
theorem Turn.exists_start {addr : String} {tls : Option TlsConfig} {p' : Starting}
    (h : Turn s i c e r) (hr : r.2 = .start addr tls p') : ∃ p, c = .start addr tls p := by
  cases h with
  | poll =>
      cases c with
      | start addr' tls' p =>
          cases hr
          exact ⟨p, rfl⟩
      | wait released => cases released <;> cases hr
      | stop | shutdown | gone => cases hr
  | drop => cases hr
  | expire | bound | signal | drained | listenerFails =>
      cases c with
      | start addr' tls' p =>
          cases hr
          exact ⟨p, rfl⟩
      | stop | shutdown | wait | gone => cases hr

/-- A start before the gate stays there, or is turned away, or passes it. -/
theorem Turn.inert_or_passes {addr : String} {tls : Option TlsConfig} {p p' : Starting}
    (h : Turn s i (.start addr tls p) e r) (hp : p.Inert) (hr : r.2 = .start addr tls p') :
    p'.Inert ∨ e = .poll i ∧ p = .entering ∧ (Call.start addr tls p).Passes s := by
  cases p with
  | entering =>
      cases h with
      | poll =>
          have hadvance : (Starting.entering.advance i addr s).2 = p' := (Call.start.inj hr).2.2
          rw [Starting.advance] at hadvance
          split at hadvance
          · subst hadvance
            exact .inl trivial
          · next haddr =>
            by_cases hphase : s.phase = .created
            · exact .inr ⟨rfl, rfl, haddr, hphase⟩
            · rw [if_neg hphase] at hadvance
              subst hadvance
              exact .inl trivial
      | drop hpauses => cases hpauses
      | expire | bound | signal | drained | listenerFails =>
          cases hr
          exact .inl trivial
  | refused cause =>
      refine .inl ?_
      cases h with
      | drop hpauses => cases hpauses
      | poll | expire | bound | signal | drained | listenerFails =>
          cases hr
          trivial
  | reporting | binding | serving | interrupted | ending | stopping | done => cases hp

/-- A start that is neither before the gate nor turned away has passed it. -/
theorem opens_of_not_inert {addr : String} {tls : Option TlsConfig} {p : Starting}
    (hcall : ((new config).run events).call i = .start addr tls p) (hp : ¬ p.Inert) :
    Happened config events (Opens i) := by
  induction events using List.reverseRecOn generalizing p with
  | nil => cases hcall
  | append_singleton events e ih =>
      rw [run_concat] at hcall
      rw [happened_concat]
      rcases call_step_cases ((new config).run events) e i with hturn | hsame | ⟨-, hfresh⟩
      · rw [hcall] at hturn
        obtain ⟨p₀, hbefore⟩ := hturn.exists_start rfl
        by_cases hp₀ : p₀.Inert
        · rw [hbefore] at hturn
          rcases hturn.inert_or_passes hp₀ rfl with hinert | ⟨he, rfl, hpasses⟩
          · exact absurd hinert hp
          · rw [← hbefore] at hpasses
            exact .inr ⟨⟨he, hpasses⟩, addr, tls, hbefore⟩
        · exact .inl (ih hbefore hp₀)
      · exact .inl (ih (hsame.symm.trans hcall) hp)
      · rw [hcall] at hfresh
        cases hfresh
        exact absurd trivial hp

/-! ## The server before the gate opens -/

/-- In a new server a call is waiting, or is still outside. -/
theorem outside_or_wait {hooks : List Hook} {c : Call}
    (h : c.Outside ∨ c.Underway { config, hooks }) :
    c.Outside ∨ ∃ released, c = .wait released := by
  have hrank : ¬ 1 ≤ ({ config, hooks } : Server).phase.rank := Nat.not_succ_le_zero 0
  rcases h with ho | hu
  · exact .inl ho
  · cases c with
    | start addr tls p =>
        cases p with
        | entering | refused => cases hu
        | done => cases hu
        | interrupted p | stopping outcome p => exact absurd hu.started hrank
        | reporting | binding | serving | ending => exact absurd hu hrank
    | stop p => exact absurd hu.started hrank
    | shutdown own k => exact absurd hu.1 hrank
    | wait released => exact .inr ⟨released, rfl⟩
    | gone => exact .inl trivial

/-- The only thing that a call does to a new server is to open the gate. -/
theorem Turn.opens_or_eq {hooks : List Hook} (h : Turn { config, hooks } i c e r)
    (hc : c.Outside ∨ ∃ released, c = .wait released) :
    r.1 = { config, hooks } ∨
      e = .poll i ∧ c.Passes { config, hooks } ∧ ∃ addr tls, c = .start addr tls .entering := by
  obtain ho | ⟨released, rfl⟩ := hc
  · cases c with
    | start addr tls p =>
        cases p with
        | entering =>
            cases h with
            | poll =>
                by_cases haddr : Starting.addressError? config addr = none
                · exact .inr ⟨rfl, ⟨haddr, rfl⟩, addr, tls, rfl⟩
                · have hrefused : (Call.start addr tls .entering).Refused { config, hooks } :=
                    .inl haddr
                  exact .inl hrefused.advance.2.1
            | drop | expire | bound | signal | drained | listenerFails => exact .inl rfl
        | refused => cases h <;> exact .inl rfl
        | reporting | binding | serving | interrupted | ending | stopping | done => cases ho
    | stop p =>
        cases p with
        | entering | done => cases h <;> exact .inl rfl
        | waiting | closing | filling => cases ho
    | shutdown own k =>
        cases k with
        | entering | refused => cases h <;> exact .inl rfl
        | marking | asking | draining | hooks | done => cases ho
    | wait => cases ho
    | gone => cases h <;> exact .inl rfl
  · cases h with
    | poll => cases released <;> exact .inl rfl
    | drop | expire | bound | signal | drained | listenerFails => exact .inl rfl

/-- Calls that wait or are still outside do not serve. -/
theorem serves_eq_false
    (h : ∀ i, (m.call i).Outside ∨ ∃ released, m.call i = .wait released) : m.serves = false := by
  by_contra hserves
  obtain ⟨c, hmem, hc⟩ := List.any_eq_true.1 (Bool.of_not_eq_false hserves)
  obtain ⟨i, hi, rfl⟩ := List.getElem_of_mem hmem
  have hcall : m.call i = m.calls[i] := by
    rw [call, List.getElem?_eq_getElem hi]
    rfl
  rcases h i with ho | ⟨released, hwait⟩
  · rw [hcall] at ho
    generalize m.calls[i] = c at hc ho
    cases c with
    | start addr tls p =>
        cases p with
        | serving | interrupted => cases ho
        | entering | reporting | binding | ending | stopping | done | refused => cases hc
    | stop | shutdown | wait | gone => cases hc
  · rw [← hcall, hwait] at hc
    cases hc

theorem step_of_new_server {hooks : List Hook} (hserver : m.server = { config, hooks })
    (hcalls : ∀ i, (m.call i).Outside ∨ ∃ released, m.call i = .wait released) :
    (∃ i, Opens i m e) ∨ (m.step e).server = { config, hooks := hooks ++ e.hook?.toList } := by
  cases hcall : e.call? with
  | some i =>
      have hhook : e.hook? = none := by
        cases e with
        | register | start | stop | shutdown | wait | request | response => cases hcall
        | poll | drop | expire | bound | signal | drained | listenerFails => rfl
      rw [hhook, Option.toList_none, List.append_nil]
      rcases eq_or_steps (m := m) hcall with hsame | hsteps
      · rw [hsame]
        exact .inr hserver
      · have hturn := hsteps.turn
        rw [hserver] at hturn
        rcases hturn.opens_or_eq (hcalls i) with hkept | ⟨he, hpasses, hstart⟩
        · exact .inr hkept
        · rw [← hserver] at hpasses
          exact .inl ⟨i, ⟨he, hpasses⟩, hstart⟩
  | none =>
      refine .inr ?_
      cases e with
      | register note =>
          rw [step, hserver]
          rfl
      | start | stop | shutdown | wait =>
          show m.server = { config, hooks := hooks ++ [] }
          rw [List.append_nil]
          exact hserver
      | request =>
          have hidle : m.step .request = m := by
            rw [step, serves_eq_false hcalls]
            rfl
          show (m.step .request).server = { config, hooks := hooks ++ [] }
          rw [hidle, List.append_nil]
          exact hserver
      | response =>
          show ({ m.server with inFlight := m.server.inFlight - 1 } : Server) =
            { config, hooks := hooks ++ [] }
          rw [hserver, List.append_nil]
          rfl
      | poll | drop | expire | bound | signal | drained | listenerFails => cases hcall

/-- Until the gate opens the server is as new, but for the hooks that were registered. -/
theorem server_of_not_opens (h : ∀ i, ¬ Happened config events (Opens i)) :
    ((new config).run events).server = { config, hooks := events.filterMap Event.hook? } := by
  induction events using List.reverseRecOn with
  | nil => rfl
  | append_singleton events e ih =>
      have hserver := ih fun i hopens => h i (happened_concat.2 (.inl hopens))
      have hcalls : ∀ i, (((new config).run events).call i).Outside ∨
          ∃ released, ((new config).run events).call i = .wait released := by
        intro i
        have hcall := outside_or_underway config events i
        rw [hserver] at hcall
        exact outside_or_wait hcall
      rcases step_of_new_server hserver hcalls with ⟨i, hopens⟩ | hstep
      · exact absurd (happened_concat.2 (.inr hopens)) (h i)
      · have hlast : [e].filterMap Event.hook? = e.hook?.toList := by
          cases hhook : e.hook? <;> simp [hhook]
        rw [run_concat, hstep, List.filterMap_append, hlast]

/-- A start of a server whose gate has not opened passes it. -/
theorem poll_start_of_new_server {hooks : List Hook} (hserver : m.server = { config, hooks })
    {addr : String} (haddr : Starting.addressError? config addr = none) (tls : Option TlsConfig) :
    let m' := (m.step (.start addr tls)).step (.poll m.calls.length)
    m'.server = { m.server with phase := .running } ∧
      m'.call m.calls.length = .start addr tls .reporting := by
  intro m'
  have hbegun : (m.step (.start addr tls)).call m.calls.length = .start addr tls .entering := by
    rw [step, call, Machine.begin, List.getElem?_concat_length]
    rfl
  have hpasses : (Call.start addr tls .entering).Passes m.server := by
    rw [hserver]
    exact ⟨haddr, rfl⟩
  obtain ⟨hstep, hcall⟩ := step_poll (m.step (.start addr tls)) m.calls.length
  rw [hbegun] at hstep hcall
  have hsame : (m.step (.start addr tls)).server = m.server := rfl
  rw [hsame, Call.advance_of_passes hpasses] at hstep hcall
  exact ⟨hstep, hcall⟩

/-! ## The gate opens once -/

theorem phase_of_opens (h : Opens i m e) :
    m.server.phase = .created ∧ 1 ≤ (m.step e).server.phase.rank := by
  obtain ⟨⟨rfl, hpasses⟩, addr, tls, hcall⟩ := h
  rw [hcall] at hpasses
  refine ⟨hpasses.2, ?_⟩
  rw [(step_poll m i).1, hcall, Call.advance_of_passes hpasses]
  exact Nat.le_refl 1

/-- What a step brings about and later steps keep holds once the step has happened. -/
theorem holds_of_happened {A : Machine → Event → Prop} {P : Machine → Prop}
    (hA : ∀ {m : Machine} {e : Event}, m.Sound → A m e → P (m.step e))
    (hP : ∀ {m : Machine}, m.Sound → P m → ∀ events, P (m.run events))
    (h : Happened config events A) : P ((new config).run events) := by
  obtain ⟨before, e, after, rfl, ha⟩ := h
  have hm : ((new config).run before).Sound := (sound_new config).run before
  rw [run_append]
  exact hP (hm.step e).1 (hA hm ha) after

/-- The phase does not go back. -/
theorem Sound.le_rank_run {n : Nat} (hm : m.Sound) (h : n ≤ m.server.phase.rank)
    (events : List Event) : n ≤ (m.run events).server.phase.rank :=
  Nat.le_trans h (hm.later_run events).rank_le

/-- Once the gate has opened the server is started. -/
theorem one_le_rank_of_opens (h : Happened config events (Opens i)) :
    1 ≤ ((new config).run events).server.phase.rank :=
  holds_of_happened (P := fun m => 1 ≤ m.server.phase.rank)
    (fun _ hopens => (phase_of_opens hopens).2) Sound.le_rank_run h

/-- The gate does not open again after it has opened. -/
theorem not_opens_after {before between : List Event} {j : Nat} {e' : Event}
    (h : Opens i ((new config).run before) e) :
    ¬ Opens j ((new config).run (before ++ e :: between)) e' := by
  intro h'
  have hopened : Happened config (before ++ e :: between) (Opens i) :=
    ⟨before, e, between, rfl, h⟩
  exact Phase.ne_created (one_le_rank_of_opens hopened) (phase_of_opens h').1

/-- Of two places in the same events one is before the other, or they are the same. -/
theorem before_cases {before after before' after' : List Event} {e e' : Event}
    (h : before ++ e :: after = before' ++ e' :: after') :
    before = before' ∧ e = e' ∨ (∃ between, before' = before ++ e :: between) ∨
      ∃ between, before = before' ++ e' :: between := by
  rcases List.append_eq_append_iff.1 h with ⟨rest, hbefore, hrest⟩ | ⟨rest, hbefore, hrest⟩
  · cases rest with
    | nil =>
        rw [List.append_nil] at hbefore
        exact .inl ⟨hbefore.symm, (List.cons.inj hrest).1⟩
    | cons e₀ between =>
        obtain ⟨rfl, -⟩ := List.cons.inj hrest
        exact .inr (.inl ⟨between, hbefore⟩)
  · cases rest with
    | nil =>
        rw [List.append_nil] at hbefore
        exact .inl ⟨hbefore, (List.cons.inj hrest).1.symm⟩
    | cons e₀ between =>
        obtain ⟨rfl, -⟩ := List.cons.inj hrest
        exact .inr (.inr ⟨between, hbefore⟩)

/-! ## What a shutdown does is not undone -/

/-- The shutdown inside the call at a place marks the phase. -/
def Marks (i : Nat) (m : Machine) (e : Event) : Prop := e = .poll i ∧ (m.call i).Closes .marking

/-- The shutdown inside the call at a place asks serving to end. -/
def Asks (i : Nat) (m : Machine) (e : Event) : Prop := e = .poll i ∧ (m.call i).Closes .asking

theorem lt_of_closes {k : Closing} (h : (m.call i).Closes k) : i < m.calls.length := by
  by_contra hle
  rw [call_of_length_le (Nat.le_of_not_lt hle)] at h
  cases h

/-- What a shutdown marks is the phase, which is then that of a server that shuts down or is
stopped. -/
theorem Sound.two_le_rank_of_marks (hm : m.Sound) (h : Marks i m e) :
    2 ≤ (m.step e).server.phase.rank := by
  obtain ⟨rfl, hcloses⟩ := h
  obtain ⟨timeout, hclosing⟩ := hcloses.closing? m.server.config.shutdownTimeout
  have hstarted : 1 ≤ m.server.phase.rank := (hm.fits_closing hclosing).2
  have hserver : (m.step (.poll i)).server.phase =
      if m.server.phase = .running then .shuttingDown else m.server.phase := by
    rw [(step_poll m i).1]
    generalize m.call i = c at hcloses
    cases hcloses <;> rfl
  rw [hserver]
  by_cases hphase : m.server.phase = .running
  · rw [if_pos hphase]
    exact Nat.le_refl 2
  · rw [if_neg hphase]
    exact Phase.two_le_rank hstarted hphase

theorem draining_step_of_asks (h : Asks i m e) : (m.step e).server.draining := by
  obtain ⟨rfl, hcloses⟩ := h
  rw [(step_poll m i).1]
  generalize m.call i = c at hcloses
  cases hcloses <;> rfl

/-- A shutdown that has marked the phase asks serving to end next, and cannot be given up before. -/
theorem closes_of_marks (h : Marks i m e) : ((m.step e).call i).Closes .asking := by
  obtain ⟨rfl, hcloses⟩ := h
  rw [(step_poll m i).2]
  generalize m.call i = c at hcloses
  cases hcloses with
  | shutdown own => exact .shutdown own
  | stop => exact .stop
  | interrupted addr tls => exact .interrupted addr tls
  | stopping addr tls outcome => exact .stopping addr tls outcome

theorem Turn.closes_or_draining (h : Turn s i c e r) (hc : c.Closes .asking) :
    r.2.Closes .asking ∨ r.1.draining := by
  cases h with
  | poll => cases hc <;> exact .inr rfl
  | drop hpauses => cases hc <;> cases hpauses
  | expire | bound | signal | drained | listenerFails =>
      refine .inl ?_
      cases hc with
      | shutdown own => exact .shutdown own
      | stop => exact .stop
      | interrupted addr tls => exact .interrupted addr tls
      | stopping addr tls outcome => exact .stopping addr tls outcome

theorem closes_or_draining_step (h : (m.call i).Closes .asking) (e : Event) :
    ((m.step e).call i).Closes .asking ∨ (m.step e).server.draining := by
  rcases call_step_cases m e i with hturn | hsame | ⟨hi, -⟩
  · exact hturn.closes_or_draining h
  · rw [hsame]
    exact .inl h
  · exact absurd (lt_of_closes h) (by omega)

/-- After a shutdown has marked the phase it is about to ask serving to end, or serving has been
asked to. -/
theorem Sound.closes_or_draining_run (hm : m.Sound)
    (h : (m.call i).Closes .asking ∨ m.server.draining) (events : List Event) :
    ((m.run events).call i).Closes .asking ∨ (m.run events).server.draining := by
  induction events generalizing m with
  | nil => exact h
  | cons e events ih =>
      refine ih (hm.step e).1 ?_
      rcases h with hcloses | hdraining
      · exact closes_or_draining_step hcloses e
      · exact .inr ((hm.later e).draining hdraining)

/-- Once a shutdown has marked the phase, the server shuts down or is stopped. -/
theorem two_le_rank_of_marks (h : Happened config events (Marks i)) :
    2 ≤ ((new config).run events).server.phase.rank :=
  holds_of_happened (P := fun m => 2 ≤ m.server.phase.rank)
    Sound.two_le_rank_of_marks Sound.le_rank_run h

theorem closes_or_draining_of_marks (h : Happened config events (Marks i)) :
    (((new config).run events).call i).Closes .asking ∨
      ((new config).run events).server.draining :=
  holds_of_happened (P := fun m => (m.call i).Closes .asking ∨ m.server.draining)
    (fun _ hmarks => .inl (closes_of_marks hmarks)) Sound.closes_or_draining_run h

/-- Once serving has been asked to end, it remains so. -/
theorem draining_of_asks (h : Happened config events (Asks i)) :
    ((new config).run events).server.draining :=
  holds_of_happened (P := fun m => m.server.draining)
    (fun _ hasks => draining_step_of_asks hasks)
    (fun hm hdraining after => (hm.later_run after).draining hdraining) h

theorem drained_of_serving {addr : String} {tls : Option TlsConfig}
    (hcall : m.call i = .start addr tls .serving) (hdraining : m.server.draining)
    (hzero : m.server.inFlight = 0) :
    (m.step (.drained i)).call i = .start addr tls (.ending (.ok ())) := by
  have hget : m.calls[i]? = some (.start addr tls .serving) :=
    getElem?_of_call hcall Call.noConfusion
  rw [step, call_update hget, if_pos rfl, Call.drained, if_pos ⟨hdraining, hzero⟩]
  rfl

/-! ## The whole of it -/

/-- Whatever happens to a server and in whatever order:

* At most one start passes the gate.
* A call that is turned away by the check at its beginning never does anything to the server: a
  start with another address or of a server that was started, and a stop or a shutdown of one that
  was not. Nor does any start that has not passed the gate.
* Until the gate opens the server is as new, but for the hooks that were registered, and a start
  with an address that is allowed passes it.
* Once a shutdown, a stop or a start has marked the phase, the server shuts down or is stopped from
  then on, and serving is asked to end next if it was not before.
* Once serving is asked to end it remains so, and ends, when it goes on or begins, with no request
  in flight. -/
theorem gate_opens_once (config : ServerConfig) (events : List Event) :
    let m := (new config).run events
    (∀ i j before e after before' e' after',
      events = before ++ e :: after → Opens i ((new config).run before) e →
      events = before' ++ e' :: after' → Opens j ((new config).run before') e' →
        before = before' ∧ i = j) ∧
    (∀ i, Happened config events (TurnedAway i) → ¬ Happened config events (Acts i)) ∧
    (∀ i addr tls p, m.call i = .start addr tls p → ¬ Happened config events (Opens i) →
      ¬ Happened config events (Acts i)) ∧
    ((∀ i, ¬ Happened config events (Opens i)) →
      m.server = { config, hooks := events.filterMap Event.hook? } ∧
      ∀ addr tls, Starting.addressError? config addr = none →
        let m' := (m.step (.start addr tls)).step (.poll m.calls.length)
        m'.server = { m.server with phase := .running } ∧
          m'.call m.calls.length = .start addr tls .reporting) ∧
    (∀ i, Happened config events (Marks i) →
      m.server.phase ≠ .created ∧ m.server.phase ≠ .running ∧
        ((m.call i).Closes .asking ∨ m.server.draining)) ∧
    (∀ i, Happened config events (Asks i) → m.server.draining ∧
      ∀ j addr tls, m.call j = .start addr tls .serving → m.server.inFlight = 0 →
        (m.step (.drained j)).call j = .start addr tls (.ending (.ok ()))) := by
  intro m
  refine ⟨?_, ?_, ?_, ?_, ?_, ?_⟩
  · intro i j before e after before' e' after' hevents hopens hevents' hopens'
    rcases before_cases (hevents.symm.trans hevents') with
      ⟨rfl, rfl⟩ | ⟨between, rfl⟩ | ⟨between, rfl⟩
    · have hpoll : Event.poll i = .poll j := hopens.1.1.symm.trans hopens'.1.1
      exact ⟨rfl, Event.poll.inj hpoll⟩
    · exact absurd hopens' (not_opens_after hopens)
    · exact absurd hopens (not_opens_after hopens')
  · intro i hturned
    exact (not_acts_of_turnedAway hturned).2.2
  · intro i addr tls p hcall hopens
    by_cases hp : p.Inert
    · have hinert : (m.call i).Inert := by
        rw [hcall]
        exact hp
      exact not_acts_of_inert (.inr hinert)
    · exact absurd (opens_of_not_inert hcall hp) hopens
  · intro hopens
    have hserver := server_of_not_opens hopens
    exact ⟨hserver, fun addr tls haddr => poll_start_of_new_server hserver haddr tls⟩
  · intro i hmarks
    have hrank : 2 ≤ m.server.phase.rank := two_le_rank_of_marks hmarks
    refine ⟨?_, ?_, closes_or_draining_of_marks hmarks⟩
    · intro hphase
      rw [hphase] at hrank
      exact absurd hrank (by decide)
    · intro hphase
      rw [hphase] at hrank
      exact absurd hrank (by decide)
  · intro i hasks
    have hdraining : m.server.draining := draining_of_asks hasks
    refine ⟨hdraining, ?_⟩
    intro j addr tls hcall hzero
    exact drained_of_serving hcall hdraining hzero

/-- A stop before the start is turned away. A shutdown between the gate and the binding of the
listener is not, and its request ends serving as soon as that begins. -/
theorem gate_opens_once_early_shutdown :
    let upto := [.stop, .poll 0, .start "host:1" none]
    let events := upto ++ [.poll 1, .poll 1, .shutdown none, .poll 2, .poll 2, .poll 2,
      .bound 1 (.ok (.v4 0 0 0 0))]
    ¬ Happened {} events (Acts 0) ∧
      ((new {}).run upto).server = { hooks := upto.filterMap Event.hook? } ∧
      ((new {}).run events).server.phase ≠ .running ∧
      (((new {}).run events).step (.drained 1)).call 1 =
        .start "host:1" none (.ending (.ok ())) := by
  intro upto events
  have hturned : Happened {} events (TurnedAway 0) := ⟨[.stop], .poll 0, _, rfl, rfl, rfl⟩
  have hmarks : Happened {} events (Marks 2) :=
    ⟨events.take 7, .poll 2, _, rfl, rfl, .shutdown none⟩
  have hasks : Happened {} events (Asks 2) :=
    ⟨events.take 8, .poll 2, _, rfl, rfl, .shutdown none⟩
  have hclosed : ∀ i, ¬ Happened {} upto (Opens i) := by
    intro i hopens
    have hrank := one_le_rank_of_opens hopens
    exact absurd hrank (by decide)
  obtain ⟨-, hidle, -, hnew, hmarked, hasked⟩ := gate_opens_once {} events
  exact ⟨hidle 0 hturned, ((gate_opens_once {} upto).2.2.2.1 hclosed).1, (hmarked 2 hmarks).2.1,
    (hasked 2 hasks).2 1 _ _ rfl rfl⟩

end Machine

end Switchboard
