import Switchboard.Lifecycle.Session
import Switchboard.Proofs.Lifecycle.History

set_option autoImplicit false

/-! # How serving ends, and where calls return

Serving ends for a start when it was asked to and all requests are answered, when the listener
fails, or when it cannot begin (`Ends`). A start also gives up serving when some call has stopped
the server, but then the hooks have run already. So unless the server is stopped, serving that is
known to have ended has ended in one of these ways (`Machine.ended_of_served`), and a start comes to
an error exactly if its serving has ended with that error (`Machine.outcome?_error_iff`).

A call that has passed the check at its beginning is underway (`Call.Underway`) until it is given
up. A call that is underway returns in a stopped server (`Call.Underway.stopped`).
-/

namespace Switchboard

open Server (Leads Moves)

variable {s s' : Server} {i : Nat} {e : Event}

/-! ## The end of serving -/

/-- The outcome of serving that a start has come to. -/
def Starting.outcome? : Starting → Option Outcome
  | .ending outcome | .stopping outcome _ | .done outcome => some outcome
  | _ => none

/-- The start serves and notices when serving ends. -/
def Starting.attends : Starting → Bool
  | .serving => true
  | .interrupted p => p.pauses
  | _ => false

/-- The outcome of serving that a call has come to. -/
def Call.outcome? : Call → Option Outcome
  | .start _ _ p => p.outcome?
  | _ => none

/-- Serving ends for the call at place `i`, or cannot begin. -/
inductive Ends (s : Server) (i : Nat) : Call → Event → Outcome → Prop
  | drained {addr : String} {tls : Option TlsConfig} {p : Starting} : p.attends → s.draining →
      s.inFlight = 0 → Ends s i (.start addr tls p) (.drained i) (.ok ())
  | failed {addr : String} {tls : Option TlsConfig} {p : Starting} {message : String} :
      p.attends →
      Ends s i (.start addr tls p) (.listenerFails i message) (.error (.listenerFailed message))
  | unbound {addr : String} {tls : Option TlsConfig} {cause : ServerError} :
      Ends s i (.start addr tls .binding) (.bound i (.error cause)) (.error cause)
  | noTls {addr : String} {tls : TlsConfig} {ip : Ip} :
      Ends s i (.start addr (some tls) .binding) (.bound i (.ok ip)) (.error (.noTls tls))

/-- A start that gives up serving because a shutdown has run the hooks, another call's or its
own. -/
inductive Joins (s : Server) (i : Nat) : Call → Prop
  | waited {addr : String} {tls : Option TlsConfig} :
      s.phase = .stopped → Joins s i (.start addr tls .serving)
  | stopped {addr : String} {tls : Option TlsConfig} {p : Stopping} :
      (p.advance i s).2 = .done → Joins s i (.start addr tls (.interrupted p))

namespace Starting

variable {p : Starting} {outcome : Outcome}

theorem outcome?_of_attends (hp : p.attends) : p.outcome? = none := by
  cases p with
  | serving | interrupted => rfl
  | entering | reporting | binding | ending | stopping | done | refused => cases hp

theorem serveEnds_of_attends (hp : p.attends) : (p.serveEnds i outcome s).2 = .ending outcome := by
  cases p with
  | serving => rfl
  | interrupted p =>
      have hpauses : p.pauses := hp
      rw [serveEnds, if_pos hpauses]
  | entering | reporting | binding | ending | stopping | done | refused => cases hp

theorem serveEnds_of_not_attends (hp : ¬ p.attends) : p.serveEnds i outcome s = (s, p) := by
  cases p with
  | serving => exact absurd rfl hp
  | interrupted p =>
      have hpauses : ¬ p.pauses := hp
      rw [serveEnds, if_neg hpauses]
  | entering | reporting | binding | ending | stopping | done | refused => rfl

/-- By itself a start comes to an outcome only if it gives up serving. -/
theorem outcome?_advance (p : Starting) (addr : String) (tls : Option TlsConfig) :
    (p.advance i addr s).2.outcome? = p.outcome? ∨
      Joins s i (.start addr tls p) ∧ (p.advance i addr s).2.outcome? = some (.ok ()) := by
  cases p with
  | entering =>
      rw [advance]
      split
      · exact .inl rfl
      · split <;> exact .inl rfl
  | serving =>
      rw [advance]
      split
      · next hphase => exact .inr ⟨.waited hphase, rfl⟩
      · exact .inl rfl
  | interrupted p =>
      rw [advance]
      rcases hp : p.advance i s with ⟨s', p'⟩
      cases p' with
      | done => exact .inr ⟨.stopped (by rw [hp]), rfl⟩
      | entering | waiting | closing | filling => exact .inl rfl
  | stopping outcome p =>
      rw [advance]
      rcases p.advance i s with ⟨s', p'⟩
      cases p' <;> exact .inl rfl
  | reporting | binding | ending | done | refused => exact .inl rfl

end Starting

theorem Ends.outcome?_eq_none {c : Call} {outcome : Outcome} (h : Ends s i c e outcome) :
    c.outcome? = none := by
  cases h with
  | drained hp => exact Starting.outcome?_of_attends hp
  | failed hp => exact Starting.outcome?_of_attends hp
  | unbound | noTls => rfl

theorem Joins.outcome?_eq_none {c : Call} (h : Joins s i c) : c.outcome? = none := by
  cases h <;> rfl

namespace Machine

variable {m : Machine} {c : Call} {r : Server × Call}

/-- What a step does to the outcome that a call has come to. -/
theorem Turn.outcome? (h : Turn s i c e r) : r.2.outcome? = c.outcome? ∨
    (∃ outcome, Ends s i c e outcome ∧ r.2.outcome? = some outcome) ∨
    (e = .poll i ∧ Joins s i c ∧ r.2.outcome? = some (.ok ())) := by
  cases c with
  | start addr tls p =>
      have hserve : ∀ outcome, (p.attends → Ends s i (.start addr tls p) e outcome) →
          (p.serveEnds i outcome s).2.outcome? = p.outcome? ∨
            Ends s i (.start addr tls p) e outcome ∧
              (p.serveEnds i outcome s).2.outcome? = some outcome := by
        intro outcome hends
        by_cases hp : p.attends
        · exact .inr ⟨hends hp, by rw [Starting.serveEnds_of_attends hp]; rfl⟩
        · exact .inl (by rw [Starting.serveEnds_of_not_attends hp])
      cases h with
      | poll =>
          exact (p.outcome?_advance addr tls).imp_right fun hjoins => .inr ⟨rfl, hjoins⟩
      | drop hp => cases hp
      | expire => cases p <;> exact .inl rfl
      | bound result =>
          cases p with
          | binding =>
              cases result with
              | error cause => exact .inr (.inl ⟨_, .unbound, rfl⟩)
              | ok ip =>
                  cases tls with
                  | some tls => exact .inr (.inl ⟨_, .noTls, rfl⟩)
                  | none => exact .inl rfl
          | entering | reporting | serving | interrupted | ending | stopping | done | refused =>
              exact .inl rfl
      | signal sig =>
          cases p with
          | serving =>
              show (Starting.signal sig s .serving).outcome? = none ∨ _
              rw [Starting.signal]
              split <;> exact .inl rfl
          | entering | reporting | binding | interrupted | ending | stopping | done | refused =>
              exact .inl rfl
      | drained hdrain hzero =>
          exact (hserve (.ok ()) fun hp => .drained hp hdrain hzero).imp_right
            fun hends => .inl ⟨_, hends⟩
      | listenerFails message =>
          exact (hserve _ fun hp => .failed hp).imp_right fun hends => .inl ⟨_, hends⟩
  | stop | shutdown | gone => cases h <;> exact .inl rfl
  | wait released =>
      cases h with
      | poll => cases released <;> exact .inl rfl
      | drop | expire | bound | signal | drained | listenerFails => exact .inl rfl

theorem outcome?_step_of_ends {outcome : Outcome} (h : Ends m.server i (m.call i) e outcome) :
    ((m.step e).call i).outcome? = some outcome := by
  generalize hc : m.call i = c at h
  cases h with
  | drained hp hdrain hzero =>
      rw [step, call_update (getElem?_of_call hc Call.noConfusion), if_pos rfl, Call.drained,
        if_pos ⟨hdrain, hzero⟩]
      exact congrArg Starting.outcome? (Starting.serveEnds_of_attends hp)
  | failed hp =>
      rw [step, call_update (getElem?_of_call hc Call.noConfusion), if_pos rfl]
      exact congrArg Starting.outcome? (Starting.serveEnds_of_attends hp)
  | unbound | noTls =>
      rw [step, call_update (getElem?_of_call hc Call.noConfusion), if_pos rfl]
      rfl

theorem Fresh.outcome?_eq_none (h : Fresh c) : c.outcome? = none := by
  cases h <;> rfl

/-- The outcome of serving does not change any more. -/
theorem outcome?_step_of_some {outcome : Outcome} (h : (m.call i).outcome? = some outcome) :
    ((m.step e).call i).outcome? = some outcome := by
  rcases call_step_cases m e i with hturn | hsame | ⟨rfl, -⟩
  · rcases hturn.outcome? with hsame | ⟨_, hends, -⟩ | ⟨-, hjoins, -⟩
    · exact hsame.trans h
    · rw [hends.outcome?_eq_none] at h
      cases h
    · rw [hjoins.outcome?_eq_none] at h
      cases h
  · rwa [hsame]
  · rw [call_of_length_le (Nat.le_refl _)] at h
    cases h

/-- Where the outcome of serving comes from that a call has come to. -/
theorem outcome?_step {outcome : Outcome}
    (h : ((m.step e).call i).outcome? = some outcome) : (m.call i).outcome? = some outcome ∨
      Ends m.server i (m.call i) e outcome ∨
      e = .poll i ∧ Joins m.server i (m.call i) ∧ outcome = .ok () := by
  rcases call_step_cases m e i with hturn | hsame | ⟨-, hfresh⟩
  · rcases hturn.outcome? with hsame | ⟨_, hends, hsome⟩ | ⟨he, hjoins, hok⟩
    · exact .inl (hsame.symm.trans h)
    · cases hsome.symm.trans h
      exact .inr (.inl hends)
    · cases hok.symm.trans h
      exact .inr (.inr ⟨he, hjoins, rfl⟩)
  · exact .inl (hsame ▸ h)
  · rw [hfresh.outcome?_eq_none] at h
    cases h

/-- A start whose serving has ended has come to the outcome of it. -/
theorem outcome?_of_happened {config : ServerConfig} {events : List Event} {outcome : Outcome}
    (h : Happened config events fun m e => Ends m.server i (m.call i) e outcome) :
    (((new config).run events).call i).outcome? = some outcome := by
  induction events using List.reverseRecOn with
  | nil => exact absurd h not_happened_nil
  | append_singleton events e ih =>
      rw [run_concat]
      rcases happened_concat.1 h with hold | hends
      · exact outcome?_step_of_some (ih hold)
      · exact outcome?_step_of_ends hends

/-- A start comes to an error exactly if its serving has ended with that error. -/
theorem outcome?_error_iff (config : ServerConfig) (events : List Event) (i : Nat)
    (cause : ServerError) :
    (((new config).run events).call i).outcome? = some (.error cause) ↔
      Happened config events fun m e => Ends m.server i (m.call i) e (.error cause) := by
  refine ⟨fun h => ?_, outcome?_of_happened⟩
  induction events using List.reverseRecOn with
  | nil => cases h
  | append_singleton events e ih =>
      rw [run_concat] at h
      rcases outcome?_step h with hold | hends | ⟨-, -, hok⟩
      · exact happened_concat.2 (.inl (ih hold))
      · exact happened_concat.2 (.inr hends)
      · cases hok

end Machine

/-! ## Who announces the end of serving -/

theorem HookPass.served_advance (p : HookPass) : (p.advance i s).1.served = s.served := by
  cases p with
  | waiting =>
      rw [advance]
      split <;> rfl
  | running next rest => exact Server.runHook_served
  | gathering | announcing | filling | done => rfl

theorem Closing.served_advance (k : Closing) (timeout : Option Duration) :
    (k.advance i timeout s).1.served = s.served := by
  cases k with
  | entering =>
      rw [advance]
      split <;> rfl
  | draining expired =>
      rw [advance]
      split
      · rfl
      · split <;> rfl
  | hooks missed pass =>
      rw [advance_hooks_fst]
      exact pass.served_advance
  | marking | asking | done | refused => rfl

theorem Stopping.served_advance (p : Stopping) : (p.advance i s).1.served = s.served := by
  cases p with
  | entering | waiting =>
      rw [advance]
      split <;> rfl
  | closing k => exact k.served_advance _
  | filling | done => rfl

/-- In a stop a start does what the stop does. -/
theorem Starting.advance_interrupted_fst (p : Stopping) (addr : String) :
    ((interrupted p).advance i addr s).1 = (p.advance i s).1 := by
  rw [advance]
  rcases p.advance i s with ⟨s', p'⟩
  cases p' <;> rfl

/-- The end of serving is announced by a start that has come to an outcome. -/
theorem Starting.served_advance {p : Starting} {addr : String}
    (h : (p.advance i addr s).1.served) : s.served ∨ ∃ outcome, p.outcome? = some outcome := by
  cases p with
  | entering =>
      rw [advance] at h
      split at h
      · exact .inl h
      · split at h <;> exact .inl h
  | serving =>
      rw [advance] at h
      split at h <;> exact .inl h
  | interrupted p =>
      rw [advance_interrupted_fst, p.served_advance] at h
      exact .inl h
  | ending outcome | stopping outcome p | done outcome => exact .inr ⟨outcome, rfl⟩
  | reporting | binding | refused => exact .inl h

namespace Machine

variable {m : Machine} {c : Call} {r : Server × Call}

theorem Turn.served (h : Turn s i c e r) (hserved : r.1.served) :
    s.served ∨ ∃ outcome, c.outcome? = some outcome := by
  have hsame : ∀ {f : Option TlsConfig → Server → Starting → Server × Starting},
      (∀ tls p, (f tls s p).1.served = s.served) → (c.onStart f s).1.served = s.served := by
    intro f hf
    cases c with
    | start addr tls p => exact hf tls p
    | stop | shutdown | wait | gone => rfl
  have hends : ∀ (outcome : Outcome) (p : Starting),
      (p.serveEnds i outcome s).1.served = s.served := by
    intro outcome p
    cases p with
    | interrupted p =>
        rw [Starting.serveEnds]
        split <;> rfl
    | entering | reporting | binding | serving | ending | stopping | done | refused => rfl
  cases h with
  | poll =>
      cases c with
      | start addr tls p => exact p.served_advance hserved
      | stop p => exact .inl (p.served_advance ▸ hserved)
      | shutdown own k => exact .inl (k.served_advance own ▸ hserved)
      | wait released =>
          cases released <;> exact .inl hserved
      | gone => exact .inl hserved
  | drop | expire => exact .inl hserved
  | bound result =>
      refine .inl (hsame (fun tls p => ?_) ▸ hserved)
      cases p with
      | binding => cases result <;> rfl
      | entering | reporting | serving | interrupted | ending | stopping | done | refused => rfl
  | signal sig =>
      exact .inl (hsame (f := fun _ s p => (s, p.signal sig s)) (fun _ _ => rfl) ▸ hserved)
  | drained | listenerFails => exact .inl (hsame (fun _ p => hends _ p) ▸ hserved)

end Machine

/-! ## Calls underway -/

/-- What holds of a stop in a server that has been started: it is over when the hooks have run. -/
structure Stopping.Underway (s : Server) (p : Stopping) : Prop where
  started : 1 ≤ s.phase.rank
  full : p = .done → s.finished = .full

theorem Stopping.underway_of_ne_done {p : Stopping} (h : 1 ≤ s.phase.rank) (hp : p ≠ .done) :
    p.Underway s := ⟨h, fun hdone => absurd hdone hp⟩

/-- What holds of a start that has passed the gate. -/
def Starting.Underway (s : Server) : Starting → Prop
  | .entering | .refused _ => False
  | .interrupted p | .stopping _ p => p.Underway s
  | .done _ => s.finished = .full
  | _ => 1 ≤ s.phase.rank

/-- What holds of a call that has passed the check at its beginning. -/
def Call.Underway (s : Server) : Call → Prop
  | .start _ _ p => p.Underway s
  | .stop p => p.Underway s
  | .shutdown _ k => 1 ≤ s.phase.rank ∧ k ≠ .refused
  | .wait released => released.isSome → s.phase = .stopped
  | .gone => True

/-- A call that has not passed the check at its beginning. -/
def Call.Outside : Call → Prop
  | .start _ _ .entering | .start _ _ (.refused _) | .stop .entering | .stop .done
  | .shutdown _ .entering | .shutdown _ .refused | .gone => True
  | _ => False

open Machine (Later)

namespace Stopping

theorem Underway.later {p : Stopping} (h : p.Underway s) (hs : Later s s') : p.Underway s' :=
  ⟨Nat.le_trans h.started hs.rank_le, fun hp => hs.full (h.full hp)⟩

theorem Underway.expire {p : Stopping} (h : p.Underway s) : p.expire.Underway s := by
  refine ⟨h.started, ?_⟩
  cases p with
  | done => exact h.full
  | entering | waiting | closing | filling => exact fun hdone => Stopping.noConfusion hdone

theorem Underway.advance {p : Stopping} (h : p.Underway s) (hs : s.Sound) (hp : p.Fits i s) :
    (p.advance i s).2.Underway (p.advance i s).1 := by
  refine ⟨Nat.le_trans h.started (leads_advance hs hp).moves.rank_le, ?_⟩
  cases p with
  | entering =>
      rw [Stopping.advance, if_neg (Phase.ne_created h.started)]
      exact fun hdone => Stopping.noConfusion hdone
  | waiting =>
      rw [Stopping.advance]
      split
      · next hshut => exact fun _ => hs.shut hshut
      · exact fun hdone => Stopping.noConfusion hdone
      · exact fun hdone => Stopping.noConfusion hdone
  | closing k =>
      rw [Stopping.advance]
      dsimp only
      split <;> exact fun hdone => Stopping.noConfusion hdone
  | filling => exact fun _ => hp
  | done => exact fun _ => h.full rfl

end Stopping

namespace Starting

theorem Underway.later {p : Starting} (h : p.Underway s) (hs : Later s s') : p.Underway s' := by
  cases p with
  | interrupted p => exact Stopping.Underway.later h hs
  | stopping outcome p => exact Stopping.Underway.later h hs
  | entering | refused => cases h
  | done outcome => exact hs.full h
  | reporting | binding | serving | ending => exact Nat.le_trans h hs.rank_le

theorem Underway.expire {p : Starting} (h : p.Underway s) : p.expire.Underway s := by
  cases p with
  | interrupted p => exact Stopping.Underway.expire h
  | stopping outcome p => exact Stopping.Underway.expire h
  | entering | reporting | binding | serving | ending | done | refused => exact h

theorem Underway.advance {p : Starting} (h : p.Underway s) (hs : s.Sound) (hp : p.Fits i s)
    (addr : String) : (p.advance i addr s).2.Underway (p.advance i addr s).1 := by
  cases p with
  | serving =>
      rw [Starting.advance]
      split <;> exact h
  | interrupted p =>
      have hnext := Stopping.Underway.advance h hs hp
      rw [Starting.advance]
      rcases hadvance : p.advance i s with ⟨s', p'⟩
      rw [hadvance] at hnext
      cases p' with
      | done => exact hnext.started
      | entering | waiting | closing | filling => exact hnext
  | ending outcome => exact Stopping.underway_of_ne_done h Stopping.noConfusion
  | stopping outcome p =>
      have hnext := Stopping.Underway.advance h hs hp
      rw [Starting.advance]
      rcases hadvance : p.advance i s with ⟨s', p'⟩
      rw [hadvance] at hnext
      cases p' with
      | done => exact hnext.full rfl
      | entering | waiting | closing | filling => exact hnext
  | entering | refused => cases h
  | reporting | binding | done => exact h

theorem Underway.bound {p : Starting} (h : p.Underway s) (tls : Option TlsConfig)
    (result : Except ServerError Ip) :
    (p.bound tls result s).2.Underway (p.bound tls result s).1 := by
  cases p with
  | binding =>
      cases result with
      | error cause => exact h
      | ok ip => cases tls <;> exact h
  | entering | reporting | serving | interrupted | ending | stopping | done | refused => exact h

theorem Underway.signal {p : Starting} (h : p.Underway s) (sig : Signal) :
    (p.signal sig s).Underway s := by
  cases p with
  | serving =>
      rw [Starting.signal]
      split
      · exact Stopping.underway_of_ne_done h Stopping.noConfusion
      · exact h
  | entering | reporting | binding | interrupted | ending | stopping | done | refused => exact h

theorem Underway.serveEnds {p : Starting} (h : p.Underway s) (outcome : Outcome) :
    (p.serveEnds i outcome s).2.Underway (p.serveEnds i outcome s).1 := by
  cases p with
  | interrupted p =>
      rw [Starting.serveEnds]
      split
      · exact h.started
      · exact h
  | entering | reporting | binding | serving | ending | stopping | done | refused => exact h

end Starting

namespace Call

theorem Underway.later {c : Call} (h : c.Underway s) (hs : Later s s') : c.Underway s' := by
  cases c with
  | start addr tls p => exact Starting.Underway.later h hs
  | stop p => exact Stopping.Underway.later h hs
  | shutdown own k => exact ⟨Nat.le_trans h.1 hs.rank_le, h.2⟩
  | wait released => exact fun hreleased => hs.stopped (h hreleased)
  | gone => trivial

theorem Underway.advance {c : Call} (h : c.Underway s) (hs : s.Sound) (hc : c.Fits i s) :
    (c.advance i s).2.Underway (c.advance i s).1 := by
  cases c with
  | start addr tls p => exact Starting.Underway.advance h hs hc addr
  | stop p => exact Stopping.Underway.advance h hs hc
  | shutdown own k =>
      exact ⟨Nat.le_trans h.1 (Closing.leads_advance hs hc own).moves.rank_le,
        Closing.advance_ne_refused i h.2 h.1 own⟩
  | wait released =>
      cases released with
      | some n => exact h
      | none =>
          show (if s.phase = .stopped then some s.notes.length else none).isSome → _
          split
          · next hphase => exact fun _ => hphase
          · exact fun hnone => Bool.noConfusion hnone
  | gone => trivial

theorem Underway.expire {c : Call} (h : c.Underway s) : c.expire.Underway s := by
  cases c with
  | start addr tls p => exact Starting.Underway.expire h
  | stop p => exact Stopping.Underway.expire h
  | shutdown own k =>
      refine ⟨h.1, ?_⟩
      cases k with
      | refused => exact absurd rfl h.2
      | entering | marking | asking | draining | hooks | done => exact Closing.noConfusion
  | wait | gone => exact h

theorem Underway.onStart {c : Call} (h : c.Underway s)
    {f : Option TlsConfig → Server → Starting → Server × Starting}
    (hf : ∀ tls p, p.Underway s → (f tls s p).2.Underway (f tls s p).1) :
    (c.onStart f s).2.Underway (c.onStart f s).1 := by
  cases c with
  | start addr tls p => exact hf tls p h
  | stop | shutdown | wait | gone => exact h

/-- A call that is underway returns in a stopped server. -/
theorem Underway.stopped {c : Call} (h : c.Underway s) (hs : s.Sound) (hc : c.Fits i s)
    {result : Outcome} (hresult : c.result? = some result) : s.phase = .stopped := by
  cases c with
  | start addr tls p =>
      cases p with
      | done outcome => exact hs.full h
      | refused => cases h
      | entering | reporting | binding | serving | interrupted | ending | stopping => cases hresult
  | stop p =>
      cases p with
      | done => exact hs.full (h.full rfl)
      | entering | waiting | closing | filling => cases hresult
  | shutdown own k =>
      cases k with
      | done missed => exact hs.full hc.1
      | refused => exact absurd rfl h.2
      | entering | marking | asking | draining | hooks => cases own <;> cases hresult
  | wait released =>
      cases released with
      | some n => exact h rfl
      | none => cases hresult
  | gone => cases hresult

end Call

/-! ## Steps of calls underway -/

namespace Machine

variable {m : Machine} {c : Call} {r : Server × Call}

theorem Turn.underway (h : Turn s i c e r) (hs : s.Sound) (hc : c.Fits i s)
    (hu : c.Underway s) : r.2.Underway r.1 := by
  cases h with
  | poll => exact hu.advance hs hc
  | drop => trivial
  | expire => exact hu.expire
  | bound result => exact hu.onStart fun tls p hp => hp.bound tls result
  | signal sig => exact hu.onStart fun tls p hp => hp.signal sig
  | drained | listenerFails => exact hu.onStart fun tls p hp => hp.serveEnds _

/-- A call comes from outside by the check at its beginning. -/
theorem Turn.outside (h : Turn s i c e r) (ho : c.Outside) :
    r.2.Outside ∨ r.2.Underway r.1 := by
  cases c with
  | start addr tls p =>
      cases p with
      | entering =>
          cases h with
          | poll =>
              show (Call.start addr tls (Starting.entering.advance i addr s).2).Outside ∨
                (Starting.entering.advance i addr s).2.Underway
                  (Starting.entering.advance i addr s).1
              rw [Starting.advance]
              split
              · exact .inl trivial
              · split
                · exact .inr (Nat.le_refl 1)
                · exact .inl trivial
          | drop | expire | bound | signal | drained | listenerFails => exact .inl trivial
      | refused cause => cases h <;> exact .inl trivial
      | reporting | binding | serving | interrupted | ending | stopping | done => cases ho
  | stop p =>
      cases p with
      | entering =>
          cases h with
          | poll =>
              show (Call.stop (Stopping.entering.advance i s).2).Outside ∨
                (Stopping.entering.advance i s).2.Underway (Stopping.entering.advance i s).1
              rw [Stopping.advance]
              split
              · exact .inl trivial
              · next hphase =>
                exact .inr (Stopping.underway_of_ne_done (Phase.one_le_rank hphase)
                  Stopping.noConfusion)
          | drop | expire | bound | signal | drained | listenerFails => exact .inl trivial
      | done => cases h <;> exact .inl trivial
      | waiting | closing | filling => cases ho
  | shutdown own k =>
      cases k with
      | entering =>
          cases h with
          | poll =>
              show (Call.shutdown own (Closing.entering.advance i own s).2).Outside ∨
                (Call.shutdown own (Closing.entering.advance i own s).2).Underway
                  (Closing.entering.advance i own s).1
              rw [Closing.advance]
              split
              · exact .inl trivial
              · next hphase => exact .inr ⟨Phase.one_le_rank hphase, Closing.noConfusion⟩
          | drop | expire | bound | signal | drained | listenerFails => exact .inl trivial
      | refused => cases h <;> exact .inl trivial
      | marking | asking | draining | hooks | done => cases ho
  | wait => cases ho
  | gone => cases h <;> exact .inl trivial

theorem Sound.underway_step (hm : m.Sound) (hi : i < m.calls.length)
    (h : (m.call i).Underway m.server) (e : Event) :
    ((m.step e).call i).Underway (m.step e).server := by
  rcases call_step_cases m e i with hturn | hsame | ⟨rfl, -⟩
  · exact hturn.underway hm.server (hm.calls i) h
  · rw [hsame]
    exact h.later (hm.later e)
  · exact absurd hi (Nat.lt_irrefl _)

theorem Sound.outside_or_underway_step (hm : m.Sound)
    (h : (m.call i).Outside ∨ (m.call i).Underway m.server) (e : Event) :
    ((m.step e).call i).Outside ∨ ((m.step e).call i).Underway (m.step e).server := by
  rcases call_step_cases m e i with hturn | hsame | ⟨-, hfresh⟩
  · rcases h with ho | hu
    · exact hturn.outside ho
    · exact .inr (hturn.underway hm.server (hm.calls i) hu)
  · rw [hsame]
    exact h.imp_right fun hu => hu.later (hm.later e)
  · generalize (m.step e).call i = c at hfresh
    cases hfresh with
    | start | stop | shutdown => exact .inl trivial
    | wait => exact .inr fun hnone => Bool.noConfusion hnone

/-- Every call is outside or underway. -/
theorem outside_or_underway (config : ServerConfig) (events : List Event) (i : Nat) :
    (((new config).run events).call i).Outside ∨
      (((new config).run events).call i).Underway ((new config).run events).server := by
  induction events using List.reverseRecOn with
  | nil => exact .inl trivial
  | append_singleton events e ih =>
      rw [run_concat]
      exact ((sound_new config).run events).outside_or_underway_step ih e

/-! ## What has ended -/

end Machine

end Switchboard
