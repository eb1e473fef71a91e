import Switchboard.Proofs.Lifecycle.Serving

set_option autoImplicit false

/-! # Calls return when the server is stopped

A pass takes the hooks that are registered when it begins. It can be given up, and another pass
begins anew, so what counts is the last one (`Machine.lastPass?`). While it goes on, each of its
hooks has run or is left to it (`Machine.Covered`), and it stops the server when none is left.

`Machine.returns_when_stopped` puts this together with what holds of calls that are underway: no
call that has passed the check at its beginning returns earlier, and a start returns the outcome of
serving.
-/

namespace Switchboard

open Server (Touched)

variable {s : Server} {i : Nat} {e : Event}

/-! ## The last pass over the hooks -/

/-- The hooks that are left to a pass which has taken its hooks. -/
def HookPass.left? : HookPass → Option (List Nat)
  | .running next rest => some (next :: rest)
  | .announcing | .filling => some []
  | _ => none

/-- Each of the hooks that the last pass has taken has run or is left to it. -/
def Server.Covers (s : Server) (last? : Option Nat) (left : List Nat) : Prop :=
  ∃ n, last? = some n ∧ ∀ k < n, k ∈ left ∨ k ∈ s.places

namespace HookPass

theorem left?_ofList (left : List Nat) : (ofList left).left? = some left := by
  cases left <;> rfl

/-- What is left to a pass after a step was left to it before or has run, unless the pass has just
taken its hooks. -/
theorem left?_advance {p : HookPass} (hp : p.Fits i s) {left' : List Nat}
    (h : (p.advance i s).2.left? = some left') :
    p = .gathering ∧ left' = (List.range s.hooks.length).reverse ∨
      ∃ left, p.left? = some left ∧ ∀ k ∈ left, k ∈ left' ∨ k ∈ (p.advance i s).1.places := by
  cases p with
  | waiting =>
      rw [advance] at h
      split at h <;> cases h
  | gathering =>
      rw [advance, left?_ofList] at h
      exact .inl ⟨rfl, (Option.some.inj h).symm⟩
  | running next rest =>
      rw [advance, left?_ofList] at h
      obtain rfl := Option.some.inj h
      refine .inr ⟨next :: rest, rfl, fun k hk => ?_⟩
      rcases List.mem_cons.1 hk with rfl | hrest
      · exact .inr (Server.mem_places_runHook hp.2.2.1)
      · exact .inl hrest
  | announcing => exact .inr ⟨[], rfl, fun k hk => absurd hk List.not_mem_nil⟩
  | filling | done => cases h

end HookPass

/-- A pass that a shutdown goes on with is the one that it was at. -/
theorem Closing.advance_eq_hooks {k : Closing} {timeout : Option Duration} {missed : Bool}
    {pass' : HookPass} {left : List Nat} (h : (k.advance i timeout s).2 = .hooks missed pass')
    (hleft : pass'.left? = some left) : ∃ pass, k = .hooks missed pass ∧
      pass.advance i s = ((k.advance i timeout s).1, pass') := by
  cases k with
  | entering =>
      rw [advance] at h
      split at h <;> cases h
  | draining expired =>
      rw [advance] at h
      split at h
      · cases h
        cases hleft
      · split at h
        · cases h
          cases hleft
        · cases h
  | hooks missed' pass =>
      rw [advance] at h ⊢
      rcases hadvance : pass.advance i s with ⟨s', p⟩
      rw [hadvance] at h
      cases p with
      | done => cases h
      | waiting | gathering | running | announcing | filling =>
          cases h
          exact ⟨pass, rfl, hadvance⟩
  | marking | asking | done | refused => cases h

namespace Machine

variable {m : Machine}

/-- The number of hooks that a pass takes which begins with this step. -/
def gathered? (m : Machine) : Event → Option Nat
  | .poll i =>
    match m.closing? i with
    | some (_, .hooks _ .gathering) => some m.server.hooks.length
    | _ => none
  | _ => none

/-- The number of hooks that the last pass has taken, where `last?` is that of the pass before. -/
def lastPass? (m : Machine) : List Event → Option Nat → Option Nat
  | [], last? => last?
  | e :: events, last? => (m.step e).lastPass? events ((m.gathered? e).or last?)

theorem lastPass?_concat (m : Machine) (events : List Event) (e : Event) (last? : Option Nat) :
    m.lastPass? (events ++ [e]) last? =
      ((m.run events).gathered? e).or (m.lastPass? events last?) := by
  induction events generalizing m last? with
  | nil => rfl
  | cons e' events ih => exact ih _ _

theorem exists_of_gathered? {n : Nat} (h : m.gathered? e = some n) :
    ∃ i timeout missed, e = .poll i ∧ m.closing? i = some (timeout, .hooks missed .gathering) := by
  cases e with
  | poll i =>
      rw [gathered?] at h
      split at h
      · next timeout missed hclosing => exact ⟨i, timeout, missed, rfl, hclosing⟩
      · cases h
  | register | start | stop | shutdown | wait | drop | expire | bound | signal | request | response
  | drained | listenerFails => cases h

/-- Each of the hooks that the last pass has taken has run or is left to it, and all have run in a
stopped server. -/
structure Covered (m : Machine) (last? : Option Nat) : Prop where
  pass : ∀ {i timeout missed pass left}, m.closing? i = some (timeout, .hooks missed pass) →
    pass.left? = some left → m.server.Covers last? left
  stopped : m.server.phase = .stopped → m.server.Covers last? []

theorem covers_step {last? : Option Nat} {left : List Nat} (hm : m.Sound)
    (h : m.server.Covers last? left) (hgather : m.gathered? e = none) :
    (m.step e).server.Covers ((m.gathered? e).or last?) left := by
  obtain ⟨n, hn, hcovers⟩ := h
  refine ⟨n, by rw [hgather]; exact hn, fun k hk => ?_⟩
  exact (hcovers k hk).imp_right fun hran => (hm.later e).places hran

/-- No pass begins while another one has taken its hooks. -/
theorem Sound.gathered?_of_left (hm : m.Sound) {timeout : Option Duration} {missed : Bool}
    {pass : HookPass} {left : List Nat} (h : m.closing? i = some (timeout, .hooks missed pass))
    (hleft : pass.left? = some left) (e : Event) : m.gathered? e = none := by
  have hheld : m.server.finished = .held i := by
    have hpass : pass.Fits i m.server := (hm.fits_closing h).1
    cases pass with
    | running | announcing | filling => exact hpass.1
    | waiting | gathering | done => cases hleft
  by_contra hne
  obtain ⟨n, hn⟩ := Option.ne_none_iff_exists'.1 hne
  obtain ⟨j, timeout', missed', -, hj⟩ := exists_of_gathered? hn
  have hheld' : m.server.finished = .held j := (hm.fits_closing hj).1.1
  obtain rfl : i = j := Cell.held.inj (hheld.symm.trans hheld')
  cases h.symm.trans hj
  cases hleft

theorem Sound.gathered?_of_stopped (hm : m.Sound) (h : m.server.phase = .stopped) (e : Event) :
    m.gathered? e = none := by
  by_contra hne
  obtain ⟨n, hn⟩ := Option.ne_none_iff_exists'.1 hne
  obtain ⟨j, timeout, missed, -, hj⟩ := exists_of_gathered? hn
  have hphase : m.server.phase = .shuttingDown := (hm.fits_closing hj).1.2
  cases h.symm.trans hphase

/-- A pass that has taken its hooks is where it was, or has just taken a step. -/
theorem Shifts.pass {before : Option (Option Duration × Closing)} {s' : Server}
    {timeout : Option Duration} {missed : Bool} {pass' : HookPass} {left : List Nat}
    (h : Shifts s i e before s' (some (timeout, .hooks missed pass')))
    (hleft : pass'.left? = some left) : before = some (timeout, .hooks missed pass') ∨
      ∃ pass, e = .poll i ∧ before = some (timeout, .hooks missed pass) ∧
        pass.advance i s = (s', pass') := by
  generalize hafter : some (timeout, Closing.hooks missed pass') = after at h
  cases h with
  | stays => exact .inl rfl
  | ends | begins => cases hafter
  | goesOn =>
      obtain ⟨rfl, hk⟩ := Prod.mk.inj (Option.some.inj hafter)
      obtain ⟨pass, rfl, hadvance⟩ := Closing.advance_eq_hooks hk.symm hleft
      exact .inr ⟨pass, rfl, rfl, hadvance⟩
  | expires =>
      rename_i k
      obtain ⟨rfl, hk⟩ := Prod.mk.inj (Option.some.inj hafter)
      cases k with
      | hooks missed pass => exact .inl rfl
      | entering | marking | asking | draining | done | refused => cases hk

theorem Covered.step {last? : Option Nat} (h : m.Covered last?) (hm : m.Sound) (e : Event) :
    (m.step e).Covered ((m.gathered? e).or last?) := by
  constructor
  · intro i timeout missed pass' left' hclosing hleft'
    have hshifts := shifts m e i
    rw [hclosing] at hshifts
    rcases hshifts.pass hleft' with hsame | ⟨pass, rfl, hbefore, hadvance⟩
    · exact covers_step hm (h.pass hsame hleft') (hm.gathered?_of_left hsame hleft' e)
    · have hfits : pass.Fits i m.server := (hm.fits_closing hbefore).1
      have hleft : (pass.advance i m.server).2.left? = some left' := by
        rw [hadvance]
        exact hleft'
      have hnext := HookPass.left?_advance hfits hleft
      rw [hadvance] at hnext
      obtain ⟨rfl, rfl⟩ | ⟨left, hleft, hcovers⟩ := hnext
      · -- the pass has taken all hooks, and all of them are left to it
        refine ⟨m.server.hooks.length, by rw [gathered?, hbefore]; rfl, fun k hk => .inl ?_⟩
        exact List.mem_reverse.2 (List.mem_range.2 hk)
      · obtain ⟨n, hn, hold⟩ :=
          covers_step hm (h.pass hbefore hleft) (hm.gathered?_of_left hbefore hleft _)
        refine ⟨n, hn, fun k hk => ?_⟩
        rcases hold k hk with hk | hk
        · exact hcovers k hk
        · exact .inr hk
  · intro hstopped
    obtain ⟨i, htouched⟩ := exists_touched m e
    generalize hbefore : m.closing? i = before at htouched
    generalize hserver : (m.step e).server = s' at htouched
    rw [hserver] at hstopped
    have hold : m.server.phase = .stopped → s'.Covers ((m.gathered? e).or last?) [] := by
      intro hphase
      rw [← hserver]
      exact covers_step hm (h.stopped hphase) (hm.gathered?_of_stopped hphase e)
    cases htouched with
    | apart happart => exact hold (happart.stopped_iff.1 hstopped)
    | runs => exact hold (Server.runHook_phase.symm.trans hstopped)
    | announces =>
        rw [← hserver]
        exact covers_step hm (h.pass hbefore rfl) (hm.gathered?_of_left hbefore rfl _)

theorem covered (config : ServerConfig) (events : List Event) :
    ((new config).run events).Covered ((new config).lastPass? events none) := by
  induction events using List.reverseRecOn with
  | nil =>
      refine ⟨fun h => ?_, fun h => ?_⟩
      · cases h
      · cases h
  | append_singleton events e ih =>
      rw [run_concat, lastPass?_concat]
      exact ih.step ((sound_new config).run events) e

/-! ## Returning -/

end Machine

/-- The next step of the call takes it past the check at its beginning. -/
def Call.Passes (s : Server) : Call → Prop
  | .start addr _ .entering => Starting.addressError? s.config addr = none ∧ s.phase = .created
  | .stop .entering | .shutdown _ .entering => s.phase ≠ .created
  | _ => False

/-- A start that passes marks the phase, and is to report next. -/
theorem Call.advance_of_passes {s : Server} {addr : String} {tls : Option TlsConfig}
    (h : (Call.start addr tls .entering).Passes s) (i : Nat) :
    (Call.start addr tls .entering).advance i s =
      ({ s with phase := .running }, .start addr tls .reporting) := by
  obtain ⟨haddr, hphase⟩ := h
  rw [Call.advance, Starting.advance, haddr]
  dsimp only
  rw [if_pos hphase]

namespace Machine

variable {m : Machine}

/-- The call at a place takes the step that takes it past the check at its beginning. -/
def Enters (i : Nat) (m : Machine) (e : Event) : Prop := e = .poll i ∧ (m.call i).Passes m.server

theorem underway_of_passes (h : (m.call i).Passes m.server) :
    ((m.step (.poll i)).call i).Underway (m.step (.poll i)).server := by
  obtain ⟨hserver, hcall⟩ := step_poll m i
  rw [hserver, hcall]
  generalize m.call i = c at h
  cases c with
  | start addr tls p =>
      cases p with
      | entering =>
          rw [Call.advance_of_passes h]
          exact Nat.le_refl 1
      | reporting | binding | serving | interrupted | ending | stopping | done | refused => cases h
  | stop p =>
      cases p with
      | entering =>
          rw [Call.advance, Stopping.advance, if_neg h]
          exact Stopping.underway_of_ne_done (Phase.one_le_rank h) Stopping.noConfusion
      | waiting | closing | filling | done => cases h
  | shutdown own k =>
      cases k with
      | entering =>
          rw [Call.advance, Closing.advance, if_neg h]
          exact ⟨Phase.one_le_rank h, Closing.noConfusion⟩
      | marking | asking | draining | hooks | done | refused => cases h
  | wait | gone => cases h

/-- A call that has passed the check at its beginning is underway from then on. -/
theorem underway_of_entered {config : ServerConfig} {events : List Event}
    (h : Happened config events (Enters i)) :
    i < ((new config).run events).calls.length ∧
      (((new config).run events).call i).Underway ((new config).run events).server := by
  induction events using List.reverseRecOn with
  | nil => exact absurd h not_happened_nil
  | append_singleton events e ih =>
      rw [run_concat]
      rcases happened_concat.1 h with hbefore | ⟨rfl, hpasses⟩
      · obtain ⟨hlt, hu⟩ := ih hbefore
        exact ⟨Nat.lt_of_lt_of_le hlt (length_le_step _ e),
          ((sound_new config).run events).underway_step hlt hu e⟩
      · refine ⟨?_, underway_of_passes hpasses⟩
        refine Nat.lt_of_lt_of_le (Nat.lt_of_not_le fun hle => ?_) (length_le_step _ _)
        rw [call_of_length_le hle] at hpasses
        cases hpasses

/-- Of a start that has passed the gate the result is the outcome of serving. -/
theorem result?_eq_outcome? {c : Call} (hu : c.Underway s) {addr : String}
    {tls : Option TlsConfig} {p : Starting} (hc : c = .start addr tls p) {result : Outcome}
    (hresult : c.result? = some result) : c.outcome? = some result := by
  subst hc
  cases p with
  | done outcome => exact hresult
  | refused => cases hu
  | entering | reporting | binding | serving | interrupted | ending | stopping => cases hresult

/-- Whatever happens to a server and in whatever order, a call that has passed the check at its
beginning, be it a start, a stop or a shutdown, and a wait, which has none, return in a stopped
server only, in which all hooks of the last pass have run. A start that has passed the gate returns
an error exactly if its serving has ended with that error, or could not begin because of it. -/
theorem returns_when_stopped (config : ServerConfig) (events : List Event) (i : Nat)
    (result : Outcome) :
    let m := (new config).run events
    Happened config events (Enters i) ∨ (∃ released, m.call i = .wait released) →
    (m.call i).result? = some result →
      m.server.phase = .stopped ∧
      (∃ n, (new config).lastPass? events none = some n ∧ ∀ k < n, k ∈ m.server.places) ∧
      ∀ addr tls p, m.call i = .start addr tls p → ∀ cause, result = .error cause ↔
        Happened config events fun m e => Ends m.server i (m.call i) e (.error cause) := by
  intro m hcall hresult
  have hm : m.Sound := (sound_new config).run events
  have hu : (m.call i).Underway m.server := by
    rcases hcall with hentered | ⟨released, hwait⟩
    · exact (underway_of_entered hentered).2
    · rcases outside_or_underway config events i with ho | hu
      · rw [hwait] at ho
        cases ho
      · exact hu
  have hstopped := hu.stopped hm.server (hm.calls i) hresult
  refine ⟨hstopped, ?_, fun addr tls p hc cause => ?_⟩
  · obtain ⟨n, hn, hcovers⟩ := (covered config events).stopped hstopped
    exact ⟨n, hn, fun k hk => (hcovers k hk).resolve_left List.not_mem_nil⟩
  · rw [← outcome?_error_iff, result?_eq_outcome? hu hc hresult, Option.some.injEq]

/-- A start whose listener is not bound goes through the whole shutdown before it returns that. -/
theorem returns_when_stopped_unbound :
    let cause := ServerError.listenerFailed "in use"
    let events := [.start "host:1" none, .poll 0, .poll 0, .bound 0 (.error cause)] ++
      List.replicate 13 (.poll 0)
    Happened {} events (Enters 0) ∧
      (((new {}).run events).call 0).result? = some (.error cause) ∧
      ((new {}).run events).server.phase = .stopped ∧
      (∃ n, (new {}).lastPass? events none = some n ∧
        ∀ k < n, k ∈ ((new {}).run events).server.places) ∧
      Happened {} events fun m e => Ends m.server 0 (m.call 0) e (.error cause) := by
  intro cause events
  have henters : Happened {} events (Enters 0) :=
    ⟨[.start "host:1" none], .poll 0, _, rfl, rfl, rfl, rfl⟩
  have hcall : ((new {}).run events).call 0 = .start "host:1" none (.done (.error cause)) := by
    decide
  have hresult : (((new {}).run events).call 0).result? = some (.error cause) := by
    rw [hcall]
    rfl
  obtain ⟨hstopped, hpass, hends⟩ :=
    returns_when_stopped {} events 0 (.error cause) (.inl henters) hresult
  exact ⟨henters, hresult, hstopped, hpass, (hends _ _ _ hcall cause).1 rfl⟩

end Machine

end Switchboard
