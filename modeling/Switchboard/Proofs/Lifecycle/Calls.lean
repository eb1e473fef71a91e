import Switchboard.Lifecycle.Call
import Switchboard.Proofs.Lifecycle.Hooks

set_option autoImplicit false

/-! # What the calls on a server rely on

For every stage of every call, `Fits` says what the call relies on there: whether it holds the cell
for the hooks, how far the server has come, and which hooks are still awaited. A step of a call
leads from a stage that fits to one that fits and spares all other calls (`leads_advance`, for each
kind of call), and what is spared still fits (`Fits.spared`). -/

namespace Switchboard

open Server (Leads Spares)

variable {call j : Nat} {s s' : Server}

/-! ## Passes over the hooks -/

namespace HookPass

/-- What a pass relies on. While it runs, only hooks that it is about to run are awaited. -/
def Fits (call : Nat) (s : Server) : HookPass → Prop
  | .waiting => s.Free call ∧ 2 ≤ s.phase.rank
  | .gathering => s.finished = .held call ∧ s.phase = .shuttingDown
  | .running next rest =>
    s.finished = .held call ∧ s.phase = .shuttingDown ∧ next < s.hooks.length ∧
      rest = (List.range next).reverse ∧ ∃ k ≤ next + 1, s.Awaits k
  | .announcing => s.finished = .held call ∧ s.phase = .shuttingDown ∧ s.Awaits 0
  | .filling => s.finished = .held call ∧ s.phase = .stopped
  | .done => s.finished = .full

theorem Fits.spared {p : HookPass} (h : p.Fits j s) (hs : Spares j s s') : p.Fits j s' := by
  cases p with
  | waiting => exact ⟨hs.free h.1, Nat.le_trans h.2 hs.rank_le⟩
  | gathering =>
      obtain ⟨hcell, hphase⟩ := h
      obtain ⟨hphase', -, -⟩ := hs.kept hcell
      exact ⟨hs.held_iff.2 hcell, hphase'.trans hphase⟩
  | running next rest =>
      obtain ⟨hcell, hphase, hnext, hrest, k, hk, hawaits⟩ := h
      obtain ⟨hphase', hran, hearly⟩ := hs.kept hcell
      exact ⟨hs.held_iff.2 hcell, hphase'.trans hphase, Nat.lt_of_lt_of_le hnext hs.length_le,
        hrest, k, hk, hawaits.congr hran hearly⟩
  | announcing =>
      obtain ⟨hcell, hphase, hawaits⟩ := h
      obtain ⟨hphase', hran, hearly⟩ := hs.kept hcell
      exact ⟨hs.held_iff.2 hcell, hphase'.trans hphase, hawaits.congr hran hearly⟩
  | filling =>
      obtain ⟨hcell, hphase⟩ := h
      obtain ⟨hphase', -, -⟩ := hs.kept hcell
      exact ⟨hs.held_iff.2 hcell, hphase'.trans hphase⟩
  | done => exact hs.full h

/-- A pass with the hooks below `n` left to run. -/
theorem fits_ofList (hcell : s.finished = .held call) (hphase : s.phase = .shuttingDown) {n k : Nat}
    (hn : n ≤ s.hooks.length) (hk : k ≤ n) (hawaits : s.Awaits k) :
    (ofList (List.range n).reverse).Fits call s := by
  cases n with
  | zero =>
      obtain rfl := Nat.le_zero.1 hk
      exact ⟨hcell, hphase, hawaits⟩
  | succ n =>
      rw [List.range_succ, List.reverse_append, List.reverse_singleton, List.singleton_append]
      exact ⟨hcell, hphase, hn, rfl, k, hk, hawaits⟩

theorem leads_advance (hs : s.Sound) {p : HookPass} (h : p.Fits call s) :
    Leads call s Fits (p.advance call s) := by
  cases p with
  | waiting =>
      obtain ⟨hfree, hrank⟩ := h
      rw [advance]
      cases hcell : s.finished with
      | full => exact ⟨hs.moves_refl, hcell⟩
      | held i => exact ⟨hs.moves_refl, hfree, hrank⟩
      | empty =>
          -- in a stopped server the cell is not empty
          have hstopped : s.phase ≠ .stopped := fun hphase => (hs.stopped hphase).2 hcell
          exact ⟨hs.moves_hold hcell hrank, rfl, Phase.eq_shuttingDown hrank hstopped⟩
  | gathering =>
      obtain ⟨hcell, hphase⟩ := h
      obtain ⟨k, hk⟩ := hs.awaits
      refine ⟨hs.moves_refl, fits_ofList hcell hphase (Nat.le_refl _) ?_ hk⟩
      exact Nat.le_trans hk.le List.countP_le_length
  | running next rest =>
      obtain ⟨hcell, hphase, hnext, rfl, k, hk, hawaits⟩ := h
      obtain ⟨k', hk', hawaits'⟩ := hawaits.runHook hk hnext
      refine ⟨hs.moves_runHook hcell hphase hnext hawaits hk, ?_⟩
      refine fits_ofList (Server.runHook_finished.trans hcell)
        (Server.runHook_phase.trans hphase) ?_ hk' hawaits'
      show next ≤ (s.runHook next).hooks.length
      rw [Server.runHook_hooks]
      exact Nat.le_of_lt hnext
  | announcing =>
      obtain ⟨hcell, hphase, hawaits⟩ := h
      exact ⟨hs.moves_announce hcell hphase hawaits, hcell, rfl⟩
  | filling =>
      obtain ⟨hcell, hphase⟩ := h
      exact ⟨hs.moves_fill hcell hphase, rfl⟩
  | done => exact ⟨hs.moves_refl, h⟩

/-- Where a pass pauses it has not made it known yet that all hooks have run. -/
theorem Fits.phase_of_pauses {p : HookPass} (h : p.Fits call s) (hp : p.pauses) :
    s.finished = .held call → s.phase = .shuttingDown := by
  cases p with
  | waiting => exact fun hcell => absurd hcell h.1
  | running next rest => exact fun _ => h.2.1
  | gathering | announcing | filling | done => cases hp

end HookPass

/-! ## Shutdown -/

namespace Closing

/-- What a shutdown relies on. It comes to the hooks when serving has ended, or when its deadline
has passed. -/
def Fits (call : Nat) (s : Server) : Closing → Prop
  | .entering | .refused => s.Free call
  | .marking => s.Free call ∧ 1 ≤ s.phase.rank
  | .asking | .draining _ => s.Free call ∧ 2 ≤ s.phase.rank
  | .hooks missed pass => pass.Fits call s ∧ (missed = false → s.served)
  | .done missed => s.finished = .full ∧ (missed = false → s.served)

theorem Fits.spared {c : Closing} (h : c.Fits j s) (hs : Spares j s s') : c.Fits j s' := by
  cases c with
  | entering | refused => exact hs.free h
  | marking | asking | draining => exact ⟨hs.free h.1, Nat.le_trans h.2 hs.rank_le⟩
  | hooks missed pass => exact ⟨h.1.spared hs, fun hm => hs.served (h.2 hm)⟩
  | done missed => exact ⟨hs.full h.1, fun hm => hs.served (h.2 hm)⟩

theorem leads_advance (hs : s.Sound) {c : Closing} (h : c.Fits call s)
    (timeout : Option Duration) : Leads call s Fits (c.advance call timeout s) := by
  cases c with
  | entering =>
      rw [advance]
      split
      · exact ⟨hs.moves_refl, h⟩
      · next hphase => exact ⟨hs.moves_refl, h, Phase.one_le_rank hphase⟩
  | marking =>
      obtain ⟨hfree, hrank⟩ := h
      rw [advance]
      split
      · next hphase =>
        refine ⟨hs.moves_phase ?_ ?_, hfree, ?_⟩
        · rw [hphase]
          decide
        · rw [hphase]
          rfl
        · exact Nat.le_refl 2
      · next hphase => exact ⟨hs.moves_refl, hfree, Phase.two_le_rank hrank hphase⟩
  | asking => exact ⟨hs.moves_of_same rfl rfl rfl rfl rfl id hs.shut, h⟩
  | draining expired =>
      rw [advance]
      split
      · next hserved => exact ⟨hs.moves_refl, h, fun _ => hserved⟩
      · split
        · exact ⟨hs.moves_refl, h, fun hm => nomatch hm⟩
        · exact ⟨hs.moves_refl, h⟩
  | hooks missed pass =>
      obtain ⟨hpass, hserved⟩ := h
      obtain ⟨hmoves, hfits⟩ := HookPass.leads_advance hs hpass
      have hserved' : missed = false → (pass.advance call s).1.served :=
        fun hm => hmoves.served (hserved hm)
      rw [advance]
      rcases hpass' : pass.advance call s with ⟨s', pass'⟩
      rw [hpass'] at hmoves hfits hserved'
      cases pass' with
      | done => exact ⟨hmoves, hfits, hserved'⟩
      | waiting | gathering | running | announcing | filling =>
          exact ⟨hmoves, hfits, hserved'⟩
  | done missed => exact ⟨hs.moves_refl, h⟩
  | refused => exact ⟨hs.moves_refl, h⟩

theorem Fits.expire {c : Closing} (h : c.Fits call s) : c.expire.Fits call s := by
  cases c with
  | draining expired => exact h
  | entering | marking | asking | hooks | done | refused => exact h

theorem Fits.phase_of_pauses {c : Closing} (h : c.Fits call s) (hc : c.pauses) :
    s.finished = .held call → s.phase = .shuttingDown := by
  cases c with
  | entering => exact fun hcell => absurd hcell h
  | draining expired => exact fun hcell => absurd hcell h.1
  | hooks missed pass => exact h.1.phase_of_pauses hc
  | marking | asking | done | refused => cases hc

/-- A shutdown is refused at its beginning only, and only before the start. -/
theorem advance_ne_refused (call : Nat) {c : Closing} (hc : c ≠ .refused)
    (hrank : 1 ≤ s.phase.rank) (timeout : Option Duration) :
    (c.advance call timeout s).2 ≠ .refused := by
  cases c with
  | entering =>
      rw [advance, if_neg (Phase.ne_created hrank)]
      exact Closing.noConfusion
  | marking | asking | done => exact Closing.noConfusion
  | draining expired =>
      rw [advance]
      split
      · exact Closing.noConfusion
      · split <;> exact Closing.noConfusion
  | hooks missed pass =>
      rw [advance]
      rcases pass.advance call s with ⟨s', pass'⟩
      cases pass' <;> exact Closing.noConfusion
  | refused => exact absurd rfl hc

end Closing

/-! ## Stop -/

namespace Stopping

/-- What a stop relies on. Its shutdown is not refused, since the server has been started. -/
def Fits (call : Nat) (s : Server) : Stopping → Prop
  | .entering | .done => s.Free call
  | .waiting => s.Free call ∧ 1 ≤ s.phase.rank
  | .closing c => c.Fits call s ∧ c ≠ .refused ∧ 1 ≤ s.phase.rank
  | .filling => s.finished = .full

theorem Fits.spared {p : Stopping} (h : p.Fits j s) (hs : Spares j s s') : p.Fits j s' := by
  cases p with
  | entering | done => exact hs.free h
  | waiting => exact ⟨hs.free h.1, Nat.le_trans h.2 hs.rank_le⟩
  | closing c => exact ⟨h.1.spared hs, h.2.1, Nat.le_trans h.2.2 hs.rank_le⟩
  | filling => exact hs.full h

theorem leads_advance (hs : s.Sound) {p : Stopping} (h : p.Fits call s) :
    Leads call s Fits (p.advance call s) := by
  cases p with
  | entering =>
      rw [advance]
      split
      · exact ⟨hs.moves_refl, h⟩
      · next hphase => exact ⟨hs.moves_refl, h, Phase.one_le_rank hphase⟩
  | waiting =>
      obtain ⟨hfree, hrank⟩ := h
      rw [advance]
      cases hcell : s.shut with
      | full => exact ⟨hs.moves_refl, hfree⟩
      | held i => exact ⟨hs.moves_refl, hfree, hrank⟩
      | empty =>
          refine ⟨hs.moves_of_same rfl rfl rfl rfl rfl id ?_, hfree, Closing.noConfusion, hrank⟩
          intro hfull
          cases hfull
  | closing c =>
      obtain ⟨hc, hne, hrank⟩ := h
      obtain ⟨hmoves, hfits⟩ := Closing.leads_advance hs hc s.config.shutdownTimeout
      have hne' := Closing.advance_ne_refused call hne hrank s.config.shutdownTimeout
      have hrank' := Nat.le_trans hrank hmoves.rank_le
      rw [advance]
      rcases hc' : c.advance call s.config.shutdownTimeout s with ⟨s', c'⟩
      rw [hc'] at hmoves hfits hne' hrank'
      cases c' with
      | done missed => exact ⟨hmoves, hfits.1⟩
      | refused => exact absurd rfl hne'
      | entering | marking | asking | draining | hooks => exact ⟨hmoves, hfits, hne', hrank'⟩
  | filling =>
      refine ⟨hs.moves_of_same rfl rfl rfl rfl rfl id fun _ => h, ?_⟩
      intro hcell
      cases hcell.symm.trans h
  | done => exact ⟨hs.moves_refl, h⟩

theorem Fits.expire {p : Stopping} (h : p.Fits call s) : p.expire.Fits call s := by
  cases p with
  | closing c =>
      refine ⟨h.1.expire, ?_, h.2.2⟩
      cases c with
      | refused => exact absurd rfl h.2.1
      | entering | marking | asking | draining | hooks | done => exact Closing.noConfusion
  | entering | waiting | filling | done => exact h

theorem Fits.phase_of_pauses {p : Stopping} (h : p.Fits call s) (hp : p.pauses) :
    s.finished = .held call → s.phase = .shuttingDown := by
  cases p with
  | entering => exact fun hcell => absurd hcell h
  | waiting => exact fun hcell => absurd hcell h.1
  | closing c =>
      rw [pauses, Bool.and_eq_true] at hp
      exact h.1.phase_of_pauses hp.2
  | filling | done => cases hp

end Stopping

/-! ## Start -/

namespace Starting

/-- What a start relies on. -/
def Fits (call : Nat) (s : Server) : Starting → Prop
  | .interrupted p | .stopping _ p => p.Fits call s
  | _ => s.Free call

theorem Fits.spared {p : Starting} (h : p.Fits j s) (hs : Spares j s s') : p.Fits j s' := by
  cases p with
  | interrupted p => exact Stopping.Fits.spared h hs
  | stopping outcome p => exact Stopping.Fits.spared h hs
  | entering | reporting | binding | serving | ending | done | refused => exact hs.free h

theorem leads_advance (hs : s.Sound) {p : Starting} (h : p.Fits call s) (addr : String) :
    Leads call s Fits (p.advance call addr s) := by
  cases p with
  | entering =>
      rw [advance]
      split
      · exact ⟨hs.moves_refl, h⟩
      · split
        · next hphase =>
          refine ⟨hs.moves_phase ?_ ?_, h⟩
          · rw [hphase]
            decide
          · rw [hphase]
            rfl
        · exact ⟨hs.moves_refl, h⟩
  | reporting =>
      refine ⟨⟨hs.register _, .inl rfl, fun j _ => hs.spares_register _ j⟩, h⟩
  | serving =>
      rw [advance]
      split <;> exact ⟨hs.moves_refl, h⟩
  | interrupted p =>
      obtain ⟨hmoves, hfits⟩ := Stopping.leads_advance hs h
      rw [advance]
      rcases hp : p.advance call s with ⟨s', p'⟩
      rw [hp] at hmoves hfits
      cases p' with
      | done => exact ⟨hmoves, hfits⟩
      | entering | waiting | closing | filling => exact ⟨hmoves, hfits⟩
  | ending outcome =>
      exact ⟨hs.moves_of_same rfl rfl rfl rfl rfl (fun _ => rfl) hs.shut, h⟩
  | stopping outcome p =>
      obtain ⟨hmoves, hfits⟩ := Stopping.leads_advance hs h
      rw [advance]
      rcases hp : p.advance call s with ⟨s', p'⟩
      rw [hp] at hmoves hfits
      cases p' with
      | done => exact ⟨hmoves, hfits⟩
      | entering | waiting | closing | filling => exact ⟨hmoves, hfits⟩
  | binding | done | refused => exact ⟨hs.moves_refl, h⟩

theorem leads_bound (hs : s.Sound) {p : Starting} (h : p.Fits call s) (tls : Option TlsConfig)
    (result : Except ServerError Ip) : Leads call s Fits (p.bound tls result s) := by
  cases p with
  | binding =>
      cases result with
      | error cause => exact ⟨hs.moves_refl, h⟩
      | ok ip =>
          refine ⟨hs.moves_of_same rfl rfl rfl rfl rfl id hs.shut, ?_⟩
          cases tls with
          | none => exact h
          | some tls => exact h
  | entering | reporting | serving | interrupted | ending | stopping | done | refused =>
      exact ⟨hs.moves_refl, h⟩

theorem Fits.signal {p : Starting} (h : p.Fits call s) (sig : Signal) :
    (p.signal sig s).Fits call s := by
  cases p with
  | serving =>
      rw [Starting.signal]
      split <;> exact h
  | entering | reporting | binding | interrupted | ending | stopping | done | refused => exact h

theorem leads_serveEnds (hs : s.Sound) {p : Starting} (h : p.Fits call s) (outcome : Outcome) :
    Leads call s Fits (p.serveEnds call outcome s) := by
  cases p with
  | interrupted p =>
      rw [serveEnds]
      split
      · next hp =>
        exact ⟨hs.moves_release (Stopping.Fits.phase_of_pauses h hp), Server.free_release⟩
      · exact ⟨hs.moves_refl, h⟩
  | entering | reporting | binding | serving | ending | stopping | done | refused =>
      exact ⟨hs.moves_refl, h⟩

theorem Fits.expire {p : Starting} (h : p.Fits call s) : p.expire.Fits call s := by
  cases p with
  | interrupted p => exact Stopping.Fits.expire h
  | stopping outcome p => exact Stopping.Fits.expire h
  | entering | reporting | binding | serving | ending | done | refused => exact h

end Starting

/-! ## Any call -/

namespace Call

/-- What a call relies on. -/
def Fits (call : Nat) (s : Server) : Call → Prop
  | .start _ _ p => p.Fits call s
  | .stop p => p.Fits call s
  | .shutdown _ p => p.Fits call s
  | .wait _ | .gone => s.Free call

theorem Fits.spared {c : Call} (h : c.Fits j s) (hs : Spares j s s') : c.Fits j s' := by
  cases c with
  | start addr tls p => exact Starting.Fits.spared h hs
  | stop p => exact Stopping.Fits.spared h hs
  | shutdown timeout p => exact Closing.Fits.spared h hs
  | wait released => exact hs.free h
  | gone => exact hs.free h

theorem leads_advance (hs : s.Sound) {c : Call} (h : c.Fits call s) :
    Leads call s Fits (c.advance call s) := by
  cases c with
  | start addr tls p =>
      obtain ⟨hmoves, hfits⟩ := Starting.leads_advance hs h addr
      exact ⟨hmoves, hfits⟩
  | stop p =>
      obtain ⟨hmoves, hfits⟩ := Stopping.leads_advance hs h
      exact ⟨hmoves, hfits⟩
  | shutdown timeout p =>
      obtain ⟨hmoves, hfits⟩ := Closing.leads_advance hs h timeout
      exact ⟨hmoves, hfits⟩
  | wait released =>
      cases released with
      | none => exact ⟨hs.moves_refl, h⟩
      | some n => exact ⟨hs.moves_refl, h⟩
  | gone => exact ⟨hs.moves_refl, h⟩

/-- A call that is given up. -/
theorem leads_drop (hs : s.Sound) {c : Call} (h : c.Fits call s) :
    Leads call s Fits (if c.pauses then (s.release call, gone) else (s, c)) := by
  split
  · next hc =>
    refine ⟨hs.moves_release ?_, Server.free_release⟩
    cases c with
    | stop p => exact Stopping.Fits.phase_of_pauses h hc
    | shutdown timeout p => exact Closing.Fits.phase_of_pauses h hc
    | wait released => exact fun hcell => absurd hcell h
    | start | gone => cases hc
  · exact ⟨hs.moves_refl, h⟩

theorem leads_onStart (hs : s.Sound) {c : Call} (h : c.Fits call s)
    {f : Option TlsConfig → Server → Starting → Server × Starting}
    (hf : ∀ tls p, p.Fits call s → Leads call s Starting.Fits (f tls s p)) :
    Leads call s Fits (c.onStart f s) := by
  cases c with
  | start addr tls p =>
      obtain ⟨hmoves, hfits⟩ := hf tls p h
      exact ⟨hmoves, hfits⟩
  | stop | shutdown | wait | gone => exact ⟨hs.moves_refl, h⟩

theorem leads_drained (hs : s.Sound) {c : Call} (h : c.Fits call s) :
    Leads call s Fits (c.drained call s) := by
  rw [drained]
  split
  · exact leads_onStart hs h fun _ p hp => Starting.leads_serveEnds hs hp _
  · exact ⟨hs.moves_refl, h⟩

theorem Fits.expire {c : Call} (h : c.Fits call s) : c.expire.Fits call s := by
  cases c with
  | start addr tls p => exact Starting.Fits.expire h
  | stop p => exact Stopping.Fits.expire h
  | shutdown timeout p => exact Closing.Fits.expire h
  | wait | gone => exact h

end Call

end Switchboard
