import Mathlib.Tactic.ByContra
import Switchboard.Lifecycle.Once

set_option autoImplicit false

/-! # A function that runs once does

However many callers there are and however their steps are mixed, a function and its callers stand
in one of three ways (`State.Sound`): nobody has begun, one caller is at work and the others hold
nothing, or the function has run and the cell is full. What can go on is counted by
`State.progress`: no event takes anything of it back, and where it stands still the shared state
does so too (`State.Sound.step`).

So a caller that is given up leaves nothing behind that could hold up the others. One that is left
has returned after five turns in which it goes on and those at work do, whatever happens besides
(`State.executed_once`). To poll everybody in rounds gives such turns.
-/

namespace Switchboard.Once

/-- A caller that holds nothing and has not returned. -/
def Caller.IsIdle : Caller → Prop
  | .waiting | .gone => True
  | .taking | .calling _ | .filling | .returned => False

/-- A caller that is at work. It does not pause there, so that it cannot be given up. -/
def Caller.IsBusy : Caller → Prop
  | .taking | .calling _ | .filling => True
  | .waiting | .returned | .gone => False

/-- What is known of the function while the caller is at work. -/
def Caller.Works (held : Bool) (runs : Nat) : Caller → Prop
  | .taking => held = true ∧ runs = 0
  | .calling taken => taken = true ∧ held = false ∧ runs = 0
  | .filling => held = false ∧ runs = 1
  | .waiting | .returned | .gone => False

theorem Caller.Works.isBusy {held : Bool} {runs : Nat} {c : Caller} (h : c.Works held runs) :
    c.IsBusy := by
  cases c with
  | taking | calling | filling => trivial
  | waiting | returned | gone => exact h

theorem Caller.IsBusy.not_isIdle {c : Caller} (h : c.IsBusy) : ¬ c.IsIdle := by
  intro hidle
  cases c with
  | waiting | returned | gone => exact h
  | taking | calling | filling => exact hidle

namespace State

variable {s s' : State} {e : Event} {es : List Event} {i j : Nat} {c : Caller}

/-- How many executions of the function have begun and not ended. -/
def underway (s : State) : Nat := s.callers.count (.calling true)

/-- The three ways in which a function and its callers stand. -/
inductive Sound (s : State) : Prop
  /-- Nobody has begun. -/
  | untouched : s.cell = .empty → s.held = true → s.runs = 0 →
      (∀ (j : Nat) (d : Caller), s.callers[j]? = some d → d.IsIdle) → Sound s
  /-- One caller holds the cell and is at work, and the others hold nothing. -/
  | inWork {i : Nat} {c : Caller} : s.cell = .held i → s.callers[i]? = some c →
      c.Works s.held s.runs →
      (∀ (j : Nat) (d : Caller), s.callers[j]? = some d → j ≠ i → d.IsIdle) → Sound s
  /-- The function has run, and this is known. -/
  | finished : s.cell = .full → s.held = false → s.runs = 1 →
      (∀ (j : Nat) (d : Caller), s.callers[j]? = some d → d.IsIdle ∨ d = .returned) → Sound s

theorem sound_new : ({} : State).Sound := by
  refine .untouched rfl rfl rfl ?_
  intro j d hd
  cases hd

/-- Only idle callers have changed. -/
theorem Sound.congr (h : s.Sound) (hcell : s'.cell = s.cell) (hheld : s'.held = s.held)
    (hruns : s'.runs = s.runs)
    (hnew : ∀ (j : Nat) (d : Caller), s'.callers[j]? = some d → s.callers[j]? = some d ∨ d.IsIdle)
    (hold : ∀ (j : Nat) (d : Caller), s.callers[j]? = some d → ¬ d.IsIdle →
      s'.callers[j]? = some d) : s'.Sound := by
  cases h with
  | untouched hc hh hr hidle =>
      refine .untouched (hcell.trans hc) (hheld.trans hh) (hruns.trans hr) ?_
      intro j d hd
      rcases hnew j d hd with hd | hd
      · exact hidle j d hd
      · exact hd
  | inWork hc hi hworks hidle =>
      refine .inWork (hcell.trans hc) (hold _ _ hi hworks.isBusy.not_isIdle) ?_ ?_
      · rw [hheld, hruns]
        exact hworks
      · intro j d hd hj
        rcases hnew j d hd with hd | hd
        · exact hidle j d hd hj
        · exact hd
  | finished hc hh hr hidle =>
      refine .finished (hcell.trans hc) (hheld.trans hh) (hruns.trans hr) ?_
      intro j d hd
      rcases hnew j d hd with hd | hd
      · exact hidle j d hd
      · exact .inl hd

/-! ## Steps -/

/-- How far the function has come: not taken, about to be taken, taken, run, known to have run. -/
def progress (s : State) : Nat :=
  match s.cell with
  | .empty => 0
  | .held _ => if s.held then 1 else if s.runs = 0 then 2 else 3
  | .full => 4

/-- The parts of two states that callers share are the same. -/
structure Same (s s' : State) : Prop where
  cell : s'.cell = s.cell
  held : s'.held = s.held
  runs : s'.runs = s.runs

theorem Same.refl (s : State) : Same s s := ⟨rfl, rfl, rfl⟩

theorem Same.trans {s₁ s₂ s₃ : State} (h : Same s₁ s₂) (h' : Same s₂ s₃) : Same s₁ s₃ :=
  ⟨h'.cell.trans h.cell, h'.held.trans h.held, h'.runs.trans h.runs⟩

theorem Same.progress (h : Same s s') : s'.progress = s.progress := by
  rw [State.progress, State.progress, h.cell, h.held, h.runs]

theorem step_poll_of_some (hi : s.callers[i]? = some c) :
    s.step (.poll i) =
      { (s.advance i c).1 with callers := s.callers.set i (s.advance i c).2 } := by
  have hcallers : (s.advance i c).1.callers = s.callers := by
    cases c <;> simp only [advance]
    cases s.cell <;> rfl
  simp only [step, hi, hcallers]

theorem getElem?_set_of_some {cs : List Caller} {c d : Caller} (hi : cs[i]? = some c) :
    (cs.set i d)[j]? = if j = i then some d else cs[j]? := by
  by_cases hj : j = i
  · subst hj
    have hlt : j < cs.length := (List.getElem?_eq_some_iff.1 hi).1
    simp [hlt]
  · rw [List.getElem?_set_ne (Ne.symm hj), if_neg hj]

/-- A caller that is at work holds the cell, and the others hold nothing. -/
theorem Sound.of_busy (h : s.Sound) (hi : s.callers[i]? = some c) (hbusy : c.IsBusy) :
    s.cell = .held i ∧ c.Works s.held s.runs ∧
      ∀ (j : Nat) (d : Caller), s.callers[j]? = some d → j ≠ i → d.IsIdle := by
  cases h with
  | untouched _ _ _ hall => exact absurd (hall i c hi) hbusy.not_isIdle
  | @inWork k d hc hk hworks hothers =>
      obtain rfl : i = k := by
        by_contra hik
        exact hbusy.not_isIdle (hothers i c hi hik)
      obtain rfl : d = c := Option.some.inj (hk.symm.trans hi)
      exact ⟨hc, hworks, hothers⟩
  | finished _ _ _ hall =>
      rcases hall i c hi with hidle | rfl
      · exact absurd hidle hbusy.not_isIdle
      · exact hbusy.elim

/-- What the poll of a caller at work leads to, if the caller is at work still. -/
theorem sound_set_busy {cell : Cell} {held : Bool} {runs : Nat} (hi : s.callers[i]? = some c)
    (hcell : cell = .held i) {d : Caller} (hworks : d.Works held runs)
    (hothers : ∀ (j : Nat) (d : Caller), s.callers[j]? = some d → j ≠ i → d.IsIdle) :
    ({ cell, held, runs, callers := s.callers.set i d } : State).Sound := by
  refine .inWork hcell ?_ hworks ?_
  · rw [getElem?_set_of_some hi, if_pos rfl]
  · intro j d' hd' hj
    rw [getElem?_set_of_some hi, if_neg hj] at hd'
    exact hothers j d' hd' hj

/-- The poll of a caller that changes nothing but whether that caller, which holds nothing, has
returned or been given up. -/
theorem Sound.set_idle (h : s.Sound) (hi : s.callers[i]? = some c) (hc : c.IsIdle) {d : Caller}
    (hd : d.IsIdle) : ({ s with callers := s.callers.set i d } : State).Sound := by
  refine h.congr rfl rfl rfl ?_ ?_
  · intro j d' hd'
    rw [getElem?_set_of_some hi] at hd'
    by_cases hj : j = i
    · rw [if_pos hj] at hd'
      exact .inr (Option.some.inj hd' ▸ hd)
    · rw [if_neg hj] at hd'
      exact .inl hd'
  · intro j d' hd' hbusy
    rw [getElem?_set_of_some hi]
    by_cases hj : j = i
    · subst hj
      obtain rfl := Option.some.inj (hd'.symm.trans hi)
      exact absurd hc hbusy
    · rw [if_neg hj]
      exact hd'

/-- The caller returns, and it is known that the function has run. -/
theorem sound_set_returned {held : Bool} {runs : Nat} (hi : s.callers[i]? = some c)
    (hheld : held = false) (hruns : runs = 1)
    (hothers : ∀ (j : Nat) (d : Caller), s.callers[j]? = some d → j ≠ i →
      d.IsIdle ∨ d = .returned) :
    ({ cell := .full, held, runs, callers := s.callers.set i .returned } : State).Sound := by
  refine .finished rfl hheld hruns ?_
  intro j d hd
  rw [getElem?_set_of_some hi] at hd
  by_cases hj : j = i
  · rw [if_pos hj] at hd
    exact .inr (Option.some.inj hd).symm
  · rw [if_neg hj] at hd
    exact hothers j d hd hj

/-- The first caller that finds the cell free goes to work. -/
theorem Sound.poll_waiting (h : s.Sound) (hi : s.callers[i]? = some .waiting)
    (hc : s.cell = .empty) :
    (s.step (.poll i)).Sound ∧ s.progress < (s.step (.poll i)).progress := by
  have hadvance : s.advance i .waiting = ({ s with cell := .held i }, .taking) := by
    simp only [advance, hc]
  rw [step_poll_of_some hi, hadvance]
  cases h with
  | untouched _ hheld hruns hidle =>
      refine ⟨sound_set_busy hi rfl ⟨hheld, hruns⟩ fun j d hd _ => hidle j d hd, ?_⟩
      simp [progress, hc, hheld]
  | inWork hc' | finished hc' => cases hc.symm.trans hc'

/-- Each step of the caller at work brings the function further. -/
theorem Sound.poll_busy (h : s.Sound) (hi : s.callers[i]? = some c) (hbusy : c.IsBusy) :
    (s.step (.poll i)).Sound ∧ s.progress < (s.step (.poll i)).progress := by
  obtain ⟨hc, hworks, hothers⟩ := h.of_busy hi hbusy
  rw [step_poll_of_some hi]
  cases c with
  | taking =>
      obtain ⟨hheld, hruns⟩ := hworks
      refine ⟨sound_set_busy hi hc ⟨hheld, rfl, hruns⟩ hothers, ?_⟩
      simp [progress, advance, hc, hheld, hruns]
  | calling taken =>
      obtain ⟨rfl, hheld, hruns⟩ := hworks
      have hran : Caller.filling.Works s.held (s.runs + 1) := ⟨hheld, by rw [hruns]⟩
      refine ⟨sound_set_busy hi hc hran hothers, ?_⟩
      simp [progress, advance, hc, hheld, hruns]
  | filling =>
      obtain ⟨hheld, hruns⟩ := hworks
      refine ⟨sound_set_returned hi hheld hruns fun j d hd hj => .inl (hothers j d hd hj), ?_⟩
      simp [progress, advance, hc, hheld, hruns]
  | waiting | returned | gone => exact hworks.elim

theorem Sound.poll (h : s.Sound) (hi : s.callers[i]? = some c) :
    (s.step (.poll i)).Sound ∧
      (Same s (s.step (.poll i)) ∨ s.progress < (s.step (.poll i)).progress) := by
  have hstay : s.callers.set i c = s.callers := by
    obtain ⟨hlt, rfl⟩ := List.getElem?_eq_some_iff.1 hi
    exact List.set_getElem_self hlt
  cases c with
  | waiting =>
      cases hc : s.cell with
      | empty =>
          obtain ⟨hsound, hlt⟩ := h.poll_waiting hi hc
          exact ⟨hsound, .inr hlt⟩
      | held k =>
          -- the caller has to wait, and nothing changes
          have hadvance : s.advance i .waiting = (s, .waiting) := by simp only [advance, hc]
          rw [step_poll_of_some hi, hadvance, hstay]
          exact ⟨h, .inl (.refl s)⟩
      | full =>
          have hadvance : s.advance i .waiting = (s, .returned) := by simp only [advance, hc]
          rw [step_poll_of_some hi, hadvance]
          cases h with
          | finished _ hheld hruns hall =>
              have hsound := sound_set_returned hi hheld hruns fun j d hd _ => hall j d hd
              rw [← hc] at hsound
              exact ⟨hsound, .inl ⟨rfl, rfl, rfl⟩⟩
          | untouched hc' | inWork hc' => cases hc.symm.trans hc'
  | taking | calling | filling =>
      obtain ⟨hsound, hlt⟩ := h.poll_busy hi trivial
      exact ⟨hsound, .inr hlt⟩
  | returned | gone =>
      rw [step_poll_of_some hi, advance, hstay]
      exact ⟨h, .inl (.refl s)⟩

/-- Whatever happens next, the function and its callers stand in one of the three ways, and the
shared state is as it was or the function has come further. -/
theorem Sound.step (h : s.Sound) (e : Event) :
    (s.step e).Sound ∧ (Same s (s.step e) ∨ s.progress < (s.step e).progress) := by
  cases e with
  | call =>
      refine ⟨h.congr rfl rfl rfl ?_ ?_, .inl ⟨rfl, rfl, rfl⟩⟩
      · intro j d hd
        simp only [State.step, List.getElem?_append] at hd
        split at hd
        · exact .inl hd
        · have hmem := List.mem_of_getElem? hd
          rw [List.mem_singleton] at hmem
          subst hmem
          exact .inr trivial
      · intro j d hd _
        have hlt : j < s.callers.length := (List.getElem?_eq_some_iff.1 hd).1
        simpa [State.step, List.getElem?_append_left hlt] using hd
  | poll i =>
      cases hi : s.callers[i]? with
      | none =>
          have hsame : s.step (.poll i) = s := by simp only [State.step, hi]
          rw [hsame]
          exact ⟨h, .inl (.refl s)⟩
      | some c => exact h.poll hi
  | drop i =>
      rw [State.step]
      split
      · next hi => exact ⟨h.set_idle hi trivial trivial, .inl ⟨rfl, rfl, rfl⟩⟩
      · exact ⟨h, .inl (.refl s)⟩

/-! ## Runs -/

theorem run_append (s : State) (es fs : List Event) : s.run (es ++ fs) = (s.run es).run fs :=
  List.foldl_append

/-- Nothing that happens takes anything back of what the function has come to. -/
theorem Sound.run (h : s.Sound) (es : List Event) :
    (s.run es).Sound ∧ (Same s (s.run es) ∨ s.progress < (s.run es).progress) := by
  induction es generalizing s with
  | nil => exact ⟨h, .inl (.refl s)⟩
  | cons e es ih =>
      obtain ⟨hstep, hfirst⟩ := h.step e
      obtain ⟨hrun, hrest⟩ := ih hstep
      refine ⟨hrun, ?_⟩
      show Same s ((s.step e).run es) ∨ s.progress < ((s.step e).run es).progress
      rcases hfirst with hsame | hlt
      · rcases hrest with hsame' | hlt
        · exact .inl (hsame.trans hsame')
        · rw [hsame.progress] at hlt
          exact .inr hlt
      · rcases hrest with hsame' | hlt'
        · rw [← hsame'.progress] at hlt
          exact .inr hlt
        · exact .inr (Nat.lt_trans hlt hlt')

theorem Sound.progress_le_run (h : s.Sound) (es : List Event) :
    s.progress ≤ (s.run es).progress := by
  rcases (h.run es).2 with hsame | hlt
  · exact Nat.le_of_eq hsame.progress.symm
  · exact Nat.le_of_lt hlt

/-! ## The one execution -/

/-- What stands at one place only is counted at most once. -/
theorem count_le_one {cs : List Caller} (h : ∀ j : Nat, cs[j]? = some c → j = i) :
    cs.count c ≤ 1 := by
  induction cs generalizing i with
  | nil => exact Nat.zero_le 1
  | cons d cs ih =>
      by_cases hd : d = c
      · -- the one place is the first, so nothing like it comes later
        subst hd
        have hi : 0 = i := h 0 rfl
        have hzero : cs.count d = 0 := by
          rw [List.count_eq_zero]
          intro hmem
          obtain ⟨j, hj⟩ := List.mem_iff_getElem?.1 hmem
          have hplace := h (j + 1) hj
          omega
        have hcount : (d :: cs).count d = cs.count d + 1 := List.count_cons_self
        omega
      · rw [List.count_cons_of_ne hd]
        refine ih (i := i - 1) ?_
        intro j hj
        have hplace := h (j + 1) hj
        omega

theorem underway_eq_zero (h : ∀ j : Nat, s.callers[j]? ≠ some (.calling true)) :
    s.underway = 0 := by
  rw [underway, List.count_eq_zero]
  intro hmem
  obtain ⟨j, hj⟩ := List.mem_iff_getElem?.1 hmem
  exact h j hj

/-- There is one execution at most, be it under way or at its end. -/
theorem Sound.underway_add_runs_le (h : s.Sound) : s.underway + s.runs ≤ 1 := by
  cases h with
  | untouched _ _ hruns hidle =>
      have hzero : s.underway = 0 := underway_eq_zero fun j hj => hidle j _ hj
      omega
  | @inWork i c _ hi hworks hothers =>
      have hat : ∀ j, s.callers[j]? = some (.calling true) → j = i := by
        intro j hj
        by_contra hij
        exact hothers j _ hj hij
      cases c with
      | calling taken =>
          have hle : s.underway ≤ 1 := count_le_one hat
          have hruns : s.runs = 0 := hworks.2.2
          omega
      | taking | filling =>
          have hzero : s.underway = 0 := by
            refine underway_eq_zero ?_
            intro j hj
            obtain rfl := hat j hj
            cases hi.symm.trans hj
          have hruns : s.runs ≤ 1 := by
            have hran := hworks.2
            omega
          omega
      | waiting | returned | gone => exact hworks.elim
  | finished _ _ hruns hall =>
      have hzero : s.underway = 0 := by
        refine underway_eq_zero ?_
        intro j hj
        rcases hall j _ hj with h | h
        · exact h
        · cases h
      omega

theorem Sound.of_returned (h : s.Sound) (hi : s.callers[i]? = some .returned) :
    s.cell = .full ∧ s.runs = 1 := by
  cases h with
  | untouched _ _ _ hall => exact (hall i _ hi).elim
  | @inWork k c _ hk hworks hothers =>
      by_cases hik : i = k
      · subst hik
        obtain rfl := Option.some.inj (hk.symm.trans hi)
        exact hworks.elim
      · exact (hothers i _ hi hik).elim
  | finished hc _ hruns _ => exact ⟨hc, hruns⟩

/-- The caller at work makes it known that the function has run. -/
def Records (s : State) (e : Event) : Prop :=
  ∃ i, e = .poll i ∧ s.callers[i]? = some .filling

/-- It becomes known where a caller records it, and remains so. -/
theorem isDone_step_iff (s : State) (e : Event) :
    (s.step e).isDone ↔ s.isDone ∨ s.Records e := by
  have hother : (∀ i, e = .poll i → s.callers[i]? ≠ some .filling) → ¬ s.Records e := by
    rintro h ⟨i, he, hi⟩
    exact h i he hi
  cases e with
  | call =>
      rw [or_iff_left (hother (by rintro i ⟨⟩))]
      rfl
  | drop i =>
      rw [or_iff_left (hother (by rintro i ⟨⟩)), step]
      split <;> rfl
  | poll i =>
      cases hi : s.callers[i]? with
      | none =>
          rw [or_iff_left (hother (by rintro j ⟨⟩; simp [hi]))]
          simp only [step, hi]
      | some c =>
          rw [step_poll_of_some hi]
          cases c with
          | filling =>
              refine iff_of_true ?_ (.inr ⟨i, rfl, hi⟩)
              simp [isDone, advance]
          | waiting =>
              rw [or_iff_left (hother (by rintro j ⟨⟩; simp [hi]))]
              cases hc : s.cell <;> simp [isDone, advance, hc]
          | taking | calling | returned | gone =>
              rw [or_iff_left (hother (by rintro j ⟨⟩; simp [hi]))]
              rfl

/-- It is recorded among some events that the function has run. -/
def Recorded (s : State) (events : List Event) : Prop :=
  ∃ before e after, events = before ++ e :: after ∧ (s.run before).Records e

theorem recorded_cons_iff : s.Recorded (e :: es) ↔ s.Records e ∨ (s.step e).Recorded es := by
  constructor
  · rintro ⟨before, e', after, hes, hrecords⟩
    cases before with
    | nil =>
        obtain ⟨rfl, -⟩ := List.cons.inj hes
        exact .inl hrecords
    | cons first before =>
        obtain ⟨rfl, hrest⟩ := List.cons.inj hes
        exact .inr ⟨before, e', after, hrest, hrecords⟩
  · rintro (hrecords | ⟨before, e', after, rfl, hrecords⟩)
    · exact ⟨[], e, es, rfl, hrecords⟩
    · exact ⟨e :: before, e', after, List.cons_append.symm, hrecords⟩

theorem isDone_run_iff (s : State) (es : List Event) :
    (s.run es).isDone ↔ s.isDone ∨ s.Recorded es := by
  induction es generalizing s with
  | nil =>
      refine (or_iff_left ?_).symm
      rintro ⟨before, e, after, hes, -⟩
      cases before <;> cases hes
  | cons e es ih =>
      show ((s.step e).run es).isDone ↔ _
      rw [ih, isDone_step_iff, recorded_cons_iff, or_assoc]

/-- Where it is recorded that the function has run, it has, and this was not known before. -/
theorem Sound.of_records (h : s.Sound) (hrecords : s.Records e) :
    s.runs = 1 ∧ s.underway = 0 ∧ ¬ s.isDone := by
  obtain ⟨i, -, hi⟩ := hrecords
  obtain ⟨hc, ⟨-, hruns⟩, -⟩ := h.of_busy hi trivial
  have hle := h.underway_add_runs_le
  refine ⟨hruns, by omega, ?_⟩
  rw [isDone, hc]
  exact Bool.false_ne_true

/-! ## Turns -/

/-- The caller is there and has not been given up. -/
def Attends (s : State) (i : Nat) : Prop := ∃ c, s.callers[i]? = some c ∧ c ≠ .gone

/-- Events in which one caller, which is not given up, does a step, and each caller that is at work
does so too. What the others do is left open. -/
structure Turn (s : State) (i : Nat) (es : List Event) : Prop where
  polled : .poll i ∈ es
  worked : ∀ (j : Nat) (c : Caller), s.callers[j]? = some c → c.IsBusy → .poll j ∈ es
  kept : .drop i ∉ es

/-- Turns one after another. -/
def Turns (i : Nat) : State → List (List Event) → Prop
  | _, [] => True
  | s, es :: rest => s.Turn i es ∧ Turns i (s.run es) rest

/-- What happens to one caller. -/
theorem getElem?_step (hi : s.callers[i]? = some c) (hdrop : e = .drop i → c ≠ .waiting) :
    (s.step e).callers[i]? = some c ∨
      e = .poll i ∧ (s.step e).callers[i]? = some (s.advance i c).2 := by
  cases e with
  | call =>
      have hlt : i < s.callers.length := (List.getElem?_eq_some_iff.1 hi).1
      refine .inl ?_
      simpa [step, List.getElem?_append_left hlt] using hi
  | drop j =>
      refine .inl ?_
      rw [step]
      split
      · next hj =>
        have hij : i ≠ j := by
          rintro rfl
          exact hdrop rfl (Option.some.inj (hi.symm.trans hj))
        rw [getElem?_set_of_some hj, if_neg hij]
        exact hi
      · exact hi
  | poll j =>
      cases hj : s.callers[j]? with
      | none => simpa only [step, hj] using .inl hi
      | some d =>
          rw [step_poll_of_some hj, getElem?_set_of_some hj]
          by_cases hij : i = j
          · subst hij
            obtain rfl := Option.some.inj (hi.symm.trans hj)
            rw [if_pos rfl]
            exact .inr ⟨rfl, rfl⟩
          · rw [if_neg hij]
            exact .inl hi

/-- No step of a caller gives it up. -/
theorem advance_ne_gone (s : State) (i : Nat) (hc : c ≠ .gone) : (s.advance i c).2 ≠ .gone := by
  cases c with
  | waiting => cases hcell : s.cell <;> simp [advance, hcell]
  | taking | calling | filling | returned => exact Caller.noConfusion
  | gone => exact absurd rfl hc

theorem Attends.step (h : s.Attends i) (he : e ≠ .drop i) : (s.step e).Attends i := by
  obtain ⟨c, hi, hc⟩ := h
  rcases getElem?_step hi (fun h => absurd h he) with hsame | ⟨-, hnext⟩
  · exact ⟨c, hsame, hc⟩
  · exact ⟨_, hnext, advance_ne_gone s i hc⟩

theorem Attends.run (h : s.Attends i) (hes : .drop i ∉ es) : (s.run es).Attends i := by
  induction es generalizing s with
  | nil => exact h
  | cons e es ih =>
      obtain ⟨hne, hrest⟩ := not_or.1 (mt List.mem_cons.2 hes)
      exact ih (h.step (Ne.symm hne)) hrest

/-- To poll everybody is a turn of each caller. -/
theorem turn_polls (h : s.Attends i) :
    s.Turn i ((List.range s.callers.length).map .poll) := by
  have hmem : ∀ (j : Nat) (c : Caller), s.callers[j]? = some c →
      .poll j ∈ (List.range s.callers.length).map Event.poll := by
    intro j c hj
    have hlt : j < s.callers.length := (List.getElem?_eq_some_iff.1 hj).1
    exact List.mem_map_of_mem (List.mem_range.2 hlt)
  obtain ⟨c, hi, -⟩ := h
  exact ⟨hmem i c hi, fun j d hj _ => hmem j d hj, by simp⟩

theorem length_run_polls (s : State) (is : List Nat) :
    (s.run (is.map .poll)).callers.length = s.callers.length := by
  induction is generalizing s with
  | nil => rfl
  | cons i is ih =>
      show ((s.step (.poll i)).run (is.map .poll)).callers.length = s.callers.length
      rw [ih]
      cases hi : s.callers[i]? with
      | none => simp only [step, hi]
      | some c => rw [step_poll_of_some hi, List.length_set]

/-- So every caller that is there can have any number of turns. -/
theorem turns_polls (h : s.Attends i) (n : Nat) :
    Turns i s (List.replicate n ((List.range s.callers.length).map .poll)) := by
  induction n generalizing s with
  | zero => trivial
  | succ n ih =>
      have hturn := turn_polls h
      have hrest := ih (h.run hturn.kept)
      rw [length_run_polls] at hrest
      exact ⟨hturn, hrest⟩

/-- A caller that has returned stays so. -/
theorem returned_run (hi : s.callers[i]? = some .returned) (es : List Event) :
    (s.run es).callers[i]? = some .returned := by
  induction es generalizing s with
  | nil => exact hi
  | cons e es ih =>
      refine ih ?_
      rcases getElem?_step hi (fun _ => Caller.noConfusion) with hsame | ⟨-, hnext⟩
      · exact hsame
      · exact hnext

/-- The caller whose step brings the function further: the one that holds the cell, and `i` as long
as nobody does. -/
inductive Key (s : State) (i : Nat) : Nat → Prop
  | free : s.cell = .empty → Key s i i
  | holder {k : Nat} : s.cell = .held k → Key s i k

theorem Sound.exists_key_mem (h : s.Sound) (hturn : s.Turn i es) (hlt : s.progress < 4) :
    ∃ k, s.Key i k ∧ .poll k ∈ es := by
  cases h with
  | untouched hc => exact ⟨i, .free hc, hturn.polled⟩
  | inWork hc hk hworks => exact ⟨_, .holder hc, hturn.worked _ _ hk hworks.isBusy⟩
  | finished hc =>
      rw [progress, hc] at hlt
      exact absurd hlt (Nat.lt_irrefl 4)

theorem Sound.lt_progress_poll (h : s.Sound) (hi : s.Attends i) {k : Nat} (hk : s.Key i k) :
    s.progress < (s.step (.poll k)).progress := by
  cases hk with
  | free hc =>
      obtain ⟨c, hi, hgone⟩ := hi
      cases h with
      | untouched hc' hheld hruns hall =>
          have hidle := hall i c hi
          cases c with
          | waiting => exact ((Sound.untouched hc' hheld hruns hall).poll_waiting hi hc).2
          | gone => exact absurd rfl hgone
          | taking | calling | filling | returned => exact hidle.elim
      | inWork hc' | finished hc' => cases hc.symm.trans hc'
  | holder hc =>
      cases h with
      | inWork hc' hk hworks hothers =>
          obtain rfl := Cell.held.inj (hc.symm.trans hc')
          exact ((Sound.inWork hc' hk hworks hothers).poll_busy hk hworks.isBusy).2
      | untouched hc' | finished hc' => cases hc.symm.trans hc'

/-- As long as a caller is there, each turn brings the function further until it is known to have
run. -/
theorem Sound.lt_progress_of_turn (h : s.Sound) (hi : s.Attends i) (hturn : s.Turn i es)
    (hlt : s.progress < 4) : s.progress < (s.run es).progress := by
  obtain ⟨k, hk, hmem⟩ := h.exists_key_mem hturn hlt
  obtain ⟨front, back, rfl⟩ := List.append_of_mem hmem
  have hfront : (s.run front).Attends i := by
    refine hi.run fun hmem => hturn.kept ?_
    exact List.mem_append_left _ hmem
  obtain ⟨hsound, hmoved⟩ := h.run front
  have hback : (s.run front).progress ≤ (s.run (front ++ .poll k :: back)).progress := by
    rw [run_append]
    exact hsound.progress_le_run _
  rcases hmoved with hsame | hmoved
  · -- nothing has moved when the key caller is polled, so it is the key caller still
    have hk' : (s.run front).Key i k := by
      cases hk with
      | free hc => exact .free (hsame.cell.trans hc)
      | holder hc => exact .holder (hsame.cell.trans hc)
    have hpolled := (hsound.step (.poll k)).1
    rw [run_append]
    calc s.progress = (s.run front).progress := hsame.progress.symm
      _ < ((s.run front).step (.poll k)).progress := hsound.lt_progress_poll hfront hk'
      _ ≤ (((s.run front).step (.poll k)).run back).progress := hpolled.progress_le_run back
  · exact Nat.lt_of_lt_of_le hmoved hback

theorem progress_le_four (s : State) : s.progress ≤ 4 := by
  unfold progress
  split
  · omega
  · split
    · omega
    · split <;> omega
  · omega

theorem Sound.of_four_le_progress (h : s.Sound) (hle : 4 ≤ s.progress) :
    s.cell = .full ∧
      ∀ (j : Nat) (d : Caller), s.callers[j]? = some d → d.IsIdle ∨ d = .returned := by
  cases h with
  | untouched hc =>
      simp only [progress, hc] at hle
      omega
  | inWork hc =>
      simp only [progress, hc] at hle
      split at hle
      · omega
      · split at hle <;> omega
  | finished hc _ _ hall => exact ⟨hc, hall⟩

/-- Once it is known that the function has run, a caller returns in its next turn. -/
theorem Sound.returned_of_turn (h : s.Sound) (hdone : 4 ≤ s.progress) (hi : s.Attends i)
    (hturn : s.Turn i es) : (s.run es).callers[i]? = some .returned := by
  obtain ⟨front, back, rfl⟩ := List.append_of_mem hturn.polled
  obtain ⟨c, hat, hgone⟩ : (s.run front).Attends i := by
    refine hi.run fun hmem => hturn.kept ?_
    exact List.mem_append_left _ hmem
  have hle : 4 ≤ (s.run front).progress := Nat.le_trans hdone (h.progress_le_run front)
  obtain ⟨hfull, hall⟩ := (h.run front).1.of_four_le_progress hle
  have hreturns : ((s.run front).advance i c).2 = .returned := by
    cases c with
    | waiting => simp only [advance, hfull]
    | returned => rfl
    | gone => exact absurd rfl hgone
    | taking | calling | filling =>
        rcases hall i _ hat with hidle | hreturned
        · exact hidle.elim
        · cases hreturned
  rw [run_append]
  show (((s.run front).step (.poll i)).run back).callers[i]? = some .returned
  refine returned_run ?_ back
  rw [step_poll_of_some hat, getElem?_set_of_some hat, if_pos rfl, hreturns]

/-- A caller that is not given up returns when it and those at work have had their turns, four to
bring the function to its end and one to learn of it. -/
theorem Sound.returned_of_turns (h : s.Sound) (hi : s.Attends i) {turns : List (List Event)}
    (hturns : Turns i s turns) (hlt : 4 < s.progress + turns.length) :
    (s.run turns.flatten).callers[i]? = some .returned := by
  induction turns generalizing s with
  | nil =>
      have hle := progress_le_four s
      simp only [List.length_nil] at hlt
      omega
  | cons es rest ih =>
      obtain ⟨hturn, hrest⟩ := hturns
      rw [List.flatten_cons, run_append]
      by_cases hdone : 4 ≤ s.progress
      · exact returned_run (h.returned_of_turn hdone hi hturn) _
      · -- the turn was not in vain, so one turn less is enough from here
        have hfurther := h.lt_progress_of_turn hi hturn (Nat.lt_of_not_le hdone)
        refine ih (h.run es).1 (hi.run hturn.kept) hrest ?_
        rw [List.length_cons] at hlt
        omega

theorem attends_call (s : State) : (s.step .call).Attends s.callers.length := by
  refine ⟨.waiting, ?_, Caller.noConfusion⟩
  simp [step]

/-- However many callers there are and however they are polled and given up: at most one execution
is ever begun, and where a caller has returned it has come to its end. It is known to have run
exactly from the event on that records it, which finds it at its end. And whatever was given up, a
caller that is left, such as a new one, gets the function run: in five turns it has returned. -/
theorem executed_once (events : List Event) :
    let s := ({} : State).run events
    s.underway + s.runs ≤ 1 ∧
      (∀ i : Nat, s.callers[i]? = some .returned → s.runs = 1 ∧ s.underway = 0) ∧
      ((s.isDone ↔ ({} : State).Recorded events) ∧
        ∀ e, s.Records e → s.runs = 1 ∧ s.underway = 0 ∧ ¬ s.isDone) ∧
      (s.step .call).Attends s.callers.length ∧
      ∀ (i : Nat) (turns : List (List Event)), s.Attends i → Turns i s turns → 5 ≤ turns.length →
        (s.run turns.flatten).callers[i]? = some .returned ∧ (s.run turns.flatten).runs = 1 := by
  intro s
  have hsound : s.Sound := (sound_new.run events).1
  refine ⟨hsound.underway_add_runs_le, ?_, ⟨?_, fun e he => hsound.of_records he⟩, attends_call s,
    ?_⟩
  · intro i hi
    have hruns := (hsound.of_returned hi).2
    have hle := hsound.underway_add_runs_le
    exact ⟨hruns, by omega⟩
  · have hnew : ¬ ({} : State).isDone := by simp [isDone]
    rw [isDone_run_iff]
    exact or_iff_right hnew
  · intro i turns hi hturns hlen
    have hreturned := hsound.returned_of_turns hi hturns (by omega)
    exact ⟨hreturned, ((hsound.run _).1.of_returned hreturned).2⟩

/-- The first caller is given up while it waits for the second, which is at work. The third is left
and has the function run. -/
theorem executed_once_after_drop :
    let s := ({} : State).run [.call, .call, .call, .poll 1, .poll 0, .drop 0]
    let turns := List.replicate 5 [.poll 0, .poll 1, .poll 2]
    s.callers = [.gone, .taking, .waiting] ∧ s.Attends 2 ∧ Turns 2 s turns ∧
      (s.run turns.flatten).callers[2]? = some .returned ∧ (s.run turns.flatten).runs = 1 := by
  intro s turns
  have hattends : s.Attends 2 := ⟨.waiting, rfl, Caller.noConfusion⟩
  have hturns : Turns 2 s turns := turns_polls hattends 5
  have hlen : 5 ≤ turns.length := Nat.le_of_eq List.length_replicate.symm
  exact ⟨rfl, hattends, hturns, (executed_once _).2.2.2.2 2 turns hattends hturns hlen⟩

/-! ## Rounds -/

theorem rounds_of_returned (hi : s.callers[i]? = some .returned) (n : Nat) :
    (rounds n s).callers[i]? = some .returned := by
  induction n generalizing s with
  | zero => exact hi
  | succ n ih =>
      rw [rounds]
      split
      · exact hi
      · refine ih ?_
        rw [round_eq_run]
        exact returned_run hi _

/-- Rounds that stop where one changes nothing do not stop before everybody has returned. -/
theorem Sound.returned_rounds (h : s.Sound) (hi : s.Attends i) {n : Nat}
    (hlt : 4 < s.progress + n) : (rounds n s).callers[i]? = some .returned := by
  induction n generalizing s with
  | zero =>
      have hle := progress_le_four s
      omega
  | succ n ih =>
      have hturn := turn_polls hi
      have hnext := (h.run ((List.range s.callers.length).map .poll)).1
      have hkept := hi.run hturn.kept
      have hreturned := fun hdone => h.returned_of_turn hdone hi hturn
      have hfurther := h.lt_progress_of_turn hi hturn
      rw [← round_eq_run] at hnext hkept hreturned hfurther
      rw [rounds]
      -- a round that changes nothing is one in which the caller had nothing left to wait for
      by_cases hdone : 4 ≤ s.progress
      · have hi := hreturned hdone
        split
        · next hstill => rwa [hstill] at hi
        · exact rounds_of_returned hi n
      · have hlt' := hfurther (Nat.lt_of_not_le hdone)
        split
        · next hstill =>
          rw [hstill] at hlt'
          exact absurd hlt' (Nat.lt_irrefl _)
        · exact ih hnext hkept (by omega)

theorem returned_settle (events : List Event) (h : (({} : State).run events).Attends i) :
    (({} : State).run events).settle.callers[i]? = some .returned := by
  have hlen : i < (({} : State).run events).callers.length := by
    obtain ⟨c, hi, -⟩ := h
    exact (List.getElem?_eq_some_iff.1 hi).1
  exact (sound_new.run events).1.returned_rounds h (by omega)

end State

end Switchboard.Once
