import Switchboard.Lifecycle.Basic

set_option autoImplicit false

/-! # Functions that run once

A `Once` holds a function that runs at most once, however many callers ask for it. Callers meet at
a cell: the one that gets it takes the function, runs it and fills the cell, the others wait. A
caller can be given up while it waits, and the cell is free again.
-/

namespace Switchboard.Once

/-- Where a caller stands. -/
inductive Caller where
  /-- Not begun, or waiting for the cell. -/
  | waiting
  /-- Holds the cell and is about to take the function. -/
  | taking
  /-- Holds the cell and has taken the function, if it was still there. -/
  | calling (taken : Bool)
  /-- Holds the cell and is about to fill it. -/
  | filling
  | returned
  | gone
deriving DecidableEq, Repr

/-- A function with its callers. -/
structure State where
  cell : Cell := .empty
  /-- The function has not been taken yet. -/
  held : Bool := true
  /-- How often the function has run. -/
  runs : Nat := 0
  callers : List Caller := []
deriving DecidableEq, Repr

/-- What can happen. -/
inductive Event where
  /-- A new caller. -/
  | call
  /-- A caller does its next step. -/
  | poll (caller : Nat)
  /-- A caller is given up. -/
  | drop (caller : Nat)
deriving DecidableEq, Repr

namespace State

/-- The function is known to have run. -/
def isDone (s : State) : Bool := s.cell = .full

/-- The next step of a caller. -/
def advance (s : State) (i : Nat) : Caller → State × Caller
  | .waiting =>
    match s.cell with
    | .full => (s, .returned)
    | .empty => ({ s with cell := .held i }, .taking)
    | .held _ => (s, .waiting)
  -- the function is gone for good, whatever becomes of this caller
  | .taking => ({ s with held := false }, .calling s.held)
  | .calling taken => ({ s with runs := if taken then s.runs + 1 else s.runs }, .filling)
  | .filling => ({ s with cell := .full }, .returned)
  | .returned => (s, .returned)
  | .gone => (s, .gone)

/-- What happens next. Only a caller that waits can be given up; the others do not pause. -/
def step (s : State) : Event → State
  | .call => { s with callers := s.callers ++ [.waiting] }
  | .poll i =>
    match s.callers[i]? with
    | none => s
    | some c =>
      let (s, c) := s.advance i c
      { s with callers := s.callers.set i c }
  | .drop i =>
    match s.callers[i]? with
    | some .waiting => { s with callers := s.callers.set i .gone }
    | _ => s

/-- The state after some events. -/
def run (s : State) (events : List Event) : State := events.foldl step s

/-- Polls callers in turn, the first of which has place `i`. The callers that the state holds are
not looked at. -/
def scan (s : State) (i : Nat) : List Caller → State × List Caller
  | [] => (s, [])
  | c :: rest =>
    let (s, c) := s.advance i c
    let (s, rest) := s.scan (i + 1) rest
    (s, c :: rest)

/-- Polls every caller once. -/
def round (s : State) : State :=
  let (next, callers) := s.scan 0 s.callers
  { next with callers }

/-- Lets rounds follow each other until one of them changes nothing. -/
def rounds : Nat → State → State
  | 0, s => s
  | n + 1, s => if s.round = s then s else rounds n s.round

/-- Polls every caller in turn until all of them have returned. -/
def settle (s : State) : State := rounds (s.callers.length + 4) s

/-! ## A round is a run -/

/-- The step of a caller does not look at the callers that the state holds. -/
theorem advance_callers (s : State) (cs : List Caller) (i : Nat) (c : Caller) :
    ({ s with callers := cs } : State).advance i c =
      ({ (s.advance i c).1 with callers := cs }, (s.advance i c).2) := by
  obtain ⟨cell, _, _, _⟩ := s
  cases c <;> cases cell <;> rfl

theorem step_poll (s : State) (before : List Caller) (c : Caller) (rest : List Caller) :
    ({ s with callers := before ++ c :: rest } : State).step (.poll before.length) =
      { (s.advance before.length c).1 with
        callers := before ++ (s.advance before.length c).2 :: rest } := by
  simp [step, advance_callers]

theorem run_polls (s : State) (before rest : List Caller) :
    ({ s with callers := before ++ rest } : State).run
        ((List.range' before.length rest.length).map .poll) =
      { (s.scan before.length rest).1 with
        callers := before ++ (s.scan before.length rest).2 } := by
  induction rest generalizing s before with
  | nil => simp [run, scan]
  | cons c rest ih =>
    have h := ih (s.advance before.length c).1 (before ++ [(s.advance before.length c).2])
    simp only [List.append_assoc, List.singleton_append, List.length_append, List.length_singleton]
      at h
    simpa [run, List.range'_succ, step_poll, scan] using h

/-- A round is a run that polls every caller. -/
theorem round_eq_run (s : State) :
    s.round = s.run ((List.range s.callers.length).map .poll) := by
  have h := run_polls s [] s.callers
  simpa [round, List.range_eq_range'] using h.symm

end State

end Switchboard.Once
