import Switchboard.Lifecycle.Machine

set_option autoImplicit false

/-! # Sessions

A session is the ordinary use of a server: one step after another, and before the next step all
calls go on as far as they can (`Machine.settle`). A step that waits for a call lets deadlines pass,
the nearest first, until the call is over. Clients may or may not reach the network that the server
listens on.
-/

namespace Switchboard

/-! ## What a call waits for and what it returns -/

/-- The deadline that a shutdown waits for. -/
def Closing.deadline? (timeout : Option Duration) : Closing → Option Duration
  | .draining false => timeout
  | _ => none

def Stopping.deadline? (timeout : Option Duration) : Stopping → Option Duration
  | .closing c => c.deadline? timeout
  | _ => none

def Starting.deadline? (timeout : Option Duration) : Starting → Option Duration
  | .interrupted p | .stopping _ p => p.deadline? timeout
  | _ => none

namespace Call

/-- The deadline that a call waits for, where `timeout` is the configured one. -/
def deadline? (timeout : Option Duration) : Call → Option Duration
  | .start _ _ p => p.deadline? timeout
  | .stop p => p.deadline? timeout
  | .shutdown own p => p.deadline? own
  | _ => none

/-- What a call has returned, if it is over. -/
def result? : Call → Option Outcome
  | .start _ _ (.done outcome) => some outcome
  | .start _ _ (.refused cause) => some (.error cause)
  | .stop .done => some (.ok ())
  | .shutdown _ .refused => some (.error .notStarted)
  | .shutdown (some timeout) (.done true) => some (.error (.deadlineMissed timeout))
  | .shutdown _ (.done _) => some (.ok ())
  | .wait (some _) => some (.ok ())
  | _ => none

/-- The result of binding the listener of a start. -/
def listen (addr : String) : Except ServerError Ip :=
  match SocketAddress.resolve addr with
  | .error cause => .error (.badAddress cause)
  | .ok address =>
    match address.refusal? with
    | some cause => .error (.cannotListen cause)
    | none => .ok address.ip

/-- What can happen to a call without anybody's doing, where `i` is its place. -/
def ownEvents (i : Nat) : Call → List Event
  | .start addr _ _ => [.poll i, .bound i (listen addr), .drained i]
  | _ => [.poll i]

/-- What becomes of a call by its own events. -/
def turn (i : Nat) (s : Server) : Call → Server × Call
  | .start addr tls p =>
    let (s, c) := (Call.start addr tls p).advance i s
    let (s, c) := c.onStart (fun tls s p => p.bound tls (listen addr) s) s
    c.drained i s
  | c => c.advance i s

/-- Gives calls their turns in order; the first of them has place `i`. -/
def turns (s : Server) (i : Nat) : List Call → Server × List Call
  | [] => (s, [])
  | c :: rest =>
    let (s, c) := c.turn i s
    let (s, rest) := turns s (i + 1) rest
    (s, c :: rest)

end Call

namespace Machine

variable (m : Machine)

/-- Gives every call its turn. -/
def round : Machine :=
  let (server, calls) := Call.turns m.server 0 m.calls
  { server, calls }

theorem run_ownEvents (s : Server) (before : List Call) (c : Call) (rest : List Call) :
    run { server := s, calls := before ++ c :: rest } (c.ownEvents before.length) =
      { server := (c.turn before.length s).1
        calls := before ++ (c.turn before.length s).2 :: rest } := by
  cases c <;> simp [Call.ownEvents, Call.turn, run, step, update_append]

theorem run_turns (s : Server) (before rest : List Call) :
    run { server := s, calls := before ++ rest }
        ((rest.zipIdx before.length).flatMap fun c => c.1.ownEvents c.2) =
      { server := (Call.turns s before.length rest).1
        calls := before ++ (Call.turns s before.length rest).2 } := by
  induction rest generalizing s before with
  | nil => simp [run, Call.turns]
  | cons c rest ih =>
    have h := ih (c.turn before.length s).1 (before ++ [(c.turn before.length s).2])
    simp only [List.append_assoc, List.singleton_append, List.length_append, List.length_singleton]
      at h
    simp only [List.zipIdx_cons, List.flatMap_cons, run_append, run_ownEvents, Call.turns, h]

/-- A round is a run of the calls' own events. -/
theorem round_eq_run :
    m.round = m.run (m.calls.zipIdx.flatMap fun c => c.1.ownEvents c.2) := by
  simpa [round] using (run_turns m.server [] m.calls).symm

/-- Lets rounds follow each other until one of them moves no call. A turn that changes the server
moves its call. -/
def rounds : Nat → Machine → Machine
  | 0, m => m
  | n + 1, m =>
    let next := m.round
    if next.calls = m.calls then next else rounds n next

/-- Lets every call go on as far as it can. A call does at most one step for each hook and a few
steps besides, and of the calls that wait for each other's cells each needs a few more. -/
def settle : Machine := rounds (m.server.hooks.length + 4 * m.calls.length + 24) m

def isOver (i : Nat) : Bool := (m.calls[i]?.bind Call.result?).isSome

/-- The calls that wait for a deadline, with its time. -/
def deadlines : List (Nat × Duration) :=
  m.calls.zipIdx.filterMap fun c =>
    (c.1.deadline? m.server.config.shutdownTimeout).map fun d => (c.2, d)

/-- The call whose deadline is the nearest. -/
def nearest? : Option Nat :=
  (m.deadlines.mergeSort fun a b => a.2.millis ≤ b.2.millis).head?.map (·.1)

/-- Lets deadlines pass, the nearest first, until a call is over or no deadline is left. -/
def awaitFor : Nat → Nat → Machine → Machine
  | 0, _, m => m
  | n + 1, i, m =>
    if m.isOver i then m
    else
      match m.nearest? with
      | some j => awaitFor n i (m.step (.expire j)).settle
      | none => m

/-- Waits for a call. A call waits for at most two deadlines. -/
def await (i : Nat) : Machine := awaitFor (2 * m.calls.length) i m.settle

/-- What a call has returned. A call that is not over has returned nothing. -/
def outcome (i : Nat) : Outcome := ((m.calls[i]?).bind Call.result?).getD (.ok ())

end Machine

/-! ## Steps of a session -/

/-- A server in use. -/
structure Session where
  machine : Machine
  /-- Whether clients reach the network that the server listens on. -/
  reachable : Bool
  /-- The start that has not been joined yet. -/
  started : Option Nat := none
  /-- The calls in the background whose results have not been collected yet. -/
  later : List Nat := []
  /-- The waits in the background whose release has not been reported yet. -/
  waiters : List Nat := []

namespace Session

/-- A session with a new server. -/
def new (config : ServerConfig) (reachable : Bool) : Session :=
  { machine := .new config, reachable }

variable (s : Session)

def server : Server := s.machine.server

/-- Makes a call and lets it go on as far as it can. -/
def call (e : Event) : Session × Nat :=
  ({ s with machine := (s.machine.step e).settle }, s.machine.calls.length)

/-- Makes a call and waits for it. -/
def callAndAwait (e : Event) : Session × Outcome :=
  let (s, i) := s.call e
  let machine := s.machine.await i
  ({ s with machine }, machine.outcome i)

/-- Registers a hook. -/
def register (note : Phase → List String) : Session :=
  { s with machine := s.machine.step (.register note) }

/-- Starts the server. The result is that of the start if it is over at once. -/
def start (addr : String) (tls : Option TlsConfig) : Session × Option Outcome :=
  let (s, i) := s.call (.start addr tls)
  if s.machine.isOver i then (s, some (s.machine.outcome i))
  else ({ s with started := some i }, none)

/-- Waits for the start that has not been joined yet. -/
def join : Session × Option Outcome :=
  match s.started with
  | none => (s, none)
  | some i =>
    let machine := s.machine.await i
    ({ s with machine, started := none }, some (machine.outcome i))

/-- Makes two calls to stop at once and waits for both. -/
def stopTwice : Session :=
  let (s, i) := s.call .stop
  let (s, j) := s.call .stop
  { s with machine := (s.machine.await i).await j }

/-- Makes a call in the background. -/
def callLater (e : Event) : Session :=
  let (s, i) := s.call e
  { s with later := s.later ++ [i] }

/-- Waits for the calls in the background. -/
def collect : Session × List Outcome :=
  let machine := s.later.foldl Machine.await s.machine
  ({ s with machine, later := [] }, s.later.map machine.outcome)

/-- Waits for the end for a short time. -/
def wait : Session × Bool :=
  let (s, i) := s.call .wait
  ({ s with machine := s.machine.step (.drop i) }, s.machine.isOver i)

/-- Begins waits for the end in the background. -/
def addWaiters (n : Nat) : Session :=
  let calls := s.machine.calls ++ List.replicate n (.wait none)
  { s with
    machine := { s.machine with calls }.settle
    waiters := s.waiters ++ List.range' s.machine.calls.length n }

/-- Reports how many lines the hooks had noted when each of the waits in the background that have
been released was. -/
def waited : Session × List Nat :=
  let machine := s.machine.settle
  let calls := machine.calls.toArray
  let releasedAt? (i : Nat) : Option Nat :=
    match calls[i]? with
    | some (.wait released) => released
    | _ => none
  ({ s with machine, waiters := s.waiters.filter fun i => (releasedAt? i).isNone },
    s.waiters.filterMap releasedAt?)

/-- Sends a signal to a running server that listens for it, and waits for the end unless requests
without a deadline hold it up. -/
def signal (sig : Signal) : Session × Bool :=
  match s.machine.calls.findIdx? Call.serves with
  | none => (s, false)
  | some i =>
    if sig ∉ s.server.config.signals ∨ s.server.phase ≠ .running then (s, false)
    else
      let machine := (s.machine.step (.signal i sig)).settle
      -- an open request without a deadline would hold the end up for ever
      let ends := machine.server.inFlight = 0 ∨ machine.server.config.shutdownTimeoutSecs.isSome
      ({ s with machine := if ends then machine.await i else machine }, true)

/-- Whether a client gets a connection. -/
def connects : Bool := s.reachable && s.machine.serves && !s.server.draining

/-- A client makes a request that is not answered before `release`. -/
def request : Session × Bool :=
  if s.connects then ({ s with machine := (s.machine.step .request).settle }, true)
  else (s, false)

/-- Lets all requests be answered. -/
def release : Session × Nat :=
  let n := s.server.inFlight
  ({ s with machine := (s.machine.run (List.replicate n .response)).settle }, n)

end Session

end Switchboard
