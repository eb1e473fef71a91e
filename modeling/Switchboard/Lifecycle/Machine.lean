import Switchboard.Lifecycle.Call

set_option autoImplicit false

/-! # All that can happen to a server

A `Machine` is a server with the calls made on it so far. Everything that can happen is an
`Event`, and `Machine.run` follows any list of events: the calls take their steps in any order, and
between them requests come and go, deadlines pass, signals arrive and the listener may fail.
-/

namespace Switchboard

/-- What can happen. Calls are named by their place in the order in which they were made. -/
inductive Event where
  | register (note : Phase → List String)
  | start (addr : String) (tls : Option TlsConfig)
  | stop
  | shutdown (timeout : Option Duration)
  | wait
  /-- A call does its next step. -/
  | poll (call : Nat)
  /-- A call is given up. -/
  | drop (call : Nat)
  /-- The deadline of a call passes. -/
  | expire (call : Nat)
  /-- The listener of a start is bound or not. -/
  | bound (call : Nat) (result : Except ServerError Ip)
  | signal (call : Nat) (sig : Signal)
  /-- A request arrives. -/
  | request
  /-- A request is answered. -/
  | response
  /-- Serving ends because it was asked to and all requests are answered. -/
  | drained (call : Nat)
  | listenerFails (call : Nat) (message : String)

/-- A server with the calls made on it. -/
structure Machine where
  server : Server
  calls : List Call := []

namespace Machine

variable (m : Machine)

/-- A machine of a new server. -/
def new (config : ServerConfig) : Machine := { server := { config } }

/-- Adds a call. -/
def begin (c : Call) : Machine := { m with calls := m.calls ++ [c] }

/-- Changes the server and one call. -/
def update (i : Nat) (f : Server → Call → Server × Call) : Machine :=
  match m.calls[i]? with
  | none => m
  | some c =>
    let (server, c) := f m.server c
    { server, calls := m.calls.set i c }

/-- Whether requests are accepted. -/
def serves : Bool := m.calls.any Call.serves

/-- What happens next. -/
def step : Event → Machine
  | .register note => { m with server := m.server.register note }
  | .start addr tls => m.begin (.start addr tls .entering)
  | .stop => m.begin (.stop .entering)
  | .shutdown timeout => m.begin (.shutdown timeout .entering)
  | .wait => m.begin (.wait none)
  | .poll i => m.update i fun s c => c.advance i s
  | .drop i => m.update i fun s c => if c.pauses then (s.release i, .gone) else (s, c)
  | .expire i => m.update i fun s c => (s, c.expire)
  | .bound i result => m.update i fun s c => c.onStart (fun tls s p => p.bound tls result s) s
  | .signal i sig => m.update i fun s c => c.onStart (fun _ s p => (s, p.signal sig s)) s
  | .request =>
    if m.serves then { m with server := { m.server with inFlight := m.server.inFlight + 1 } }
    else m
  | .response => { m with server := { m.server with inFlight := m.server.inFlight - 1 } }
  | .drained i => m.update i fun s c => c.drained i s
  | .listenerFails i message =>
    m.update i fun s c =>
      c.onStart (fun _ s p => p.serveEnds i (.error (.listenerFailed message)) s) s

/-- The machine after some events. -/
def run (events : List Event) : Machine := events.foldl step m

theorem run_append (es fs : List Event) : m.run (es ++ fs) = (m.run es).run fs :=
  List.foldl_append

/-- What changes one call leaves those before it and behind it as they are. -/
theorem update_append (s : Server) (before : List Call) (c : Call) (rest : List Call)
    (f : Server → Call → Server × Call) :
    update { server := s, calls := before ++ c :: rest } before.length f =
      { server := (f s c).1, calls := before ++ (f s c).2 :: rest } := by
  simp [update]

end Machine

end Switchboard
