import Switchboard.Lifecycle.Basic

set_option autoImplicit false

/-! # Calls on a server

The calls `start`, `stop`, `shutdown` and `wait`, each as a program counter that moves in single
steps over the shared state. A step reads or writes one place of that state, so steps of several
calls can be mixed in any order. A call pauses only where it waits; there, and only there, it can
be given up.
-/

namespace Switchboard

/-! ## Running the hooks -/

/-- A pass over the hooks. -/
inductive HookPass where
  /-- Waits for the cell that lets one pass at a time go on. -/
  | waiting
  /-- About to take the hooks registered so far. -/
  | gathering
  /-- About to run the next of these hooks; there is at least one. -/
  | running (next : Nat) (rest : List Nat)
  /-- About to make it known that all hooks have run. -/
  | announcing
  | filling
  | done
deriving DecidableEq, Repr

namespace HookPass

/-- A pass that has some hooks left to run. -/
def ofList : List Nat → HookPass
  | [] => .announcing
  | next :: rest => .running next rest

/-- The next step. The newest hook runs first. -/
def advance (call : Nat) (s : Server) : HookPass → Server × HookPass
  | .waiting =>
    match s.finished with
    | .full => (s, .done)
    | .empty => ({ s with finished := .held call }, .gathering)
    | .held _ => (s, .waiting)
  | .gathering => (s, ofList (List.range s.hooks.length).reverse)
  | .running next rest => (s.runHook next, ofList rest)
  | .announcing => ({ s with phase := .stopped }, .filling)
  | .filling => ({ s with finished := .full }, .done)
  | .done => (s, .done)

/-- Whether the pass can be given up here. -/
def pauses : HookPass → Bool
  | .waiting | .running _ _ => true
  | _ => false

end HookPass

/-! ## Shutdown -/

/-- A shutdown: marks the phase, asks serving to end, waits for its end or for a deadline, and
runs the hooks. -/
inductive Closing where
  | entering
  | marking
  | asking
  /-- Waits for the end of serving; `expired` if the deadline has passed. -/
  | draining (expired : Bool)
  | hooks (missed : Bool) (pass : HookPass)
  | done (missed : Bool)
  /-- There was nothing to shut down. -/
  | refused
deriving DecidableEq, Repr

namespace Closing

/-- The next step of a shutdown with or without a deadline. -/
def advance (call : Nat) (timeout : Option Duration) (s : Server) : Closing → Server × Closing
  | .entering => if s.phase = .created then (s, .refused) else (s, .marking)
  | .marking =>
    ({ s with phase := if s.phase = .running then .shuttingDown else s.phase }, .asking)
  | .asking => ({ s with draining := true }, .draining false)
  | .draining expired =>
    -- the end of serving wins over a deadline that passes at the same time
    if s.served then (s, .hooks false .waiting)
    else if expired && timeout.isSome then (s, .hooks true .waiting)
    else (s, .draining expired)
  | .hooks missed pass =>
    match pass.advance call s with
    | (s, .done) => (s, .done missed)
    | (s, pass) => (s, .hooks missed pass)
  | .done missed => (s, .done missed)
  | .refused => (s, .refused)

/-- The deadline passes. -/
def expire : Closing → Closing
  | .draining _ => .draining true
  | c => c

def pauses : Closing → Bool
  | .entering | .draining _ => true
  | .hooks _ pass => pass.pauses
  | _ => false

def isOver : Closing → Bool
  | .done _ | .refused => true
  | _ => false

end Closing

/-! ## Stop -/

/-- A stop: a shutdown with the configured deadline, by one call at a time, until one of them has
finished. -/
inductive Stopping where
  | entering
  /-- Waits for the cell that lets one shutdown at a time go on. -/
  | waiting
  | closing (c : Closing)
  | filling
  | done
deriving DecidableEq, Repr

namespace Stopping

def advance (call : Nat) (s : Server) : Stopping → Server × Stopping
  | .entering => if s.phase = .created then (s, .done) else (s, .waiting)
  | .waiting =>
    match s.shut with
    | .full => (s, .done)
    | .empty => ({ s with shut := .held call }, .closing .entering)
    | .held _ => (s, .waiting)
  | .closing c =>
    let (s, c) := c.advance call s.config.shutdownTimeout s
    (s, if c.isOver then .filling else .closing c)
  | .filling => ({ s with shut := .full }, .done)
  | .done => (s, .done)

def expire : Stopping → Stopping
  | .closing c => .closing c.expire
  | p => p

/-- Whether the stop can be given up here. The shutdown inside begins without a pause. -/
def pauses : Stopping → Bool
  | .entering | .waiting => true
  | .closing c => c ≠ .entering && c.pauses
  | _ => false

end Stopping

/-! ## Start -/

/-- How serving ended. -/
abbrev Outcome := Except ServerError Unit

instance : DecidableEq Outcome
  | .ok (), .ok () => isTrue rfl
  | .error a, .error b => decidable_of_iff (a = b) (by simp)
  | .ok (), .error _ => isFalse (by simp)
  | .error _, .ok () => isFalse (by simp)

/-- A start: passes the gate once, binds the listener, serves, and shuts down when serving ends or
a signal arrives. -/
inductive Starting where
  | entering
  /-- About to register the hook that reports the end. -/
  | reporting
  | binding
  | serving
  /-- Shuts down because of a signal, and serves meanwhile. -/
  | interrupted (p : Stopping)
  /-- About to make it known that serving has ended. -/
  | ending (outcome : Outcome)
  | stopping (outcome : Outcome) (p : Stopping)
  | done (outcome : Outcome)
  | refused (cause : ServerError)
deriving DecidableEq

namespace Starting

/-- The error of a start with an address other than the only one allowed. -/
def addressError? (config : ServerConfig) (addr : String) : Option ServerError :=
  match config.addr with
  | some only => if only = addr then none else some (.otherAddress only addr)
  | none => none

/-- The next step that a start does by itself. -/
def advance (call : Nat) (addr : String) (s : Server) : Starting → Server × Starting
  | .entering =>
    match addressError? s.config addr with
    | some cause => (s, .refused cause)
    | none =>
      if s.phase = .created then ({ s with phase := .running }, .reporting)
      else (s, .refused .alreadyStarted)
  | .reporting => (s.register fun _ => [], .binding)
  | .binding => (s, .binding)
  -- a shutdown that missed its deadline ends serving from outside
  | .serving => if s.phase = .stopped then (s, .ending (.ok ())) else (s, .serving)
  | .interrupted p =>
    match p.advance call s with
    | (s, .done) => (s, .ending (.ok ()))
    | (s, p) => (s, .interrupted p)
  | .ending outcome => ({ s with served := true }, .stopping outcome .entering)
  | .stopping outcome p =>
    match p.advance call s with
    | (s, .done) => (s, .done outcome)
    | (s, p) => (s, .stopping outcome p)
  | .done outcome => (s, .done outcome)
  | .refused cause => (s, .refused cause)

/-- The listener is bound or not. Encrypted serving ends at once. -/
def bound (tls : Option TlsConfig) (result : Except ServerError Ip) (s : Server) :
    Starting → Server × Starting
  | .binding =>
    match result with
    | .error cause => (s, .ending (.error cause))
    | .ok ip =>
      ({ s with listening := some ip },
        match tls with
        | some tls => .ending (.error (.noTls tls))
        | none => .serving)
  | p => (s, p)

/-- A signal arrives. It counts once, and only if the server listens for it. -/
def signal (sig : Signal) (s : Server) : Starting → Starting
  | .serving => if sig ∈ s.config.signals then .interrupted .entering else .serving
  | p => p

/-- Serving ends by itself. A shutdown that a signal has begun here is given up. -/
def serveEnds (call : Nat) (outcome : Outcome) (s : Server) : Starting → Server × Starting
  | .serving => (s, .ending outcome)
  | .interrupted p => if p.pauses then (s.release call, .ending outcome) else (s, .interrupted p)
  | p => (s, p)

def expire : Starting → Starting
  | .interrupted p => .interrupted p.expire
  | .stopping outcome p => .stopping outcome p.expire
  | p => p

/-- Whether requests are accepted and answered. -/
def serves : Starting → Bool
  | .serving | .interrupted _ => true
  | _ => false

end Starting

/-! ## Any call -/

/-- A call on a server. -/
inductive Call where
  | start (addr : String) (tls : Option TlsConfig) (stage : Starting)
  | stop (stage : Stopping)
  | shutdown (timeout : Option Duration) (stage : Closing)
  /-- A wait for the end; `released` holds how many lines the hooks had noted at its end. -/
  | wait (released : Option Nat)
  | gone
deriving DecidableEq

namespace Call

/-- The next step that a call does by itself. -/
def advance (call : Nat) (s : Server) : Call → Server × Call
  | .start addr tls p =>
    let (s, p) := p.advance call addr s
    (s, .start addr tls p)
  | .stop p =>
    let (s, p) := p.advance call s
    (s, .stop p)
  | .shutdown timeout p =>
    let (s, p) := p.advance call timeout s
    (s, .shutdown timeout p)
  | .wait none => (s, .wait (if s.phase = .stopped then some s.notes.length else none))
  | c => (s, c)

/-- Changes a start and leaves any other call as it is. -/
def onStart (f : Option TlsConfig → Server → Starting → Server × Starting) (s : Server) :
    Call → Server × Call
  | .start addr tls p =>
    let (s, p) := f tls s p
    (s, .start addr tls p)
  | c => (s, c)

/-- Serving ends if it was asked to and all requests are answered. -/
def drained (call : Nat) (s : Server) (c : Call) : Server × Call :=
  if s.draining ∧ s.inFlight = 0 then
    c.onStart (fun _ s p => p.serveEnds call (.ok ()) s) s
  else (s, c)

/-- The deadline that the call waits for passes. -/
def expire : Call → Call
  | .start addr tls p => .start addr tls p.expire
  | .stop p => .stop p.expire
  | .shutdown timeout p => .shutdown timeout p.expire
  | c => c

/-- Whether the call can be given up here. A start is never given up. -/
def pauses : Call → Bool
  | .stop p => p.pauses
  | .shutdown _ p => p.pauses
  | .wait none => true
  | _ => false

def serves : Call → Bool
  | .start _ _ p => p.serves
  | _ => false

end Call

end Switchboard
