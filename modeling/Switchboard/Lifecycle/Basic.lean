import Switchboard.Config.Basic
import Switchboard.Net.Listen

set_option autoImplicit false

/-! # The life of a server

A server is created, runs, shuts down and is stopped, in this order (`Phase`). The state that all
calls on it share is a `Server`: the phase, the request to drain, whether serving has ended, the
hooks to run at shutdown, and two cells that let one call at a time shut down and run the hooks.
-/

namespace Switchboard

/-- The phases of a server's life. -/
inductive Phase where
  | created
  | running
  | shuttingDown
  | stopped
deriving DecidableEq, Repr

namespace Phase

def text : Phase → String
  | created => "Created"
  | running => "Running"
  | shuttingDown => "ShuttingDown"
  | stopped => "Stopped"

/-- The place of a phase in their order. -/
def rank : Phase → Nat
  | created => 0
  | running => 1
  | shuttingDown => 2
  | stopped => 3

end Phase

/-- A span of time, in milliseconds. -/
structure Duration where
  millis : Nat
deriving DecidableEq, Repr

namespace Duration

def ofSecs (n : UInt64) : Duration := ⟨n.toNat * 1000⟩

/-- The span in seconds with the digits after the point that it needs, in milliseconds if it is
below a second, and `0ns` for no time at all. -/
def text (d : Duration) : String :=
  let rest := d.millis % 1000
  if d.millis = 0 then "0ns"
  else if d.millis < 1000 then s!"{d.millis}ms"
  else if rest = 0 then s!"{d.millis / 1000}s"
  else
    let digits := (Nat.toDigits 10 (1000 + rest)).drop 1
    s!"{d.millis / 1000}." ++
      String.ofList (digits.reverse.dropWhile (· = '0')).reverse ++ "s"

end Duration

/-- How long a shutdown by signal or by `stop` waits for open requests. -/
def ServerConfig.shutdownTimeout (c : ServerConfig) : Option Duration :=
  c.shutdownTimeoutSecs.map .ofSecs

/-- Why a call on a server fails. -/
inductive ServerError where
  | otherAddress (only given : String)
  | alreadyStarted
  | notStarted
  | deadlineMissed (timeout : Duration)
  | badAddress (cause : AddressError)
  | cannotListen (cause : ListenError)
  /-- Encrypted serving is not part of this build. -/
  | noTls (tls : TlsConfig)
  | listenerFailed (message : String)
deriving DecidableEq, Repr

def ServerError.message : ServerError → String
  | .otherAddress only given => s!"the runner address is set to '{only}', not '{given}'"
  | .alreadyStarted => "the runner has already been started"
  | .notStarted => "the server has not been started"
  | .deadlineMissed timeout => s!"the server did not shut down within {timeout.text}"
  | .badAddress cause => cause.message
  | .cannotListen cause => cause.message
  | .noTls tls =>
    s!"cannot serve TLS with '{tls.certFile}' and '{tls.keyFile}': " ++
      "built without the \x60tls\x60 feature"
  | .listenerFailed message => message

/-- A function to be called at shutdown. -/
structure Hook where
  /-- The lines that it notes when it is called in a phase. -/
  note : Phase → List String
  /-- The phase in which it was registered. -/
  registeredIn : Phase

/-- A cell that is filled once. The call that is about to fill it holds it. -/
inductive Cell where
  | empty
  | held (call : Nat)
  | full
deriving DecidableEq, Repr

/-- The cell after a call has been given up. -/
def Cell.release (call : Nat) : Cell → Cell
  | .held c => if c = call then .empty else .held c
  | c => c

/-- What all calls on a server share. -/
structure Server where
  config : ServerConfig := {}
  phase : Phase := .created
  /-- Serving is asked to end when the requests in flight are answered. -/
  draining : Bool := false
  /-- Serving has ended or could not begin. -/
  served : Bool := false
  /-- Filled when a `stop` has finished. -/
  shut : Cell := .empty
  /-- Filled when the hooks have run. -/
  finished : Cell := .empty
  /-- The hooks, in order of registration. -/
  hooks : List Hook := []
  /-- The hooks that have run, by their place in that order, with the phase in which they ran. -/
  ran : List (Nat × Phase) := []
  /-- What the hooks have noted. -/
  notes : List String := []
  /-- The address that the listener is bound to. -/
  listening : Option Ip := none
  /-- Requests that are not answered yet. -/
  inFlight : Nat := 0

namespace Server

variable (s : Server)

/-- Registers a hook. -/
def register (note : Phase → List String) : Server :=
  { s with hooks := s.hooks ++ [⟨note, s.phase⟩] }

/-- Calls the hook at a place, unless it has run. -/
def runHook (i : Nat) : Server :=
  match s.hooks[i]? with
  | none => s
  | some hook =>
    if s.ran.any (·.1 = i) then s
    else { s with ran := s.ran ++ [(i, s.phase)], notes := s.notes ++ hook.note s.phase }

/-- Gives back the cells that a call holds. -/
def release (call : Nat) : Server :=
  { s with shut := s.shut.release call, finished := s.finished.release call }

end Server

end Switchboard
