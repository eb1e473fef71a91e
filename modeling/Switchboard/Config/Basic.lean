import Switchboard.Table

set_option autoImplicit false

/-! # Configurations

The settings of an application (`AppConfig`) and of a server (`ServerConfig`). Every setting has a
default.
-/

namespace Switchboard

/-- The settings of an application. -/
structure AppConfig where
  /-- The most middlewares around one handler, a header check included. -/
  middlewareMax : UInt64 := 256
  /-- The request method for each kind of handler of a resource table. -/
  methodMapping : Dictionary String :=
    .ofList [("Create", "POST"), ("Delete", "DELETE"), ("Update", "PUT"), ("Get", "GET")]
deriving DecidableEq

/-- Signals that can end a server. -/
inductive Signal where
  | interrupt
  | terminate
  | quit
  | abort
  | hangup
deriving DecidableEq, Repr

namespace Signal

/-- All signals, in the order in which messages list them. -/
def all : List Signal := [interrupt, terminate, quit, abort, hangup]

def name : Signal → String
  | interrupt => "interrupt"
  | terminate => "terminate"
  | quit => "quit"
  | abort => "abort"
  | hangup => "hangup"

/-- The signal of that name. -/
def ofName? (s : String) : Option Signal := all.find? (·.name = s)

end Signal

/-- Where the certificate and the key of an encrypted listener are. -/
structure TlsConfig where
  certFile : String
  keyFile : String
deriving DecidableEq, Repr

/-- The settings of a server. -/
structure ServerConfig where
  name : String := ""
  /-- The only address to listen on; any address if absent. -/
  addr : Option String := none
  /-- The signals that end the server. -/
  signals : List Signal := [.interrupt, .terminate, .quit, .abort]
  tls : Option TlsConfig := none
  /-- How long a shutdown by signal waits for open requests; without limit if absent. -/
  shutdownTimeoutSecs : Option UInt64 := none
deriving DecidableEq, Repr

end Switchboard
