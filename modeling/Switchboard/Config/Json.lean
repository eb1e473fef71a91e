import Switchboard.Config.Basic
import Switchboard.Disk.Basic
import Switchboard.Json.Record
import Switchboard.Json.Writer

set_option autoImplicit false

/-! # Configurations in JSON

Configurations are read from JSON texts (`AppConfig.ofJson`, `ServerConfig.ofJson`) and written as
such (`AppConfig.toJson`, `ServerConfig.toJson`). Members with other names are passed over, and
missing members have their defaults.
-/

namespace Switchboard

open Json (Reader Value)

/-- Why there is no configuration. -/
inductive ConfigError where
  | malformed (cause : Json.Error)
  | unreadable (cause : DiskError)

def ConfigError.message : ConfigError → String
  | .malformed cause => "invalid configuration: " ++ cause.message
  | .unreadable cause => cause.message

namespace AppConfig

/-- Reads the settings of an application. -/
def reader : Reader AppConfig :=
  Reader.record "struct Config" true
    [ Reader.field "middleware_max" (Reader.word "usize") fun n c => { c with middlewareMax := n },
      Reader.field "method_mapping" (Reader.dictionary (Reader.text "a string"))
        fun m c => { c with methodMapping := m } ]
    {}

/-- The settings that a JSON text holds. -/
def ofJson (s : String) : Except ConfigError AppConfig :=
  (reader.document s).mapError .malformed

/-- The settings that a file holds. -/
def ofFile (disk : Disk) (path : DiskPath) : Except ConfigError AppConfig := do
  ofJson (← (disk.readText path).mapError .unreadable)

/-- The settings as a JSON value. -/
def toJson (c : AppConfig) : Value :=
  .object
    [ ("middleware_max", .natural c.middlewareMax),
      ("method_mapping", .object (c.methodMapping.entries.map fun e => (e.1, .text e.2))) ]

end AppConfig

namespace TlsConfig

/-- What has been read of the places of certificate and key. -/
structure Draft where
  certFile : Option String := none
  keyFile : Option String := none

/-- The places, if both have been read. -/
def Draft.complete (d : Draft) : Except Json.Error TlsConfig :=
  match d.certFile, d.keyFile with
  | none, _ => .error (.missingField "cert_file")
  | some _, none => .error (.missingField "key_file")
  | some certFile, some keyFile => .ok { certFile, keyFile }

/-- Reads the places of certificate and key. -/
def reader : Reader TlsConfig :=
  (Reader.record "struct TlsConfig" false
    [ Reader.field "cert_file" (Reader.text "path string") fun s d => { d with certFile := some s },
      Reader.field "key_file" (Reader.text "path string") fun s d => { d with keyFile := some s } ]
    ({} : Draft)).convert Draft.complete

/-- The places as a JSON value. -/
def toJson (c : TlsConfig) : Value :=
  .object [("cert_file", .text c.certFile), ("key_file", .text c.keyFile)]

end TlsConfig

namespace ServerConfig

/-- Reads the settings of a server. -/
def reader : Reader ServerConfig :=
  Reader.record "struct RunnerConfig" true
    [ Reader.field "name" (Reader.text "a string") fun s c => { c with name := s },
      Reader.field "addr" (Reader.text "a string").optional fun s c => { c with addr := s },
      Reader.field "signals" (Reader.variant (Signal.all.map fun s => (s.name, s))).list
        fun l c => { c with signals := l },
      Reader.field "tls" TlsConfig.reader.optional fun t c => { c with tls := t },
      Reader.field "shutdown_timeout_secs" (Reader.word "u64").optional
        fun n c => { c with shutdownTimeoutSecs := n } ]
    {}

/-- The settings that a JSON text holds. -/
def ofJson (s : String) : Except ConfigError ServerConfig :=
  (reader.document s).mapError .malformed

/-- The settings as a JSON value. -/
def toJson (c : ServerConfig) : Value :=
  .object
    [ ("name", .text c.name),
      ("addr", (c.addr.map .text).getD .null),
      ("signals", .list (c.signals.map fun s => .text s.name)),
      ("tls", (c.tls.map TlsConfig.toJson).getD .null),
      ("shutdown_timeout_secs", (c.shutdownTimeoutSecs.map .natural).getD .null) ]

end ServerConfig

end Switchboard
