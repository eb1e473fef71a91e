import Switchboard.Net.Address
import Switchboard.Text.Pieces

set_option autoImplicit false

/-! # Addresses to listen on

A text gives an address to listen on if it is a socket address, or if it names a host before its
last colon and a port behind it (`SocketAddress.resolve`). A host may be named by one to four
numbers in several radices or by groups without brackets. Names cannot be looked up, except for the
one of the host itself.

Not every address can be listened on. The host has no network interface that is up, so there is no
address of groups that is its own (`SocketAddress.refusal?`).
-/

namespace Switchboard

/-- Why a text gives no address to listen on. -/
inductive AddressError where
  | noPort
  | invalidPort
  /-- The part before the port has a NUL character. -/
  | nulInHost
  /-- The part before the port cannot be the name of a host. -/
  | invalidHost
  /-- The part before the port is a name that would have to be looked up. -/
  | unknownHost
deriving DecidableEq, Repr

def AddressError.message : AddressError → String
  | .noPort => "invalid socket address"
  | .invalidPort => "invalid port value"
  | .nulInHost => "file name contained an unexpected NUL byte"
  | .invalidHost => "failed to lookup address information: Name or service not known"
  | .unknownHost =>
    "failed to lookup address information: Temporary failure in name resolution"

/-- Why the system does not let a server listen on an address. -/
inductive ListenError where
  | permissionDenied
  | noSuchDevice
  | invalidArgument
  | notAvailable
deriving DecidableEq, Repr

def ListenError.message : ListenError → String
  | .permissionDenied => "Permission denied (os error 13)"
  | .noSuchDevice => "No such device (os error 19)"
  | .invalidArgument => "Invalid argument (os error 22)"
  | .notAvailable => "Cannot assign requested address (os error 99)"

namespace SocketAddress

/-! ## Hosts and ports -/

/-- Reads a port in decimal digits, perhaps after a plus sign. -/
def portValue? (cs : List Char) : Option Nat := do
  let (n, _, rest) ← number? 10 65536 (if cs.head? = some '+' then cs.drop 1 else cs)
  if rest.isEmpty then some n else none

/-- Reads a number of a host, of at most four bytes: hexadecimal after `0x`, octal after a zero,
decimal otherwise. -/
def hostNumber? (cs : List Char) : Option Nat := do
  let (n, _, rest) ←
    match cs with
    | '0' :: 'x' :: cs | '0' :: 'X' :: cs => number? 16 (Nat.pow 2 32) cs
    | '0' :: _ => number? 8 (Nat.pow 2 32) cs
    | _ => number? 10 (Nat.pow 2 32) cs
  if rest.isEmpty then some n else none

/-- The number in `room` bytes that has the given numbers as its first bytes, but for the last of
them, which takes all bytes that are left. -/
def packed? : (room : Nat) → List Nat → Option Nat
  | room + 1, [n] => if n < Nat.pow 256 (room + 1) then some n else none
  | room + 1, n :: ns => if n < 256 then (packed? room ns).map (n * Nat.pow 256 room + ·) else none
  | _, _ => none

/-- The address that a host names by one to four numbers with dots between them. -/
def hostOctets? (host : List Char) : Option Ip := do
  let n ← packed? 4 (← (Text.splitOn '.' host).mapM hostNumber?)
  return .v4 (n / Nat.pow 256 3) (n / Nat.pow 256 2 % 256) (n / 256 % 256) (n % 256)

/-- The address and the scope that a host names by groups. -/
def hostGroups? (host : List Char) : Option (Ip × Nat) := do
  let (groups, rest) ← v6? host
  let (scope, rest) := readScope rest
  if rest.isEmpty then some (.v6 groups, scope) else none

/-- Whether the text can be the name of a host: labels of at most 63 letters, digits, hyphens and
low lines with dots between them, together at most 253 characters, and no hyphen in front. A dot
may follow. -/
def isHostName (host : List Char) : Bool :=
  let host := if host.getLast? = some '.' then host.dropLast else host
  let isLabel (label : List Char) : Bool :=
    0 < label.length && label.length ≤ 63 &&
      label.all fun c => c.isAlphanum || c = '-' || c = '_'
  host.length ≤ 253 && host.head? ≠ some '-' && (Text.splitOn '.' host).all isLabel

/-- The address that a host with a port gives. -/
def ofHost (host : List Char) (port : Nat) : Except AddressError SocketAddress :=
  if '\x00' ∈ host then .error .nulInHost
  else
    match hostOctets? host, hostGroups? host with
    | some ip, _ => .ok { ip, port }
    | none, some (ip, scope) => .ok { ip, port, scope }
    | none, none =>
      if host.map Char.toLower = "localhost".toList then .ok { ip := .v4 127 0 0 1, port }
      else if isHostName host then .error .unknownHost
      else .error .invalidHost

/-- The address to listen on that a text gives. -/
def resolve (s : String) : Except AddressError SocketAddress :=
  match parse? s with
  | some address => .ok address
  | none =>
    let port := (s.toList.reverse.takeWhile (· ≠ ':')).reverse
    if port.length = s.length then .error .noPort
    else
      match portValue? port with
      | none => .error .invalidPort
      | some n => ofHost (s.toList.take (s.length - port.length - 1)) n

/-! ## Listening -/

variable (address : SocketAddress)

/-- Whether only the system may listen on the port. Zero stands for any free port. -/
def isReserved : Bool := 0 < address.port && address.port < 1024

/-- The network interface that leads back to the host itself. -/
def loopback : Nat := 1

/-- Why the address cannot be listened on. Of the groups, only those that stand for any address and
those that hold four octets can be: all others would have to belong to an interface that is up. -/
def refusal? : Option ListenError :=
  let reserved := if address.isReserved then some ListenError.permissionDenied else none
  match address.ip with
  | .v4 _ _ _ _ => reserved
  | .v6 groups =>
    let first := groups.headD 0
    let front := groups.take 6
    -- addresses for many receivers begin with the byte `ff`
    if first / 0x100 = 0xFF then some .invalidArgument
    else if reserved.isSome then reserved
    else if groups.all (· = 0) ∨ front = [0, 0, 0, 0, 0, 0xFFFF] then none
    -- addresses within one network begin with the ten bits of `fe80` and need an interface
    else if first / 0x40 = 0xFE80 / 0x40 ∧ address.scope ≠ loopback then
      some (if address.scope = 0 then .invalidArgument else .noSuchDevice)
    else some .notAvailable

end SocketAddress

end Switchboard
