import Switchboard.Text.Hex

set_option autoImplicit false

/-! # Socket addresses

The text form of socket addresses: four decimal octets or up to eight hexadecimal groups in square
brackets, then a colon and a port (`SocketAddress.parse?`).
-/

namespace Switchboard

/-- An internet address. -/
inductive Ip where
  | v4 (a b c d : Nat)
  | v6 (groups : List Nat)
deriving DecidableEq, Repr

/-- An internet address with a port. -/
structure SocketAddress where
  ip : Ip
  port : Nat
  /-- The network interface for which an address of groups is meant, or zero. -/
  scope : Nat := 0
deriving DecidableEq, Repr

namespace SocketAddress

/-- The error when a text is no socket address. -/
def syntaxMessage : String := "invalid socket address syntax"

/-- The value of a digit below a radix of at most sixteen. -/
def digitOf? (radix : Nat) (c : Char) : Option Nat := (Text.hexDigitValue? c).filter (· < radix)

/-- Reads a number below a limit with all digits that follow. Once the limit is reached, further
digits cannot lead below it again, so the value stays there. -/
def number? (radix limit : Nat) (cs : List Char) : Option (Nat × Nat × List Char) :=
  let digits := cs.takeWhile fun c => (digitOf? radix c).isSome
  let n := digits.foldl (fun n c => min limit (n * radix + (digitOf? radix c).getD 0)) 0
  if digits.isEmpty ∨ limit ≤ n then none
  else some (n, digits.length, cs.drop digits.length)

/-- Reads one character. -/
def char? (expected : Char) : List Char → Option (List Char)
  | c :: cs => if c = expected then some cs else none
  | [] => none

/-- Reads an octet in decimal digits, without zeros in front. -/
def octet? (cs : List Char) : Option (Nat × List Char) := do
  let (n, length, rest) ← number? 10 256 cs
  if length ≤ 3 ∧ (cs.head? = some '0' → length = 1) then some (n, rest) else none

/-- Reads four octets. -/
def v4? (cs : List Char) : Option ((Nat × Nat × Nat × Nat) × List Char) := do
  let (a, cs) ← octet? cs
  let (b, cs) ← octet? (← char? '.' cs)
  let (c, cs) ← octet? (← char? '.' cs)
  let (d, cs) ← octet? (← char? '.' cs)
  return ((a, b, c, d), cs)

/-- Reads a group of up to four hexadecimal digits. -/
def group? (cs : List Char) : Option (Nat × List Char) := do
  let (n, length, rest) ← number? 16 65536 cs
  if length ≤ 4 then some (n, rest) else none

/-- Reads at most `count` groups with colons between them. Four octets may stand for the last two
of them; then nothing more is read. -/
def groups (first : Bool) : Nat → List Char → List Nat × Bool × List Char
  | 0, cs => ([], false, cs)
  | count + 1, cs =>
    match if first then some cs else char? ':' cs with
    | none => ([], false, cs)
    | some after =>
      -- four octets stand for two groups, so at least two must be left
      match if count = 0 then none else v4? after with
      | some ((a, b, c, d), rest) => ([a * 256 + b, c * 256 + d], true, rest)
      | none =>
        match group? after with
        | none => ([], false, cs)
        | some (g, rest) =>
          let (gs, octets, rest) := groups false count rest
          (g :: gs, octets, rest)

/-- Reads eight groups; a double colon stands for one or more groups of zero. -/
def v6? (cs : List Char) : Option (List Nat × List Char) :=
  let (head, octets, rest) := groups true 8 cs
  if head.length = 8 then some (head, rest)
  else if octets then none
  else do
    let rest ← char? ':' (← char? ':' rest)
    -- the double colon itself stands for at least one group
    let (tail, _, rest) := groups true (7 - head.length) rest
    return (head ++ List.replicate (8 - head.length - tail.length) 0 ++ tail, rest)

/-- Reads the number of a scope after a percent sign. It is zero if there is none. -/
def readScope (cs : List Char) : Nat × List Char :=
  match (char? '%' cs).bind (number? 10 (Nat.pow 2 32)) with
  | some (n, _, rest) => (n, rest)
  | none => (0, cs)

/-- Reads a colon and a port. -/
def port? (cs : List Char) : Option (Nat × List Char) := do
  let (n, _, rest) ← number? 10 65536 (← char? ':' cs)
  return (n, rest)

/-- Reads a socket address. -/
def parse? (s : String) : Option SocketAddress :=
  let v4 : Option SocketAddress := do
    let ((a, b, c, d), rest) ← v4? s.toList
    let (port, rest) ← port? rest
    if rest.isEmpty then some { ip := .v4 a b c d, port } else none
  let v6 : Option SocketAddress := do
    let (groups, rest) ← v6? (← char? '[' s.toList)
    let (scope, rest) := readScope rest
    let (port, rest) ← port? (← char? ']' rest)
    if rest.isEmpty then some { ip := .v6 groups, port, scope } else none
  v4 <|> v6

end SocketAddress

namespace Ip

/-- A number in small hexadecimal digits. -/
def hex (n : Nat) : String := String.ofList (Nat.toDigits 16 n)

/-- The length of the run of zeros in front. -/
def zeros (groups : List Nat) : Nat := (groups.takeWhile (· = 0)).length

/-- The start and the length of the longest run of zeros, the first of several. -/
def longestZeros : Nat → List Nat → Nat × Nat
  | _, [] => (0, 0)
  | start, g :: gs =>
    let here := zeros (g :: gs)
    let later := longestZeros (start + 1) gs
    if later.2 ≤ here then (start, here) else later

/-- Groups with colons between them. -/
def groupsText (groups : List Nat) : String := ":".intercalate (groups.map hex)

/-- The address as text. Of eight groups, the longest run of at least two zeros is left out. -/
def text : Ip → String
  | .v4 a b c d => s!"{a}.{b}.{c}.{d}"
  | .v6 groups =>
    match groups with
    | [0, 0, 0, 0, 0, 0xFFFF, high, low] =>
      s!"::ffff:{high / 256}.{high % 256}.{low / 256}.{low % 256}"
    | _ =>
      let (start, length) := longestZeros 0 groups
      if length < 2 then groupsText groups
      else groupsText (groups.take start) ++ "::" ++ groupsText (groups.drop (start + length))

end Ip

end Switchboard
