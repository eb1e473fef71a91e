import Switchboard.Routing.Segment

set_option autoImplicit false

/-! # Route patterns

A pattern such as `/users/:id/files/*` is a list of parts: fixed text, a named parameter that
takes one segment, or a wildcard that takes all segments that remain. `Pattern.parse` reads a
pattern and `Pattern.text` writes it.
-/

namespace Switchboard

/-- One part of a pattern. -/
inductive Part where
  | fixed (text : String)
  | param (name : String)
  | wildcard
deriving DecidableEq, Repr

/-- A route pattern. -/
abbrev Pattern := List Part

/-- Why a text is no pattern. -/
inductive PatternError where
  | notRooted
  /-- Two slashes next to each other, the first at this byte offset. -/
  | doubledSlash (offset : Nat)
  | afterWildcard
  | unnamedParameter
  | repeatedParameter (name : String)
  | namedWildcard
deriving DecidableEq, Repr

/-- The text of an error about the pattern `path`. -/
def PatternError.message (path : String) : PatternError → String
  | .notRooted => s!"path '{path}' must start with '/'"
  | .doubledSlash offset => s!"bad path '{path}' contains duplicate // at index:{offset}"
  | .afterWildcard => s!"path '{path}': no segment may follow a wildcard"
  | .unnamedParameter => s!"path '{path}': parameters must be named"
  | .repeatedParameter name => s!"path '{path}': parameter '{name}' is declared twice"
  | .namedWildcard => s!"path '{path}': wildcards may not be named"

namespace Pattern

/-- The name under which a wildcard binds what it takes. -/
def wildcardName : String := "*"

/-- The byte offset of the first two adjacent slashes, for text that starts at `offset`. -/
def doubledSlash? (offset : Nat) : List Char → Option Nat
  | '/' :: '/' :: _ => some offset
  | c :: cs => doubledSlash? (offset + c.utf8Size) cs
  | [] => none

/-- The parts that the pieces stand for, where the parameters in `seen` are already declared. -/
def ofPieces (seen : List String) : List (List Char) → Except PatternError Pattern
  | [] => .ok []
  | (':' :: name) :: rest =>
    let name := String.ofList name
    if name = "" then .error .unnamedParameter
    else if name ∈ seen then .error (.repeatedParameter name)
    else (ofPieces (name :: seen) rest).map (.param name :: ·)
  | ('*' :: name) :: rest =>
    if name ≠ [] then .error .namedWildcard
    -- whatever follows, even a malformed piece, is refused as such
    else if rest ≠ [] then .error .afterWildcard
    else .ok [.wildcard]
  | text :: rest => (ofPieces seen rest).map (.fixed (String.ofList text) :: ·)

/-- Reads a pattern. One slash at the end is allowed and means nothing. -/
def parse (path : String) : Except PatternError Pattern :=
  let cs := path.toList
  if cs.head? ≠ some '/' then .error .notRooted
  else
    match doubledSlash? 0 cs with
    | some offset => .error (.doubledSlash offset)
    | none => ofPieces [] ((Text.splitOn '/' cs).filter (!·.isEmpty))

/-- A part as it is written, with the slash before it. -/
def partText : Part → String
  | .fixed text => "/" ++ text
  | .param name => "/:" ++ name
  | .wildcard => "/" ++ wildcardName

/-- The pattern as it is written. -/
def text (p : Pattern) : String := if p.isEmpty then "/" else String.join (p.map partText)

/-- The names of the parameters, in order. -/
def paramNames (p : Pattern) : List String :=
  p.filterMap fun
    | .param name => some name
    | _ => none

end Pattern

end Switchboard
