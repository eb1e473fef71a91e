import Switchboard.Text.Percent
import Switchboard.Text.Pieces

set_option autoImplicit false

/-! # Segments of a request path

A path is read as the list of its non-empty pieces between slashes; slashes in front, at the end
and next to each other do not matter. Each segment remembers the byte offset at which it starts,
so that the raw text from a segment on can be cut out again (`textFrom`).
-/

namespace Switchboard

open Text (splitOn byteLength dropBytes? trimEnd)

/-- A non-empty piece of a path between slashes. -/
structure Segment where
  /-- The byte offset of the first character in the path. -/
  offset : Nat
  text : String
deriving DecidableEq, Repr

namespace Segment

/-- The segments among pieces of which the first starts at `offset`. -/
def ofPieces (offset : Nat) : List (List Char) → List Segment
  | [] => []
  | p :: ps =>
    -- the one more byte is the slash after the piece
    let rest := ofPieces (offset + byteLength p + 1) ps
    if p.isEmpty then rest else ⟨offset, String.ofList p⟩ :: rest

end Segment

/-- The non-empty pieces of a path. -/
def pathPieces (path : String) : List String :=
  ((splitOn '/' path.toList).filter (!·.isEmpty)).map String.ofList

/-- The segments of a path. -/
def segments (path : String) : List Segment := Segment.ofPieces 0 (splitOn '/' path.toList)

/-- The raw text from a byte offset to the end, without the slashes at its end. The offset of a
segment always lies on a character boundary. -/
def textFrom (path : String) (offset : Nat) : String :=
  String.ofList (trimEnd '/' ((dropBytes? offset path.toList).getD []))

end Switchboard
