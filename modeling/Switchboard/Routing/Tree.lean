import Switchboard.Routing.Pattern
import Switchboard.Table

set_option autoImplicit false

/-! # Route trees

The patterns of one method form a tree with one level per part. `Tree.insert` walks down a
pattern, makes the nodes that are missing, and fills the slot at its end unless the walk finds a
conflict. `Tree.find?` walks down a path: at each level it tries the fixed text, then the
parameter, then the wildcard, and goes back to the next candidate when a branch fails.
-/

namespace Switchboard

/-- A node of a route tree, with values of type `H` in its slots. -/
structure Tree (H : Type) where
  /-- The children reached by fixed text. -/
  fixed : List (String × Tree H) := []
  /-- The child reached by a parameter, with the name of the parameter. -/
  param : Option (String × Tree H) := none
  /-- The value of the pattern that ends in a wildcard here. -/
  wildcard : Option H := none
  /-- The value of the pattern that ends here. -/
  here : Option H := none

/-- Why a pattern cannot stand beside the patterns of a tree. -/
inductive Conflict where
  /-- A parameter of another name stands at this position. -/
  | renamed (name existing : String)
  | wildcardTaken
  | routeTaken
deriving DecidableEq, Repr

def Conflict.message : Conflict → String
  | .renamed name existing =>
    s!"parameter ':{name}' is already registered as ':{existing}' at this position"
  | .wildcardTaken => "a wildcard is already registered here"
  | .routeTaken => "the route is already registered"

namespace Tree

variable {H : Type}

/-- The tree without any pattern. -/
def empty : Tree H := {}

/-- Walks down a pattern and fills the slot at its end. The tree is returned as the walk leaves
it, also when the walk ends in a conflict. -/
def insert (value : H) : Pattern → Tree H → Tree H × Except Conflict Unit
  | [], t =>
    if t.here.isSome then (t, .error .routeTaken) else ({ t with here := some value }, .ok ())
  | .wildcard :: _, t =>
    if t.wildcard.isSome then (t, .error .wildcardTaken)
    else ({ t with wildcard := some value }, .ok ())
  | .fixed text :: rest, t =>
    let r := insert value rest ((Table.value? t.fixed text).getD empty)
    ({ t with fixed := Table.put t.fixed text r.1 }, r.2)
  | .param name :: rest, t =>
    match t.param with
    | some (existing, child) =>
      if existing ≠ name then (t, .error (.renamed name existing))
      else
        let r := insert value rest child
        ({ t with param := some (existing, r.1) }, r.2)
    | none =>
      let r := insert value rest empty
      ({ t with param := some (name, r.1) }, r.2)

/-- The best match for the segments of `path` that remain, with what its parameters and its
wildcard bind, in order. -/
def find? (path : String) : List Segment → Tree H → Option (H × List (String × String))
  | [], t =>
    -- a pattern that ends here is better than a wildcard that takes nothing
    match t.here with
    | some h => some (h, [])
    | none => t.wildcard.map fun h => (h, [(Pattern.wildcardName, "")])
  | s :: rest, t =>
    let viaFixed := match Table.value? t.fixed s.text with
      | some child => find? path rest child
      | none => none
    let viaParam := match t.param with
      | some (name, child) =>
        (find? path rest child).map fun r => (r.1, (name, Text.Percent.decode s.text) :: r.2)
      | none => none
    let viaWildcard := t.wildcard.map fun h =>
      (h, [(Pattern.wildcardName, Text.Percent.decode (textFrom path s.offset))])
    -- a branch that fails gives way to the next candidate
    viaFixed <|> viaParam <|> viaWildcard

end Tree

end Switchboard
