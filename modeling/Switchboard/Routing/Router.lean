import Switchboard.Http.Method
import Switchboard.Routing.Tree

set_option autoImplicit false

/-! # Routers

A router holds one route tree per method and resolves pairs of a method and a path. Whether a
pattern fits beside the others, and which pattern a path finds, depend on the set of patterns and
not on the order in which they were added.
-/

namespace Switchboard

/-- What parameters and wildcard of a matched pattern bind, in ascending order of the names. -/
abbrev Params := Table String String

/-- Why a router refuses a pattern. -/
inductive AddError where
  | malformed (path : String) (cause : PatternError)
  | conflict (method : Method) (pattern : Pattern) (cause : Conflict)
deriving DecidableEq, Repr

def AddError.message : AddError → String
  | .malformed path cause => cause.message path
  | .conflict method pattern cause =>
    s!"route {method.name} {pattern.text} conflicts: {cause.message}"

/-- The answer of a router. -/
inductive Match (H : Type) where
  /-- The value of the matched pattern and what it binds. -/
  | found (value : H) (params : Params)
  /-- The path matches for these other methods only, in ascending order of their names. -/
  | methodNotAllowed (allowed : List Method)
  | notFound
deriving DecidableEq, Repr

/-- The routes of one host. -/
structure Router (H : Type) where
  trees : Table Method (Tree H) := []
  /-- The number of patterns added, over all methods. -/
  size : Nat := 0

namespace Router

variable {H : Type}

/-- The router without routes. -/
def empty : Router H := {}

def isEmpty (r : Router H) : Bool := r.size = 0

/-- A one-line summary. -/
def summary (r : Router H) : String := s!"Router \x7b routes: {r.size} \x7d"

/-- Adds a pattern for a method. The router is returned as the walk through the tree leaves it,
also when the pattern is refused. -/
def add (r : Router H) (method : Method) (path : String) (value : H) :
    Router H × Except AddError Unit :=
  match Pattern.parse path with
  | .error cause => (r, .error (.malformed path cause))
  | .ok pattern =>
    let tree := (Table.value? r.trees method).getD Tree.empty
    let (tree, outcome) := tree.insert value pattern
    let trees := Table.put r.trees method tree
    match outcome with
    -- a walk that meets a conflict has passed existing nodes only
    | .error cause => ({ r with trees }, .error (.conflict method pattern cause))
    | .ok () => ({ trees, size := r.size + 1 }, .ok ())

/-- The other methods for which the path matches, in ascending order of their names. -/
def allowedMethods (r : Router H) (method : Method) (path : String) : List Method :=
  Method.sortByName <| (r.trees.filter fun entry =>
    entry.1 ≠ method && (entry.2.find? path (segments path)).isSome).map (·.1)

/-- Resolves a path for a method. -/
def find (r : Router H) (method : Method) (path : String) : Match H :=
  match (Table.value? r.trees method).bind (·.find? path (segments path)) with
  | some (value, bindings) => .found value (Table.sorted bindings)
  | none =>
    match r.allowedMethods method path with
    | [] => .notFound
    | allowed => .methodNotAllowed allowed

end Router

end Switchboard
