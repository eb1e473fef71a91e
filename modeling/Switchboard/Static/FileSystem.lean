import Switchboard.Handling.Action

set_option autoImplicit false

/-! # Served file systems

What a route for static files is served from. `FileSystem.directory` takes its files from a
directory on disk and never leaves it; `FileSystem.onlyFiles` hides what directories hold.
-/

namespace Switchboard

/-- A tree of files as a route sees it. Names are relative, with slashes between the steps. -/
structure FileSystem where
  /-- The place of an entry on disk; an error if there is none. -/
  place : String → Action (Except DiskError DiskPath)
  /-- The names in a directory. Those of directories end in a slash. -/
  names : String → Action (Except DiskError (List String))

namespace FileSystem

/-- The steps of a name without those that stay. -/
def steps (name : String) : List String := (pathPieces name).filter (· ≠ ".")

/-- The place of a name below `root`, unless the name has a step that leaves a directory. -/
def resolve (root : DiskPath) (name : String) : Except DiskError DiskPath :=
  if ".." ∈ pathPieces name then .error (.escapes name) else .ok (root.join (steps name))

/-- Names of directory entries, ascending, with a slash after those of directories. -/
def sortedNames (entries : List (String × Bool)) : List String :=
  (entries.map fun e => if e.2 then e.1 ++ "/" else e.1).mergeSort fun a b => decide (a ≤ b)

/-- The files below a directory on disk. -/
def directory (root : DiskPath) : FileSystem where
  place name :=
    match resolve root name with
    | .error e => .done (.error e)
    | .ok path => .inspect path fun found => .done (found.map fun _ => path)
  names name :=
    match resolve root name with
    | .error e => .done (.error e)
    | .ok path => .list path fun found => .done (found.map sortedNames)

/-- The same files, but every directory looks empty. -/
def onlyFiles (fs : FileSystem) : FileSystem where
  place := fs.place
  names _ := .done (.ok [])

end FileSystem

end Switchboard
