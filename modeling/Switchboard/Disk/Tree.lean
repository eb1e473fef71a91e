import Switchboard.Disk.Basic
import Switchboard.Table

set_option autoImplicit false

/-! # Directory trees

A concrete state of the disk: a tree of directories and files, with `DiskTree.toDisk` to look
places up in it.
-/

namespace Switchboard

open Text (Bytes)

/-- A file, or a directory with named entries. -/
inductive DiskTree where
  | file (content : Bytes)
  | directory (entries : List (String × DiskTree))

namespace DiskTree

/-- The entries of a directory; a file has none. -/
def entries : DiskTree → List (String × DiskTree)
  | .file _ => []
  | .directory entries => entries

def isDirectory : DiskTree → Bool
  | .file _ => false
  | .directory _ => true

/-- Puts `leaf` where the names lead and makes the directories on the way. A directory put on top of
a directory changes nothing. -/
def insertBelow (leaf : DiskTree) : (names : List String) → DiskTree → DiskTree
  | [], t => if leaf.isDirectory && t.isDirectory then t else leaf
  | name :: rest, t =>
    let child := (Table.value? t.entries name).getD (.directory [])
    .directory (Table.put t.entries name (insertBelow leaf rest child))

/-- Puts `leaf` at a place and makes the directories on the way. -/
def insert (leaf : DiskTree) (path : DiskPath) (t : DiskTree) : DiskTree :=
  insertBelow leaf path.direct t

/-- The longest name that a directory can hold, in bytes. -/
def maxNameBytes : Nat := 255

/-- The longest path that can be looked up, in bytes. -/
def maxPathBytes : Nat := 4095

/-- Follows a path. The first tree is where the walk stands, `above` the directories around it,
innermost first; around the top directory nothing is known. -/
def follow (above : List DiskTree) (t : DiskTree) : DiskPath → Except DiskError DiskTree
  | [] => .ok t
  | step :: rest =>
    match t with
    | .file _ => .error .notADirectory
    | .directory entries =>
      if DiskPath.stays step then follow above t rest
      else if step = ".." then
        match above with
        -- what surrounds the top directory counts as empty
        | [] => follow [] (.directory []) rest
        | outer :: above => follow above outer rest
      else if step.utf8ByteSize > maxNameBytes then .error .nameTooLong
      else
        match Table.value? entries step with
        | some child => follow (t :: above) child rest
        | none => .error .notFound

/-- Looks a place up from the top. -/
def lookUp (t : DiskTree) (path : DiskPath) : Except DiskError DiskTree :=
  if path.any (·.toList.contains '\x00') then .error .nulInName
  else if ("/".intercalate path).utf8ByteSize > maxPathBytes then .error .nameTooLong
  else follow [] t path

/-- The disk whose top directory is the tree. -/
def toDisk (t : DiskTree) : Disk where
  entry path := (t.lookUp path).map fun
    | .file content => .file content
    | .directory _ => .directory
  children path := do
    match ← t.lookUp path with
    | .file _ => throw .notADirectory
    | .directory entries => return entries.map fun e => (e.1, e.2.isDirectory)

end DiskTree

end Switchboard
