import Switchboard.Text.Pieces
import Switchboard.Text.Utf8

set_option autoImplicit false

/-! # The disk as the library sees it

A place on disk is a list of steps from a fixed top directory. A `Disk` answers two questions
about a place: what is there, and, for a directory, what it holds. Nothing else about the file
system can influence a response.
-/

namespace Switchboard

open Text (Bytes)

/-- A place on disk: the steps to follow from the top directory. A step is a name, or `..` to leave
a directory; the step `.` and the empty step stay in a directory, and fail on a file. -/
abbrev DiskPath := List String

namespace DiskPath

/-- Whether a step stays in the directory. -/
def stays (step : String) : Bool := step.isEmpty || step = "."

/-- The place that a path text names, with a step for each piece between slashes. A slash at the
end leaves an empty step, and so asks for a directory. -/
def ofText (s : String) : DiskPath := (Text.splitOn '/' s.toList).map String.ofList

/-- The place that names lead to from a directory. An empty last step gives way to them, as a slash
at the end of a path text does. -/
def join (p : DiskPath) : (names : List String) → DiskPath
  | [] => p
  | names => (if p.getLast? = some "" then p.dropLast else p) ++ names

/-- The place that one more step leads to, if names alone led here. From the top no step leaves. -/
def enter (p : DiskPath) (step : String) : DiskPath :=
  if stays step then p else if step = ".." then p.dropLast else p ++ [step]

/-- The same place by names alone. -/
def direct (p : DiskPath) : DiskPath := p.foldl enter []

/-- The place as a path text, without the steps at either end that stay. -/
def text (p : DiskPath) : String :=
  "/".intercalate ((p.dropWhile stays).reverse.dropWhile stays).reverse

end DiskPath

/-- Why a question about the disk has no answer. -/
inductive DiskError where
  | notFound
  | notADirectory
  | isADirectory
  | nameTooLong
  | nulInName
  | notUtf8
  /-- The name asks for something outside the served directory. -/
  | escapes (name : String)
  /-- An error that a file system of the application's own reports. -/
  | other (message : String)
deriving DecidableEq, Repr

def DiskError.message : DiskError → String
  | .notFound => "No such file or directory (os error 2)"
  | .notADirectory => "Not a directory (os error 20)"
  | .isADirectory => "Is a directory (os error 21)"
  | .nameTooLong => "File name too long (os error 36)"
  | .nulInName => "file name contained an unexpected NUL byte"
  | .notUtf8 => "stream did not contain valid UTF-8"
  | .escapes name => s!"'{name}' escapes the served directory"
  | .other message => message

/-- What stands at a place. -/
inductive DiskEntry where
  | file (content : Bytes)
  | directory
deriving DecidableEq, Repr

/-- A state of the disk. -/
structure Disk where
  /-- What stands at a place. -/
  entry : DiskPath → Except DiskError DiskEntry
  /-- The names in a directory, in any order, each with whether it names a directory. -/
  children : DiskPath → Except DiskError (List (String × Bool))

/-- The content of a file, which must be text. -/
def Disk.readText (disk : Disk) (path : DiskPath) : Except DiskError String := do
  match ← disk.entry path with
  | .directory => throw .isADirectory
  | .file content =>
    match Text.decode? content with
    | some s => return s
    | none => throw .notUtf8

end Switchboard
