import Switchboard.Disk.Basic
import Switchboard.Handling.Context

set_option autoImplicit false

/-! # Actions

The work of a handler, as a tree of requests to the world around it: note a line in the trace,
look at a place on disk, list a directory, or hand a request over to the not-found handler. An
action decides nothing about how these are answered; `Action.run` does, for one state of the disk
and one way to answer handed-over requests. That way may have no answer (`none`), which is how a
not-found handler that hands over to itself without end shows.
-/

namespace Switchboard

/-- A computation that yields a value of type `α` after some requests to the world. -/
inductive Action (α : Type) : Type where
  | done (value : α)
  /-- Notes a line in the trace. -/
  | note (line : String) (next : Action α)
  /-- Asks what stands at a place on disk. -/
  | inspect (path : DiskPath) (next : Except DiskError DiskEntry → Action α)
  /-- Asks what a directory holds. -/
  | list (path : DiskPath) (next : Except DiskError (List (String × Bool)) → Action α)
  /-- Hands a request over to the not-found handler. -/
  | handOver (ctx : Context) (next : Reply → Action α)

/-- Handlers answer a request in its context. -/
abbrev Handler := Context → Action Reply

namespace Action

variable {α β : Type}

/-- Continues an action with what it yields. -/
def bind : Action α → (α → Action β) → Action β
  | .done value, f => f value
  | .note line next, f => .note line (next.bind f)
  | .inspect path next, f => .inspect path fun r => (next r).bind f
  | .list path next, f => .list path fun r => (next r).bind f
  | .handOver ctx next, f => .handOver ctx fun r => (next r).bind f

instance : Monad Action where
  pure := .done
  bind := bind

/-- What an action yields, with the lines that it notes. Requests that are handed over are
answered by `answer`. -/
def run (disk : Disk) (answer : Context → Option (Reply × List String)) :
    Action α → Option (α × List String)
  | .done value => some (value, [])
  | .note line next => (next.run disk answer).map fun r => (r.1, line :: r.2)
  | .inspect path next => (next (disk.entry path)).run disk answer
  | .list path next => (next (disk.children path)).run disk answer
  | .handOver ctx next => do
    let (reply, lines) ← answer ctx
    let (value, more) ← (next reply).run disk answer
    return (value, lines ++ more)

end Action

/-- Answers a handed-over request with the not-found handler, which may hand over again: `depth`
bounds how often. -/
def Handler.answerWithin (notFound : Handler) (disk : Disk) :
    Nat → Context → Option (Reply × List String)
  | 0, _ => none
  | depth + 1, ctx => (notFound ctx).run disk (Handler.answerWithin notFound disk depth)

end Switchboard
