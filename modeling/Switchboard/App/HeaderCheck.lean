import Switchboard.Handling.Middleware

set_option autoImplicit false

/-! # Header checks

A route can require headers. A check without values wants the header to be there and not empty; a
check with values wants one of them, and when it finds it the request is accepted without looking
at the checks after it.
-/

namespace Switchboard

/-- A required header. -/
structure HeaderCheck where
  /-- The name, in small letters. -/
  key : String
  /-- The accepted values; any value if there are none. -/
  values : List String
deriving DecidableEq, Repr

namespace HeaderCheck

def missing (key : String) : Failure := .badRequest s!"missing the header '{key}'"

def mismatch (key value : String) : Failure := .badRequest s!"invalid header '{key}: {value}'"

/-- The value that a check looks at: empty if the header is absent or cannot be shown as text. -/
def value (request : Request) (c : HeaderCheck) : String :=
  (request.headers.visible? c.key).getD ""

/-- Runs checks in order. -/
def run (request : Request) : List HeaderCheck → Except Failure Unit
  | [] => .ok ()
  | c :: rest =>
    let value := c.value request
    if c.values.isEmpty then
      if value.isEmpty then .error (missing c.key) else run request rest
    -- the checks after this one are not asked
    else if value ∈ c.values then .ok ()
    else .error (mismatch c.key value)

/-- Calls the next handler only for requests that pass the checks. -/
def middleware (checks : List HeaderCheck) : Middleware where
  wrap next ctx :=
    match run ctx.request checks with
    | .ok () => next ctx
    | .error f => .done (.error f)

end HeaderCheck

end Switchboard
