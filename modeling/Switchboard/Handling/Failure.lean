import Switchboard.Http.Message

set_option autoImplicit false

/-! # Failures of requests

A handler that cannot answer fails with a status or with an internal error. Either becomes a
response when it reaches the dispatcher, and concerns its own request only.
-/

namespace Switchboard

/-- What a handler fails with. -/
inductive Failure where
  | status (status : Status) (message : String)
  | internal (message : String)
deriving DecidableEq, Repr

/-- What a handler answers. -/
abbrev Reply := Except Failure Response

namespace Failure

/-- The failure of a cause that is not known. -/
def unspecified : Failure := .internal "internal server error"

def badRequest (message : String) : Failure := .status .badRequest message

def notFound : Failure := .status .notFound ""

/-- A field value that holds a control character. -/
def invalidHeaderValue : Failure := .internal "failed to parse header value"

/-- A field name that is no token. -/
def invalidHeaderName : Failure := .internal "invalid HTTP header name"

/-- The status of the response that the failure becomes. -/
def code : Failure → Status
  | .status s _ => s
  | .internal _ => .internalServerError

def message : Failure → String
  | .status _ message => message
  | .internal message => message

/-- The failure in one line, as logs show it. -/
def text : Failure → String
  | .status s message => s.text ++ ": " ++ message
  | .internal message => "Error: " ++ message

/-- The response that the failure becomes: its message as plain text. -/
def toResponse (f : Failure) : Response :=
  if f.message.isEmpty then .empty f.code else .text f.code f.message

end Failure

/-- A response with a field added, if the value may stand in a field. -/
def Response.withField (r : Response) (name value : String) : Reply :=
  if Headers.isValue value then .ok { r with headers := r.headers ++ [(name, value)] }
  else .error .invalidHeaderValue

/-- A redirection to `location`. The status must be from 300 to 399. -/
def Reply.redirect (status : Status) (location : String) : Reply :=
  if status.isRedirection then (Response.empty status).withField "location" location
  else .error (.internal s!"invalid redirect status code {status.text}")

end Switchboard
