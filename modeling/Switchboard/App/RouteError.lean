import Switchboard.Http.Status
import Switchboard.Routing.Router

set_option autoImplicit false

/-! # Refused registrations -/

namespace Switchboard

/-- Why a route or a group is refused. -/
inductive RouteError where
  | emptyPath
  | notRooted (path : String)
  | noMethods
  | malformed (path : String) (cause : PatternError)
  | tooManyMiddlewares (count : Nat) (max : UInt64)
  /-- The router of the host refuses the route. -/
  | refused (cause : AddError)
  /-- A kind of handler is mapped to a text that is no method. -/
  | invalidMethod (method kind : String)
  | notRedirection (status : Status)
  /-- A route for static files has a parameter or a wildcard. -/
  | parameterized
  | emptyBase
  | baseNotRooted (base : String)
deriving DecidableEq, Repr

def RouteError.message : RouteError → String
  | .emptyPath => "the route path must not be empty"
  | .notRooted path => s!"path '{path}' must start with '/'"
  | .noMethods => "the route requires methods"
  | .malformed path cause => cause.message path
  | .tooManyMiddlewares count max =>
    s!"the number of middlewares '{count}' has exceeded the maximum '{max}'"
  | .refused cause => cause.message
  | .invalidMethod method kind => s!"invalid method '{method}' mapped for '{kind}'"
  | .notRedirection status => s!"invalid redirect status code {status.text}"
  | .parameterized => "URL parameters cannot be used when serving a static file"
  | .emptyBase => "the prefix must not be empty"
  | .baseNotRooted base => s!"prefix '{base}' must start with '/'"

end Switchboard
