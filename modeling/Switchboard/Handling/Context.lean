import Switchboard.Handling.Failure
import Switchboard.Http.Query
import Switchboard.Routing.Router
import Switchboard.Text.Casing
import Switchboard.Text.Quoted

set_option autoImplicit false

/-! # Request contexts

What a handler receives: the request and the parameters that the router bound for it.
-/

namespace Switchboard

/-- A request with what the router bound for it. -/
structure Context where
  request : Request
  params : Params := []
deriving DecidableEq, Repr

namespace Context

variable (ctx : Context)

/-- The raw path of the request. -/
def path : String := ctx.request.uri.path

/-- The first value of a request header, if it can be shown as text. -/
def header? (name : String) : Option String := ctx.request.headers.visible? name

/-- The requested host in small letters, with the port: the authority of the target if it has one,
else the `Host` header. -/
def host? : Option String :=
  (ctx.request.uri.authority <|> ctx.header? "host").map Text.lowercase

/-- The value that a parameter, or the wildcard under `*`, was bound to. -/
def param? (name : String) : Option String := Table.value? ctx.params name

/-- The value that the wildcard was bound to, empty if there was none. -/
def wildcard : String := (ctx.param? Pattern.wildcardName).getD ""

/-- The value of the first query field of that name. -/
def query? (name : String) : Option String :=
  ctx.request.uri.query.bind fun q => Query.value? q name

/-- A one-line summary. -/
def summary : String :=
  let params := ctx.params.map fun p => Text.quoted p.1 ++ ": " ++ Text.quoted p.2
  s!"Context \x7b method: {ctx.request.method.name}, uri: {ctx.request.uri.text}, params: \x7b" ++
    ", ".intercalate params ++ "\x7d \x7d"

end Context

end Switchboard
