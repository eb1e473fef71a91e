import Switchboard.Handling.Middleware

set_option autoImplicit false

/-! # Handlers and middlewares in stock

Small handlers that answer with a part of the request, and small middlewares that trace, refuse,
recover or change a request.
-/

namespace Switchboard

open Text (utf8)

/-! ## Handlers -/

namespace Handler

/-- Always gives this reply. -/
def const (reply : Reply) : Handler := fun _ => .done reply

/-- Answers with plain text. -/
def text (status : Status) (body : String) : Handler := const (.ok (.text status body))

/-- Answers without fields and body. -/
def empty (status : Status) : Handler := const (.ok (.empty status))

/-- Fails. -/
def fail (f : Failure) : Handler := const (.error f)

/-- Redirects to a fixed location. -/
def redirect (status : Status) (location : String) : Handler :=
  const (Reply.redirect status location)

/-- Hands every request over to the not-found handler. -/
def handOver : Handler := fun ctx => .handOver ctx .done

/-- The not-found handler of an application that names none. -/
def missing : Handler := fail .notFound

/-- Notes the text in the trace and answers with it. -/
def traced (status : Status) (body : String) : Handler :=
  fun ctx => .note body (text status body ctx)

/-- Answers with a value of the request: `some:` and the value, or `none`. -/
def reveal (status : Status) (value? : Context → Option String) : Handler :=
  fun ctx => text status (((value? ctx).map ("some:" ++ ·)).getD "none") ctx

/-- Answers with the body of the request. -/
def body (status : Status) : Handler :=
  fun ctx => .done (.ok { status, body := ctx.request.body })

/-- Answers with the method, the path and the parameters of the request, after a greeting. -/
def echo (status : Status) (greeting : String) : Handler :=
  fun ctx =>
    let params := ctx.params.map fun p => s!"\n{p.1}={p.2}"
    text status
      (s!"{greeting}{ctx.request.method.name} {ctx.path}" ++ String.join params) ctx

end Handler

/-! ## Middlewares -/

namespace Middleware

/-- Notes the way in, and the status or the failure on the way out. -/
def tag (name : String) : Middleware where
  wrap next ctx := .note (name ++ ">") do
    let reply ← next ctx
    match reply with
    | .ok response => .note s!"{name}<{response.status.code}" (pure reply)
    | .error f => .note s!"{name}!{f.text}" (pure reply)

/-- A tag that also notes each time it is put around a handler. -/
def announcedTag (name : String) : Middleware := { tag name with wrapNotes := ["wrap " ++ name] }

/-- Notes the method, the path and the parameters on the way in. -/
def see (name : String) : Middleware where
  wrap next ctx :=
    let params := ctx.params.map fun p => s!"{p.1}={p.2}"
    .note (s!"{name}:{ctx.request.method.name} {ctx.path} [" ++ ",".intercalate params ++ "]")
      (next ctx)

/-- Replaces every handler by another one. -/
def replaceBy (h : Handler) : Middleware where
  wrap _ := h

/-- Turns a failure into its response. -/
def recover : Middleware where
  wrap next ctx := do
    match ← next ctx with
    | .ok response => return .ok response
    | .error f => return .ok f.toResponse

/-- Changes the request before the handler sees it, or fails. -/
def change (edit : Request → Except Failure Request) : Middleware where
  wrap next ctx :=
    match edit ctx.request with
    | .ok request => next { ctx with request }
    | .error f => .done (.error f)

/-- Sets a header of the request, in place of all fields of that name. -/
def setHeader (name value : String) : Middleware :=
  change fun request =>
    match Headers.name? name with
    | none => .error .invalidHeaderName
    | some name =>
      if Headers.isValue value then
        .ok { request with headers := request.headers.replace name value }
      else .error .invalidHeaderValue

/-- Gives the request another target. -/
def retarget (uri : Uri) : Middleware := change fun request => .ok { request with uri }

/-- Gives the request another method. -/
def setMethod (method : Method) : Middleware := change fun request => .ok { request with method }

end Middleware

end Switchboard
