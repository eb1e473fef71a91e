import Switchboard.App.Basic

set_option autoImplicit false

/-! # Dispatchers

A dispatcher is an application frozen for serving: the single way in for requests. It selects a
router by the host of the request, lets the router find a handler, and turns failures into
responses.
-/

namespace Switchboard

/-- The host without a port at its end. A port is a colon and digits, at least one. -/
def withoutPort? (host : String) : Option String :=
  -- what follows the last colon, read backwards
  let digits := host.toList.reverse.takeWhile (· ≠ ':')
  match host.toList.reverse.drop digits.length with
  | [] => none
  | _ :: name =>
    if !digits.isEmpty && digits.all Char.isDigit then some (String.ofList name.reverse) else none

namespace App

/-- The router for a host: the one of that name, else the one without the port, else the one of
no host in particular. -/
def selectRouter? (routers : Routers) (host : Option String) : Option (Router Handler) :=
  (host.bind fun host =>
    Table.value? routers host <|> (withoutPort? host).bind (Table.value? routers)) <|>
      Table.value? routers ""

/-- The response for a path that is known for other methods only. -/
def notAllowed (allowed : List Method) : Response :=
  { status := .methodNotAllowed, headers := [("allow", ", ".intercalate (allowed.map (·.name)))] }

/-- What the routers find for a request. -/
def resolve (routers : Routers) (ctx : Context) : Match Handler :=
  match selectRouter? routers ctx.host? with
  | some router => router.find ctx.request.method ctx.path
  | none => .notFound

/-- Finds the handler for a request and calls it. -/
def routing (routers : Routers) : Handler := fun ctx =>
  match resolve routers ctx with
  | .found handler params => handler { ctx with params }
  | .methodNotAllowed allowed => .done (.ok (notAllowed allowed))
  | .notFound => Handler.handOver ctx

end App

/-- An application frozen for serving. -/
structure Dispatcher where
  handler : Handler
  notFound : Handler
  routes : List RouteInfo
  /-- The lines noted when the dispatcher was made. -/
  notes : List String

namespace Dispatcher

variable (d : Dispatcher)

/-- A one-line summary. -/
def summary : String := s!"Dispatcher \x7b routes: {d.routes.length} \x7d"

/-- The reply to a request, with the lines noted on the way. There is none if the not-found
handler hands over to itself more than `depth` times in a row. -/
def reply? (disk : Disk) (depth : Nat) (request : Request) : Option (Reply × List String) :=
  (d.handler { request }).run disk (d.notFound.answerWithin disk depth)

/-- The response to a request, with the lines noted on the way. -/
def dispatch? (disk : Disk) (depth : Nat) (request : Request) : Option (Response × List String) :=
  (d.reply? disk depth request).map fun r =>
    (match r.1 with
      | .ok response => response
      | .error f => f.toResponse, r.2)

end Dispatcher

/-- Freezes an application. -/
def App.dispatcher (app : App) : Dispatcher where
  handler := (App.routing app.routers).compose app.pre
  notFound := app.notFound
  routes := app.routes
  notes := Middleware.notesOf app.pre

end Switchboard
