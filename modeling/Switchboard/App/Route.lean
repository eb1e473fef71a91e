import Switchboard.App.Basic
import Switchboard.App.HeaderCheck
import Switchboard.Static.Serve

set_option autoImplicit false

/-! # Routes

A `Route` describes what is to be registered under one path: host, name, middlewares and header
checks. It is a plain value: changing it registers nothing, and registering it
(`Route.handle` and the calls built on it) takes what it holds at that moment.
-/

namespace Switchboard

/-- What is to be registered under a path. -/
structure Route where
  path : String
  host : String := ""
  name : String := ""
  middlewares : List Middleware := []
  checks : List HeaderCheck := []

/-- Handlers by kind, such as `Create` and `Get`, for one type of resource. -/
structure Resource where
  type : String
  handlers : List (String × Handler)

namespace Route

/-- A route for `path` below `base`. -/
def below (base path : String) (middlewares : List Middleware) : Except RouteError Route :=
  if path.isEmpty then .error .emptyPath
  else if path.toList.head? ≠ some '/' then .error (.notRooted path)
  else .ok { path := Text.trimSlashes base ++ path, middlewares }

variable (r : Route)

/-- Drops all middlewares so far. -/
def withoutMiddlewares : Route := { r with middlewares := [] }

/-- Adds middlewares inside those so far. -/
def addMiddlewares (ms : List Middleware) : Route := { r with middlewares := r.middlewares ++ ms }

def named (name : String) : Route := { r with name }

/-- Restricts the route to a host. -/
def onHost (host : String) : Route := { r with host := Text.lowercase host }

/-- Adds a header check after those so far. -/
def requireHeader (key : String) (values : List String) : Route :=
  { r with checks := r.checks ++ [⟨Text.lowercase key, values⟩] }

/-- The middlewares around a handler: those of the route, and inside them the header check if
there is any. -/
def chain : List Middleware :=
  if r.checks.isEmpty then r.middlewares else r.middlewares ++ [HeaderCheck.middleware r.checks]

/-- What holds of the middlewares of a route and of its header check holds of the whole chain. -/
theorem forall_mem_chain {r : Route} {P : Middleware → Prop} (hms : ∀ m ∈ r.middlewares, P m)
    (hcheck : P (HeaderCheck.middleware r.checks)) : ∀ m ∈ r.chain, P m := by
  rw [chain]
  split
  · exact hms
  · rw [List.forall_mem_append, List.forall_mem_singleton]
    exact ⟨hms, hcheck⟩

/-- Registers a handler under a name and a path for some methods, as one batch. -/
def registerAs (name path : String) (handler : Handler) (methods : List Method) :
    Registering Unit := do
  if methods.isEmpty then throw .noMethods
  if let .error cause := Pattern.parse path then throw (.malformed path cause)
  let max := (← get).config.middlewareMax
  if max.toNat < r.chain.length then throw (.tooManyMiddlewares r.chain.length max)
  -- the chain is put around the handler before the router can refuse the route
  modify (·.noteAll (Middleware.notesOf r.chain))
  let handler := handler.compose r.chain
  App.register (methods.map fun method => { name, host := r.host, path, method, handler })

/-- Registers a handler for some methods. -/
def handle (handler : Handler) (methods : List Method) : Registering Unit :=
  r.registerAs r.name r.path handler methods

/-- Registers a handler for all standard methods. -/
def any (handler : Handler) : Registering Unit := r.handle handler Method.standard

/-- Registers a handler for each method of a table. -/
def map : List (Method × Handler) → Registering Unit
  | [] => pure ()
  | (method, handler) :: rest => do
    r.handle handler [method]
    map rest

/-- Registers one handler of a resource, if its kind has a method. -/
def registerKind (type kind : String) (handler : Handler) : Registering Unit := do
  match (← get).config.methodMapping.value? kind with
  | none => pure ()
  | some method =>
    match Method.ofName? method with
    | none => throw (.invalidMethod method kind)
    | some method =>
      -- below the root the type follows its slash directly
      let base := if r.path = "/" then "" else r.path
      let kind := Text.lowercase kind
      r.registerAs (type ++ "_" ++ kind) (base ++ "/" ++ type ++ "/" ++ kind) handler [method]

/-- Registers the handlers of a resource, each below the path under its type and its kind. -/
def mapResource (resource : Resource) : Registering Unit :=
  resource.handlers.forM fun (kind, handler) =>
    r.registerKind (Text.lowercase resource.type) kind handler

/-- Registers a redirection. -/
def redirect (status : Status) (location : String) (method : Method := .get) :
    Registering Unit := do
  if !status.isRedirection then throw (.notRedirection status)
  r.handle (.redirect status location) [method]

/-- Fails for a path that has a parameter or a wildcard. -/
def requireStatic : Registering Unit := do
  if r.path.toList.contains ':' || r.path.toList.contains '*' then throw .parameterized

/-- Serves one file: `GET` answers with it, `HEAD` with its length and digest. -/
def staticFile (file : DiskPath) : Registering Unit := do
  r.requireStatic
  r.registerAs "" r.path (Static.serveFile file) [.get]
  r.registerAs "" r.path (Static.describeFile file) [.head]

/-- The path with a wildcard below it. -/
def treePath : String := if r.path = "/" then "/*" else Text.trimSlashes r.path ++ "/*"

/-- Serves a file system below the path. -/
def staticFiles (fs : FileSystem) : Registering Unit := do
  r.requireStatic
  r.registerAs "" r.treePath (Static.serveTree fs) [.head, .get]

/-- Serves a directory below the path; what directories hold is never listed. -/
def staticDirectory (root : DiskPath) : Registering Unit :=
  r.staticFiles (FileSystem.directory root).onlyFiles

end Route

namespace App

/-- A route for a path, with the middlewares of the application. -/
def route (app : App) (path : String) : Except RouteError Route :=
  Route.below "" path app.middlewares

/-- Registers routes that are already made, each with the middlewares of the application. -/
def addRoutes : List RouteInfo → Registering Unit
  | [] => pure ()
  | info :: rest => do
    let route ← (← get).route info.path
    ((route.named info.name).onHost info.host).handle info.handler [info.method]
    addRoutes rest

end App

end Switchboard
