import Switchboard.App.RouteError
import Switchboard.Config.Basic
import Switchboard.Handling.Stock

set_option autoImplicit false

/-! # Applications

An application collects routes, one router per host. `App.register` adds a batch of routes: what
the filter skips is left out, the modifier adjusts the rest, and the batch is added as a whole or
not at all.
-/

namespace Switchboard

/-- One registered combination of host, path and method. -/
structure RouteInfo where
  name : String
  host : String
  path : String
  method : Method
  handler : Handler

/-- A change to routes, applied to each before it is added. -/
structure RouteModifier where
  apply : RouteInfo → RouteInfo
  /-- The lines noted each time it is applied. -/
  notes : List String := []

/-- The routers of the hosts. The routes of no host in particular are under the empty name. -/
abbrev Routers := Table String (Router Handler)

/-- An application during registration. -/
structure App where
  config : AppConfig := {}
  /-- The middlewares around routing itself. -/
  pre : List Middleware := []
  /-- The middlewares that routes and groups created from now on start with. -/
  middlewares : List Middleware := []
  routers : Routers := []
  /-- The routes so far, in order of registration. -/
  routes : List RouteInfo := []
  /-- The handler for requests that match no route. -/
  notFound : Handler := .missing
  /-- Routes of which this is true are skipped. -/
  filter : Option (RouteInfo → Bool) := none
  modifier : Option RouteModifier := none
  /-- The lines noted so far by middlewares that were put around handlers. -/
  journal : List String := []

/-- A step of registration. It may fail, and what it has done before it fails stays. -/
abbrev Registering := ExceptT RouteError (StateM App)

namespace App

variable (app : App)

/-- Adds middlewares around routing. -/
def addPre (ms : List Middleware) : App := { app with pre := app.pre ++ ms }

/-- Adds middlewares for the routes and groups created from now on. -/
def addMiddlewares (ms : List Middleware) : App := { app with middlewares := app.middlewares ++ ms }

/-- Notes lines in the journal. -/
def noteAll (lines : List String) : App := { app with journal := app.journal ++ lines }

/-- Whether the filter skips a route. -/
def skips (info : RouteInfo) : Bool := app.filter.any (· info)

/-- A route as the modifier leaves it. -/
def adjusted (info : RouteInfo) : RouteInfo := (app.modifier.map (·.apply info)).getD info

/-- The routes of a batch that are to be added. -/
def accepted (batch : List RouteInfo) : List RouteInfo :=
  (batch.filter (!app.skips ·)).map app.adjusted

/-- The router of a host, empty if it has no routes yet. -/
def routerOf (routers : Routers) (host : String) : Router Handler :=
  (Table.value? routers host).getD .empty

/-- Adds routes one after another, each to the router of its host, up to the first refusal. -/
def addAll (routers : Routers) : List RouteInfo → Except AddError Routers
  | [] => .ok routers
  | info :: rest =>
    let host := Text.lowercase info.host
    match (routerOf routers host).add info.method info.path info.handler with
    | (_, .error cause) => .error cause
    | (router, .ok ()) => addAll (Table.put routers host router) rest

/-- Adds a batch of routes as a whole or not at all. -/
def register (batch : List RouteInfo) : Registering Unit := do
  let app ← get
  let routes := app.accepted batch
  -- the modifier has seen every route before one of them can be refused
  set (app.noteAll (routes.flatMap fun _ => (app.modifier.map (·.notes)).getD []))
  match addAll app.routers routes with
  | .error cause => throw (.refused cause)
  | .ok routers => modify fun app => { app with routers, routes := app.routes ++ routes }

end App

end Switchboard
