import Switchboard.App.Route

set_option autoImplicit false

/-! # Groups

A group gives its routes a common path to start with and common middlewares.
-/

namespace Switchboard

/-- Routes below a common path. -/
structure Group where
  /-- The common path, without a slash at its end. -/
  base : String
  middlewares : List Middleware

namespace Group

/-- A group for `base` below `outer`. -/
def below (outer base : String) (middlewares : List Middleware) : Except RouteError Group :=
  let base := Text.trimSlashes base
  if base.isEmpty then .error .emptyBase
  else if base.toList.head? ≠ some '/' then .error (.baseNotRooted base)
  else .ok { base := outer ++ base, middlewares }

variable (g : Group)

/-- Adds middlewares for the routes and groups created from now on. -/
def addMiddlewares (ms : List Middleware) : Group := { g with middlewares := g.middlewares ++ ms }

/-- A group inside, with the middlewares of this one before its own. -/
def group (base : String) (ms : List Middleware) : Except RouteError Group :=
  below g.base base (g.middlewares ++ ms)

/-- A group inside, with its own middlewares only. -/
def groupAlone (base : String) (ms : List Middleware) : Except RouteError Group :=
  below g.base base ms

/-- A route inside. -/
def route (path : String) : Except RouteError Route := Route.below g.base path g.middlewares

end Group

/-- A group with the middlewares of the application. -/
def App.group (app : App) (base : String) : Except RouteError Group :=
  Group.below "" base app.middlewares

end Switchboard
