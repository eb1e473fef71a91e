import Switchboard.App.Group
import Switchboard.Proofs.App.Registration

set_option autoImplicit false

/-! # Programs that build an application

An application is built by calls on itself, on its routes and on its groups, which may be nested.
A call that fails is not the end of the program: what follows is done to the application that the
call leaves. `App.Reached` are the applications that are built in this way.

The routers and the list of routes change at one place only, where a batch is accepted
(`perform_register`). So a property of these two holds for every application that can be built, if
it survives an accepted batch: `App.Stable` and `App.Reached.of_stable`.
-/

namespace Switchboard

/-- The application that a step of registration leaves. -/
def App.after {α : Type} (app : App) (act : Registering α) : App := (app.perform act).2

/-! ## Programs -/

/-- What can be done with a route. -/
inductive RouteStep where
  | named (name : String)
  | onHost (host : String)
  | addMiddlewares (ms : List Middleware)
  | withoutMiddlewares
  | requireHeader (key : String) (values : List String)
  | handle (handler : Handler) (methods : List Method)
  | any (handler : Handler)
  | map (handlers : List (Method × Handler))
  | mapResource (resource : Resource)
  | redirect (status : Status) (location : String) (method : Method)
  | staticFile (file : DiskPath)
  | staticFiles (fs : FileSystem)
  | staticDirectory (root : DiskPath)

/-- The route after a step. Registering leaves it as it is. -/
def Route.change (r : Route) : RouteStep → Route
  | .named name => r.named name
  | .onHost host => r.onHost host
  | .addMiddlewares ms => r.addMiddlewares ms
  | .withoutMiddlewares => r.withoutMiddlewares
  | .requireHeader key values => r.requireHeader key values
  | _ => r

/-- What a step registers. Changing the route registers nothing. -/
def Route.registering (r : Route) : RouteStep → Registering Unit
  | .handle handler methods => r.handle handler methods
  | .any handler => r.any handler
  | .map handlers => r.map handlers
  | .mapResource resource => r.mapResource resource
  | .redirect status location method => r.redirect status location method
  | .staticFile file => r.staticFile file
  | .staticFiles fs => r.staticFiles fs
  | .staticDirectory root => r.staticDirectory root
  | _ => pure ()

/-- The application after some steps with a route. -/
def Route.build (r : Route) (app : App) : List RouteStep → App
  | [] => app
  | step :: rest => (r.change step).build (app.after (r.registering step)) rest

/-- What can be done with a group, one thing after another. -/
inductive GroupProgram where
  | done
  | addMiddlewares (ms : List Middleware) (rest : GroupProgram)
  | route (path : String) (steps : List RouteStep) (rest : GroupProgram)
  | group (base : String) (ms : List Middleware) (inner rest : GroupProgram)
  | groupAlone (base : String) (ms : List Middleware) (inner rest : GroupProgram)

/-- The application after a program for a group. A route or a group that is refused is left out
with all that was to be done with it. -/
def Group.build (g : Group) (app : App) : GroupProgram → App
  | .done => app
  | .addMiddlewares ms rest => (g.addMiddlewares ms).build app rest
  | .route path steps rest =>
    match g.route path with
    | .ok r => g.build (r.build app steps) rest
    | .error _ => g.build app rest
  | .group base ms inner rest =>
    match g.group base ms with
    | .ok g' => g.build (g'.build app inner) rest
    | .error _ => g.build app rest
  | .groupAlone base ms inner rest =>
    match g.groupAlone base ms with
    | .ok g' => g.build (g'.build app inner) rest
    | .error _ => g.build app rest

/-- What can be done with an application. -/
inductive AppStep where
  | addPre (ms : List Middleware)
  | addMiddlewares (ms : List Middleware)
  | setNotFound (handler : Handler)
  | setFilter (filter : RouteInfo → Bool)
  | setModifier (modifier : RouteModifier)
  | route (path : String) (steps : List RouteStep)
  | group (base : String) (program : GroupProgram)
  | addRoutes (infos : List RouteInfo)

namespace App

variable (app : App)

/-- The application after a step. -/
def take : AppStep → App
  | .addPre ms => app.addPre ms
  | .addMiddlewares ms => app.addMiddlewares ms
  | .setNotFound notFound => { app with notFound }
  | .setFilter filter => { app with filter := some filter }
  | .setModifier modifier => { app with modifier := some modifier }
  | .route path steps =>
    match app.route path with
    | .ok r => r.build app steps
    | .error _ => app
  | .group base program =>
    match app.group base with
    | .ok g => g.build app program
    | .error _ => app
  | .addRoutes infos => app.after (addRoutes infos)

/-- The application after some steps. -/
def build (steps : List AppStep) : App := steps.foldl take app

/-- The application can be built from an empty one. -/
def Reached : Prop := ∃ config steps, app = ({ config } : App).build steps

/-! ## Properties that survive all programs -/

/-- A property of the routers and the routes of an application that survives every batch that is
accepted. -/
structure Stable (P : Routers → List RouteInfo → Prop) : Prop where
  empty : P [] []
  added : ∀ {routers after : Routers} {routes infos : List RouteInfo}, P routers routes →
    addAll routers infos = .ok after → P after (routes ++ infos)

/-- A step of registration keeps a property of the routers and the routes. -/
def Keeps {α : Type} (P : Routers → List RouteInfo → Prop) (act : Registering α) : Prop :=
  ∀ app : App, P app.routers app.routes → P (app.after act).routers (app.after act).routes

section Keeps

variable {α β : Type} {P : Routers → List RouteInfo → Prop}

theorem Keeps.pure (a : α) : Keeps P (Pure.pure a : Registering α) := fun _ h => h

theorem Keeps.throw (e : RouteError) : Keeps P (MonadExcept.throw e : Registering α) :=
  fun _ h => h

theorem Keeps.lift (x : Except RouteError α) : Keeps P (liftM x : Registering α) := by
  cases x with
  | error e => exact fun _ h => h
  | ok a => exact fun _ h => h

theorem Keeps.get : Keeps P (MonadState.get : Registering App) := fun _ h => h

theorem Keeps.bind {x : Registering α} {f : α → Registering β} (hx : Keeps P x)
    (hf : ∀ a, Keeps P (f a)) : Keeps P (x >>= f) := by
  intro app h
  have hx := hx app h
  rw [after] at hx ⊢
  rw [perform_bind]
  revert hx
  rcases app.perform x with ⟨e | a, s⟩
  · exact id
  · exact hf a s

theorem Stable.register (hP : Stable P) (batch : List RouteInfo) :
    Keeps P (App.register batch) := by
  intro app h
  rw [after, perform_register]
  cases hadd : addAll app.routers (app.accepted batch) with
  | error cause => exact h
  | ok routers => exact hP.added h hadd

end Keeps

end App

section Stable

open App (Keeps Stable)

variable {P : Routers → List RouteInfo → Prop}

namespace Route

theorem keeps_registerAs (hP : Stable P) (r : Route) (name path : String) (handler : Handler)
    (methods : List Method) : Keeps P (r.registerAs name path handler methods) := by
  intro app h
  rw [App.after, perform_registerAs]
  split
  · exact h
  · split
    · exact h
    · split
      · exact h
      · exact hP.register _ (app.noteAll _) h

theorem keeps_map (hP : Stable P) (r : Route) (handlers : List (Method × Handler)) :
    Keeps P (r.map handlers) := by
  induction handlers with
  | nil => exact .pure ()
  | cons entry rest ih =>
      exact .bind (r.keeps_registerAs hP _ _ _ _) fun _ => ih

theorem keeps_registerKind (hP : Stable P) (r : Route) (type kind : String) (handler : Handler) :
    Keeps P (r.registerKind type kind handler) := by
  refine .bind .get fun app => ?_
  split
  · exact .pure ()
  · split
    · exact .throw _
    · exact r.keeps_registerAs hP _ _ _ _

theorem keeps_mapResource (hP : Stable P) (r : Route) (resource : Resource) :
    Keeps P (r.mapResource resource) := by
  rw [mapResource]
  induction resource.handlers with
  | nil => exact .pure ()
  | cons entry rest ih =>
      exact .bind (r.keeps_registerKind hP _ _ _) fun _ => ih

theorem keeps_redirect (hP : Stable P) (r : Route) (status : Status) (location : String)
    (method : Method) : Keeps P (r.redirect status location method) := by
  rw [redirect]
  split
  · exact .bind (.throw _) fun _ => r.keeps_registerAs hP _ _ _ _
  · exact r.keeps_registerAs hP _ _ _ _

theorem keeps_requireStatic (r : Route) : Keeps P r.requireStatic := by
  rw [requireStatic]
  split
  · exact .throw _
  · exact .pure ()

theorem keeps_registering (hP : Stable P) (r : Route) (step : RouteStep) :
    Keeps P (r.registering step) := by
  cases step with
  | handle handler methods => exact r.keeps_registerAs hP _ _ _ _
  | any handler => exact r.keeps_registerAs hP _ _ _ _
  | map handlers => exact r.keeps_map hP handlers
  | mapResource resource => exact r.keeps_mapResource hP resource
  | redirect status location method => exact r.keeps_redirect hP status location method
  | staticFile file =>
      refine .bind r.keeps_requireStatic fun _ => ?_
      refine .bind (r.keeps_registerAs hP _ _ _ _) fun _ => ?_
      exact r.keeps_registerAs hP _ _ _ _
  | staticFiles fs | staticDirectory root =>
      refine .bind r.keeps_requireStatic fun _ => ?_
      exact r.keeps_registerAs hP _ _ _ _
  | named | onHost | addMiddlewares | withoutMiddlewares | requireHeader => exact .pure ()

theorem build_keeps (hP : Stable P) (r : Route) (app : App) (steps : List RouteStep)
    (h : P app.routers app.routes) :
    P (r.build app steps).routers (r.build app steps).routes := by
  induction steps generalizing r app with
  | nil => exact h
  | cons step rest ih =>
      exact ih _ _ (r.keeps_registering hP step app h)

end Route

theorem Group.build_keeps (hP : Stable P) (g : Group) (app : App) (program : GroupProgram)
    (h : P app.routers app.routes) :
    P (g.build app program).routers (g.build app program).routes := by
  induction program generalizing g app with
  | done => exact h
  | addMiddlewares ms rest ih => exact ih _ _ h
  | route path steps rest ih =>
      rw [build]
      split
      · exact ih _ _ (Route.build_keeps hP _ _ _ h)
      · exact ih _ _ h
  | group base ms inner rest ihInner ih | groupAlone base ms inner rest ihInner ih =>
      rw [build]
      split
      · exact ih _ _ (ihInner _ _ h)
      · exact ih _ _ h

namespace App

theorem keeps_addRoutes (hP : Stable P) (infos : List RouteInfo) : Keeps P (addRoutes infos) := by
  induction infos with
  | nil => exact .pure ()
  | cons info rest ih =>
      refine .bind .get fun app => ?_
      refine .bind (.lift (app.route info.path)) fun r => ?_
      exact .bind (Route.keeps_registerAs hP _ _ _ _ _) fun _ => ih

theorem take_keeps (hP : Stable P) (app : App) (step : AppStep) (h : P app.routers app.routes) :
    P (app.take step).routers (app.take step).routes := by
  cases step with
  | route path steps =>
      rw [take]
      split
      · exact Route.build_keeps hP _ _ _ h
      · exact h
  | group base program =>
      rw [take]
      split
      · exact Group.build_keeps hP _ _ _ h
      · exact h
  | addRoutes infos => exact keeps_addRoutes hP infos app h
  | addPre | addMiddlewares | setNotFound | setFilter | setModifier => exact h

/-- A stable property holds for every application that can be built. -/
theorem Reached.of_stable {app : App} (h : app.Reached) (hP : Stable P) :
    P app.routers app.routes := by
  obtain ⟨config, steps, rfl⟩ := h
  rw [build]
  -- the steps so far have led from the empty application to one of which the property holds
  suffices hall : ∀ app : App, P app.routers app.routes →
      P (steps.foldl take app).routers (steps.foldl take app).routes from hall _ hP.empty
  induction steps with
  | nil => exact fun _ h => h
  | cons step rest ih => exact fun app h => ih _ (take_keeps hP app step h)

end App

end Stable

end Switchboard
