import Switchboard.App.Route

set_option autoImplicit false

/-! # What registration does to an application

`App.perform` gives the outcome of a step of registration together with the application that it
leaves. The main statement, `register_allOrNothing`, says that a batch of routes is added as a whole
or not at all: by `App.register` itself and by the calls of a route that register one batch.
-/

namespace Switchboard

namespace App

variable {α β : Type} (app : App)

/-- The outcome of a step of registration and the application that it leaves. -/
def perform (act : Registering α) : Except RouteError α × App := act.run.run app

theorem perform_get : app.perform get = (.ok app, app) := rfl

theorem perform_set (app' : App) : app.perform (set app') = (.ok ⟨⟩, app') := rfl

theorem perform_bind (x : Registering α) (f : α → Registering β) :
    app.perform (x >>= f) =
      match app.perform x with
      | (.error e, after) => (.error e, after)
      | (.ok a, after) => after.perform (f a) := by
  show (match x.run.run app with | (a, s) => (ExceptT.bindCont f a) s) = _
  rw [perform]
  rcases x.run.run app with ⟨e | a, s⟩ <;> rfl

/-! ## Batches -/

/-- The application after the modifier has seen the routes of a batch. -/
def noteModified (batch : List RouteInfo) : App :=
  app.noteAll ((app.accepted batch).flatMap fun _ => (app.modifier.map (·.notes)).getD [])

theorem perform_register (batch : List RouteInfo) :
    app.perform (register batch) =
      match addAll app.routers (app.accepted batch) with
      | .error cause => (.error (.refused cause), app.noteModified batch)
      | .ok routers =>
        (.ok (), { app.noteModified batch with
          routers, routes := app.routes ++ app.accepted batch }) := by
  simp only [register, perform_bind, perform_get, perform_set]
  cases addAll app.routers (app.accepted batch) with
  | error cause => rfl
  | ok routers => rfl

/-- Adding routes one after another. -/
theorem addAll_append {routers after : Routers} {infos rest : List RouteInfo} :
    addAll routers (infos ++ rest) = .ok after ↔
      ∃ between, addAll routers infos = .ok between ∧ addAll between rest = .ok after := by
  induction infos generalizing routers with
  | nil => simp [addAll]
  | cons info infos ih =>
      rw [List.cons_append, addAll, addAll]
      rcases (routerOf routers (Text.lowercase info.host)).add info.method info.path
        info.handler with ⟨router, cause | _⟩
      · simp
      · exact ih

/-- Adding routes leaves the routers of all other hosts alone. -/
theorem value?_of_addAll {routers after : Routers} {infos : List RouteInfo} {host : String}
    (h : addAll routers infos = .ok after)
    (hhost : ∀ info ∈ infos, Text.lowercase info.host ≠ host) :
    Table.value? after host = Table.value? routers host := by
  induction infos generalizing routers with
  | nil =>
      cases h
      rfl
  | cons info rest ih =>
      rw [addAll] at h
      rcases hadd : (routerOf routers (Text.lowercase info.host)).add info.method info.path
        info.handler with ⟨router, cause | _⟩
      · rw [hadd] at h
        cases h
      · rw [hadd] at h
        rw [ih h fun i hi => hhost i (List.mem_cons_of_mem _ hi)]
        exact Table.value?_put_of_ne _ _ (hhost info List.mem_cons_self)

/-- The routes of a batch that a filter lets through. -/
def letThrough (filter : Option (RouteInfo → Bool)) (batch : List RouteInfo) : List RouteInfo :=
  match filter with
  | none => batch
  | some skips => batch.filter fun info => !skips info

/-- The routes as a modifier leaves them. -/
def modified (modifier : Option RouteModifier) (infos : List RouteInfo) : List RouteInfo :=
  match modifier with
  | none => infos
  | some m => infos.map m.apply

theorem accepted_eq (batch : List RouteInfo) :
    app.accepted batch = modified app.modifier (letThrough app.filter batch) := by
  have hfilter : batch.filter (!app.skips ·) = letThrough app.filter batch := by
    cases h : app.filter with
    | none => simp [letThrough, skips, h]
    | some f => simp [letThrough, skips, h]
  rw [accepted, hfilter]
  cases h : app.modifier with
  | none =>
      have hid : app.adjusted = id := by
        funext info
        rw [adjusted, h]
        rfl
      rw [hid, List.map_id, modified]
  | some m =>
      have happly : app.adjusted = m.apply := by
        funext info
        rw [adjusted, h]
        rfl
      rw [happly, modified]

theorem noteAll_nil : app.noteAll [] = app := by
  rw [noteAll, List.append_nil]

/-- Without a filter and a modifier a batch is handed to the routers as it is. -/
theorem perform_register_of_none {app : App} (hfilter : app.filter = none)
    (hmodifier : app.modifier = none) (batch : List RouteInfo) :
    app.perform (register batch) =
      match addAll app.routers batch with
      | .error cause => (.error (.refused cause), app)
      | .ok routers => (.ok (), { app with routers, routes := app.routes ++ batch }) := by
  have haccepted : app.accepted batch = batch := by
    rw [accepted_eq, hfilter, hmodifier]
    rfl
  have hnoted : app.noteModified batch = app := by
    have hlines : ((app.accepted batch).flatMap fun _ =>
        (app.modifier.map (·.notes)).getD []) = [] := by
      rw [hmodifier]
      exact List.flatMap_eq_nil_iff.2 fun _ _ => rfl
    rw [noteModified, hlines, noteAll_nil]
  cases hadd : addAll app.routers batch with
  | error cause => rw [perform_register, haccepted, hnoted, hadd]
  | ok routers => rw [perform_register, haccepted, hnoted, hadd]

/-- What a batch of routes does to an application. If it is refused, all routers and the list of
routes are as they were. If it is accepted, the list has those routes at its end that the filter
lets through, as the modifier leaves them, and the router of every host that is not among theirs is
as it was. -/
structure AllOrNothing (batch : List RouteInfo) (result : Except RouteError Unit × App) : Prop where
  refused : ∀ e, result.1 = .error e →
    result.2.routers = app.routers ∧ result.2.routes = app.routes
  added : result.1 = .ok () →
    let infos := modified app.modifier (letThrough app.filter batch)
    result.2.routes = app.routes ++ infos ∧
      ∀ host, (∀ info ∈ infos, Text.lowercase info.host ≠ host) →
        Table.value? result.2.routers host = Table.value? app.routers host

variable {app}

theorem AllOrNothing.of_refused {batch : List RouteInfo} {e : RouteError} {after : App}
    (hrouters : after.routers = app.routers) (hroutes : after.routes = app.routes) :
    app.AllOrNothing batch (.error e, after) :=
  ⟨fun _ _ => ⟨hrouters, hroutes⟩, fun h => nomatch h⟩

variable (app)

theorem allOrNothing_perform_register (batch : List RouteInfo) :
    app.AllOrNothing batch (app.perform (register batch)) := by
  rw [perform_register, accepted_eq]
  cases h : addAll app.routers (modified app.modifier (letThrough app.filter batch)) with
  | error cause => exact .of_refused rfl rfl
  | ok routers =>
      constructor
      · intro e he
        cases he
      · intro _
        exact ⟨rfl, fun host hhost => value?_of_addAll h hhost⟩

end App

/-! ## Calls of a route -/

namespace Route

variable (r : Route) (app : App)

/-- The routes that a registration under a name and a path asks for. -/
def infos (name path : String) (handler : Handler) (methods : List Method) : List RouteInfo :=
  methods.map fun method =>
    { name, host := r.host, path, method, handler := handler.compose r.chain }

/-- A registration is checked in four steps, and only the last one looks at the routers. -/
theorem perform_registerAs (name path : String) (handler : Handler) (methods : List Method) :
    app.perform (r.registerAs name path handler methods) =
      if methods.isEmpty then (.error .noMethods, app)
      else
        match Pattern.parse path with
        | .error cause => (.error (.malformed path cause), app)
        | .ok _ =>
          if app.config.middlewareMax.toNat < r.chain.length then
            (.error (.tooManyMiddlewares r.chain.length app.config.middlewareMax), app)
          else
            (app.noteAll (Middleware.notesOf r.chain)).perform
              (App.register (r.infos name path handler methods)) := by
  rw [registerAs]
  split
  · rfl
  · cases Pattern.parse path with
    | error cause => rfl
    | ok p =>
        simp only [App.perform_bind, App.perform_get]
        split <;> rfl

theorem perform_registerKind (type kind : String) (handler : Handler) :
    app.perform (r.registerKind type kind handler) =
      match app.config.methodMapping.value? kind with
      | none => (.ok (), app)
      | some method =>
        match Method.ofName? method with
        | none => (.error (.invalidMethod method kind), app)
        | some method =>
          app.perform (r.registerAs (type ++ "_" ++ Text.lowercase kind)
            ((if r.path = "/" then "" else r.path) ++ "/" ++ type ++ "/" ++ Text.lowercase kind)
            handler [method]) := by
  rw [registerKind, App.perform_bind, App.perform_get]
  dsimp only
  cases app.config.methodMapping.value? kind with
  | none => rfl
  | some method =>
      dsimp only
      cases Method.ofName? method <;> rfl

/-- What follows is done only if the path has no parameter and no wildcard. -/
theorem perform_requireStatic_bind (act : Registering Unit) :
    app.perform (r.requireStatic >>= fun _ => act) =
      if r.path.toList.contains ':' || r.path.toList.contains '*' then (.error .parameterized, app)
      else app.perform act := by
  rw [requireStatic]
  split <;> rfl

theorem allOrNothing_registerAs (name path : String) (handler : Handler) (methods : List Method) :
    app.AllOrNothing (r.infos name path handler methods)
      (app.perform (r.registerAs name path handler methods)) := by
  rw [perform_registerAs]
  split
  · exact .of_refused rfl rfl
  · split
    · exact .of_refused rfl rfl
    · split
      · exact .of_refused rfl rfl
      · -- the lines noted before change neither what is compared nor the filter and the modifier
        have h := (app.noteAll (Middleware.notesOf r.chain)).allOrNothing_perform_register
          (r.infos name path handler methods)
        exact ⟨h.refused, h.added⟩

theorem allOrNothing_redirect (status : Status) (location : String) (method : Method) :
    app.AllOrNothing (r.infos r.name r.path (.redirect status location) [method])
      (app.perform (r.redirect status location method)) := by
  rw [redirect]
  split
  · exact .of_refused rfl rfl
  · exact r.allOrNothing_registerAs app _ _ _ _

theorem allOrNothing_staticFiles (fs : FileSystem) :
    app.AllOrNothing (r.infos "" r.treePath (Static.serveTree fs) [.head, .get])
      (app.perform (r.staticFiles fs)) := by
  rw [staticFiles, requireStatic]
  split
  · exact .of_refused rfl rfl
  · exact r.allOrNothing_registerAs app _ _ _ _

end Route

/-- A batch is registered as a whole or not at all, whatever the filter and the modifier are,
whether it is handed to `App.register` or comes from a call of a route. -/
theorem App.register_allOrNothing (app : App) :
    (∀ batch, app.AllOrNothing batch (app.perform (register batch))) ∧
    ∀ r : Route,
      (∀ handler methods, app.AllOrNothing (r.infos r.name r.path handler methods)
        (app.perform (r.handle handler methods))) ∧
      (∀ handler, app.AllOrNothing (r.infos r.name r.path handler Method.standard)
        (app.perform (r.any handler))) ∧
      (∀ status location method,
        app.AllOrNothing (r.infos r.name r.path (.redirect status location) [method])
          (app.perform (r.redirect status location method))) ∧
      (∀ fs, app.AllOrNothing (r.infos "" r.treePath (Static.serveTree fs) [.head, .get])
        (app.perform (r.staticFiles fs))) := by
  refine ⟨app.allOrNothing_perform_register, fun r => ⟨?_, ?_, ?_, ?_⟩⟩
  · intro handler methods
    exact r.allOrNothing_registerAs app r.name r.path handler methods
  · intro handler
    exact r.allOrNothing_registerAs app r.name r.path handler Method.standard
  · intro status location method
    exact r.allOrNothing_redirect app status location method
  · intro fs
    exact r.allOrNothing_staticFiles app fs

-- The third route has another name for the parameter of the second one.
example :
    let info (path : String) : RouteInfo :=
      { name := "", host := "", path, method := .get, handler := .missing }
    let after (paths : List String) : App :=
      (({} : App).perform (App.register (paths.map info))).2
    (after ["/a", "/:x"]).routes.length = 2 ∧ (after ["/a", "/:x", "/:y"]).routes.length = 0 ∧
      (after ["/a", "/:x", "/:y"]).routers.length = 0 := by
  decide

end Switchboard
