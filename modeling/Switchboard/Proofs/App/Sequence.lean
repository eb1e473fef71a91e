import Switchboard.Proofs.App.Registration

set_option autoImplicit false

/-! # Handlers that are registered one by one

A table of handlers, one for each method, is not one batch: every handler of it is registered on
its own, and the first one that is refused ends the call. What has been registered before it stays
(`App.OneByOne`). The same holds for a file, which has one handler for `GET` and another for `HEAD`
(`Route.oneByOne_map_staticFile`).
-/

namespace Switchboard

namespace App

variable {app between after : App} {batch batch' : List RouteInfo}

/-! ## What a batch adds -/

/-- The application has taken in a batch of routes: its routers have accepted those that the filter
lets through, as the modifier leaves them, and they stand at the end of the list. -/
structure Took (app : App) (batch : List RouteInfo) (after : App) : Prop where
  routers : addAll app.routers (app.accepted batch) = .ok after.routers
  routes : after.routes = app.routes ++ app.accepted batch
  filter : after.filter = app.filter
  modifier : after.modifier = app.modifier

theorem Took.refl (app : App) : app.Took [] app := ⟨rfl, (List.append_nil _).symm, rfl, rfl⟩

theorem Took.accepted_eq (h : app.Took batch after) (infos : List RouteInfo) :
    after.accepted infos = app.accepted infos := by
  rw [App.accepted_eq, App.accepted_eq, h.filter, h.modifier]

theorem Took.append (h : app.Took batch between) (h' : between.Took batch' after) :
    app.Took (batch ++ batch') after := by
  have haccepted : app.accepted (batch ++ batch') =
      app.accepted batch ++ between.accepted batch' := by
    rw [h.accepted_eq, accepted, List.filter_append, List.map_append, accepted, accepted]
  refine ⟨?_, ?_, h'.filter.trans h.filter, h'.modifier.trans h.modifier⟩
  · rw [haccepted, addAll_append]
    exact ⟨between.routers, h.routers, h'.routers⟩
  · rw [haccepted, h'.routes, h.routes, List.append_assoc]

/-- A batch leaves routers and routes as they are only if the filter skips all of it. -/
theorem Took.unchanged_iff (h : app.Took batch after) :
    (after.routers = app.routers ∧ after.routes = app.routes) ↔
      ∀ info ∈ batch, app.skips info := by
  have hempty : app.accepted batch = [] ↔ ∀ info ∈ batch, app.skips info := by
    simp [accepted]
  rw [← hempty]
  constructor
  · rintro ⟨-, hroutes⟩
    rw [h.routes] at hroutes
    exact List.append_right_eq_self.1 hroutes
  · intro hnone
    have hrouters := h.routers
    rw [hnone] at hrouters
    refine ⟨(Except.ok.inj hrouters).symm, ?_⟩
    rw [h.routes, hnone, List.append_nil]

end App

namespace Route

variable (r : Route) {app after : App}

theorem took_of_registerAs {name path : String} {handler : Handler} {methods : List Method}
    (h : app.perform (r.registerAs name path handler methods) = (.ok (), after)) :
    app.Took (r.infos name path handler methods) after := by
  rw [perform_registerAs] at h
  split at h
  · cases h
  · split at h
    · cases h
    · split at h
      · cases h
      · rw [App.perform_register] at h
        split at h
        · cases h
        · next routers hadd =>
          cases h
          exact ⟨hadd, rfl, rfl, rfl⟩

/-! ## Tables of handlers -/

/-- The routes that a table of handlers asks for. -/
def tableInfos (handlers : List (Method × Handler)) : List RouteInfo :=
  handlers.flatMap fun entry => r.infos r.name r.path entry.2 [entry.1]

theorem perform_map_cons (app : App) (method : Method) (handler : Handler)
    (rest : List (Method × Handler)) :
    app.perform (r.map ((method, handler) :: rest)) =
      match app.perform (r.handle handler [method]) with
      | (.error e, after) => (.error e, after)
      | (.ok _, after) => after.perform (r.map rest) := by
  rw [map, App.perform_bind]
  rcases app.perform (r.handle handler [method]) with ⟨e | _, after⟩ <;> rfl

theorem perform_map_singleton (app : App) (method : Method) (handler : Handler) :
    app.perform (r.map [(method, handler)]) = app.perform (r.handle handler [method]) := by
  rw [perform_map_cons]
  rcases app.perform (r.handle handler [method]) with ⟨e | _, after⟩ <;> rfl

/-- A table that is accepted is taken in as a whole. -/
theorem took_of_map {handlers : List (Method × Handler)}
    (h : app.perform (r.map handlers) = (.ok (), after)) :
    app.Took (r.tableInfos handlers) after := by
  induction handlers generalizing app with
  | nil =>
      cases h
      exact .refl _
  | cons entry rest ih =>
      rw [perform_map_cons] at h
      rcases hfirst : app.perform (r.handle entry.2 [entry.1]) with ⟨e | _, between⟩
      · rw [hfirst] at h
        cases h
      · rw [hfirst] at h
        exact (r.took_of_registerAs hfirst).append (ih h)

/-- A table is refused when one of its handlers is, after those before it have been accepted. -/
theorem perform_map_eq_error_iff {handlers : List (Method × Handler)} {e : RouteError} :
    app.perform (r.map handlers) = (.error e, after) ↔
      ∃ front method handler back between, handlers = front ++ (method, handler) :: back ∧
        app.perform (r.map front) = (.ok (), between) ∧
        between.perform (r.handle handler [method]) = (.error e, after) := by
  induction handlers generalizing app with
  | nil =>
      constructor
      · intro h
        cases h
      · rintro ⟨front, method, handler, back, between, hsplit, -⟩
        cases front <;> cases hsplit
  | cons entry rest ih =>
      obtain ⟨method, handler⟩ := entry
      rw [perform_map_cons]
      rcases hfirst : app.perform (r.handle handler [method]) with ⟨e' | _, between⟩
      · constructor
        · intro h
          exact ⟨[], method, handler, rest, app, rfl, rfl, hfirst.trans h⟩
        · rintro ⟨front, m, f, back, between', hsplit, hfront, hlast⟩
          cases front with
          | nil =>
              cases hsplit
              cases hfront
              exact hfirst.symm.trans hlast
          | cons entry front =>
              cases hsplit
              rw [perform_map_cons, hfirst] at hfront
              cases hfront
      · dsimp only
        rw [ih]
        constructor
        · rintro ⟨front, m, f, back, between', rfl, hfront, hlast⟩
          refine ⟨(method, handler) :: front, m, f, back, between', rfl, ?_, hlast⟩
          rw [perform_map_cons, hfirst]
          exact hfront
        · rintro ⟨front, m, f, back, between', hsplit, hfront, hlast⟩
          cases front with
          | nil =>
              cases hsplit
              cases hfront
              cases hfirst.symm.trans hlast
          | cons entry front =>
              cases hsplit
              rw [perform_map_cons, hfirst] at hfront
              exact ⟨front, m, f, back, between', rfl, hfront, hlast⟩

end Route

/-- What becomes of an application when a route registers a table of handlers one by one. If all are
accepted, their routes are added. If not, there is a first one that is refused; the routes of those
before it are added and nothing else is. So nothing changes exactly if the filter skips all routes
before the one that is refused. -/
structure App.OneByOne (app : App) (r : Route) (handlers : List (Method × Handler))
    (result : Except RouteError Unit × App) : Prop where
  accepted : result.1 = .ok () → app.Took (r.tableInfos handlers) result.2
  refused : ∀ e, result.1 = .error e → ∃ front method handler back between,
    handlers = front ++ (method, handler) :: back ∧
    app.Took (r.tableInfos front) between ∧
    (between.perform (r.handle handler [method])).1 = .error e ∧
    result.2.routers = between.routers ∧ result.2.routes = between.routes ∧
    ((result.2.routers = app.routers ∧ result.2.routes = app.routes) ↔
      ∀ info ∈ r.tableInfos front, app.skips info)

namespace Route

variable (r : Route) (app : App)

theorem oneByOne_map (handlers : List (Method × Handler)) :
    app.OneByOne r handlers (app.perform (r.map handlers)) := by
  constructor
  · intro h
    exact r.took_of_map (Prod.ext h rfl)
  · intro e h
    obtain ⟨front, method, handler, back, between, hsplit, hfront, hlast⟩ :=
      r.perform_map_eq_error_iff.1 (Prod.ext h rfl : app.perform (r.map handlers) = (.error e, _))
    have htook := r.took_of_map hfront
    have hrefused := (r.allOrNothing_registerAs between r.name r.path handler [method]).refused e
    rw [← handle, hlast] at hrefused
    obtain ⟨hrouters, hroutes⟩ := hrefused rfl
    refine ⟨front, method, handler, back, between, hsplit, htook, congrArg Prod.fst hlast,
      hrouters, hroutes, ?_⟩
    rw [hrouters, hroutes]
    exact htook.unchanged_iff

/-- For a path without parameters and wildcards, serving a file registers a table of two handlers
under no name. -/
theorem perform_staticFile (file : DiskPath) :
    app.perform (r.staticFile file) =
      if r.path.toList.contains ':' || r.path.toList.contains '*' then (.error .parameterized, app)
      else app.perform ((r.named "").map
        [(.get, Static.serveFile file), (.head, Static.describeFile file)]) := by
  rw [staticFile, perform_requireStatic_bind]
  by_cases hpath : r.path.toList.contains ':' || r.path.toList.contains '*'
  · rw [if_pos hpath, if_pos hpath]
  · have hget : (r.named "").handle (Static.serveFile file) [.get] =
        r.registerAs "" r.path (Static.serveFile file) [.get] := rfl
    rw [if_neg hpath, if_neg hpath, perform_map_cons, hget, App.perform_bind]
    rcases app.perform (r.registerAs "" r.path (Static.serveFile file) [.get]) with
      ⟨e | _, after⟩
    · rfl
    · exact ((r.named "").perform_map_singleton after _ _).symm

/-- The handlers of a table and those of a file are registered one by one. -/
theorem oneByOne_map_staticFile :
    (∀ handlers, app.OneByOne r handlers (app.perform (r.map handlers))) ∧
    ∀ file, if r.path.toList.contains ':' || r.path.toList.contains '*' then
        app.perform (r.staticFile file) = (.error .parameterized, app)
      else app.OneByOne (r.named "")
        [(.get, Static.serveFile file), (.head, Static.describeFile file)]
        (app.perform (r.staticFile file)) := by
  refine ⟨fun handlers => r.oneByOne_map app handlers, fun file => ?_⟩
  rw [perform_staticFile]
  by_cases hpath : r.path.toList.contains ':' || r.path.toList.contains '*'
  · rw [if_pos hpath, if_pos hpath]
  · rw [if_neg hpath, if_neg hpath]
    exact (r.named "").oneByOne_map app _

/-- A table with a method that is there twice, and a file where something else has its `HEAD`. Both
calls fail, and what they have registered before stays. -/
theorem partly_registered :
    let handler : Handler := .text .ok "a"
    let r : Route := { path := "/a" }
    let table := ({} : App).perform (r.map [(.get, handler), (.get, handler)])
    let busy := (({} : App).perform (r.handle handler [.head])).2
    let file := busy.perform (r.staticFile ["a"])
    let taken (method : Method) : Except RouteError Unit :=
      .error (.refused (.conflict method [.fixed "a"] .routeTaken))
    (table.1 = taken .get ∧ table.2.routes.map (·.method) = [.get]) ∧
      busy.routes.map (·.method) = [.head] ∧
      file.1 = taken .head ∧ file.2.routes.map (·.method) = [.head, .get] :=
  ⟨⟨rfl, rfl⟩, rfl, rfl, rfl⟩

end Route

end Switchboard
