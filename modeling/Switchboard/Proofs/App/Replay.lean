import Switchboard.Proofs.App.Acceptance
import Switchboard.Proofs.Routing.Slashes
import Switchboard.Proofs.Text.Casing

set_option autoImplicit false

/-! # Replaying the list of routes

The routes that an application lists, with the handlers as they were registered, can be added to
another application that has none: one by one, without groups, filter or modifier. No two of them
clash, so they are all accepted, and the copy lists the same routes with their hosts in small
letters, which changes nothing. So both applications route every request alike
(`App.Reached.replay`).
-/

namespace Switchboard

/-- A route with its host in small letters. -/
def RouteInfo.lowered (info : RouteInfo) : RouteInfo :=
  { info with host := Text.lowercase info.host }

section Lowered

variable {info a b : RouteInfo} {routes : List RouteInfo}

@[simp] theorem RouteInfo.lowercase_lowered_host :
    Text.lowercase info.lowered.host = Text.lowercase info.host :=
  Text.lowercase_lowercase info.host

theorem RouteInfo.parsed?_lowered : info.lowered.parsed? = info.parsed? := rfl

theorem RouteInfo.clashes_lowered_iff : a.lowered.Clashes b.lowered ↔ a.Clashes b := by
  rw [Clashes, Clashes, lowercase_lowered_host, lowercase_lowered_host]
  rfl

theorem hasHost_lowered_iff {host : String} :
    HasHost (routes.map RouteInfo.lowered) host ↔ HasHost routes host := by
  simp [HasHost]

theorem entriesOf_lowered (routes : List RouteInfo) (host : String) :
    entriesOf (routes.map RouteInfo.lowered) host = entriesOf routes host := by
  have hparsed : RouteInfo.parsed? ∘ RouteInfo.lowered = RouteInfo.parsed? := by
    funext info
    exact RouteInfo.parsed?_lowered
  rw [entriesOf, List.filter_map, List.filterMap_map, hparsed, entriesOf]
  simp only [Function.comp_def, RouteInfo.lowercase_lowered_host]

theorem Selects.lowered {requested host : String} (h : Selects routes requested host) :
    Selects (routes.map RouteInfo.lowered) requested host := by
  cases h with
  | named hhost => exact .named (hasHost_lowered_iff.2 hhost)
  | withoutPort hno hport hhost =>
      exact .withoutPort (mt hasHost_lowered_iff.1 hno) hport (hasHost_lowered_iff.2 hhost)
  | default hno hnone =>
      refine .default (mt hasHost_lowered_iff.1 hno) ?_
      intro host hport hhost
      exact hnone host hport (hasHost_lowered_iff.1 hhost)

end Lowered

namespace App

variable {app : App}

theorem perform_lift_ok {α : Type} (app : App) (a : α) :
    app.perform (liftM (Except.ok a : Except RouteError α) : Registering α) = (.ok a, app) := rfl

/-- An application whose own middlewares, filter and modifier do nothing to a new route. -/
structure Bare (app : App) : Prop where
  middlewares : app.middlewares = []
  filter : app.filter = none
  modifier : app.modifier = none

theorem Bare.perform_addRoutes_cons (h : app.Bare) {info : RouteInfo} {rest : List RouteInfo}
    {after : Routers} (hpath : info.parsed?.isSome)
    (hadd : addAll app.routers [info.lowered] = .ok after) :
    app.perform (addRoutes (info :: rest)) =
      ({ app with routers := after, routes := app.routes ++ [info.lowered] } : App).perform
        (addRoutes rest) := by
  obtain ⟨p, hp⟩ := RouteInfo.parsed?_isSome_iff.1 hpath
  have hroute : app.route info.path = .ok { path := info.path } := by
    have hroot : info.path.toList.head? = some '/' := Pattern.head?_of_parse hp
    have hne : ¬ info.path.isEmpty := by
      intro hempty
      rw [String.isEmpty_iff.1 hempty] at hroot
      cases hroot
    have htrim : Text.trimSlashes "" = "" := rfl
    rw [App.route, Route.below, if_neg hne, if_neg (not_not_intro hroot), h.middlewares, htrim,
      String.empty_append]
  let r : Route := (({ path := info.path } : Route).named info.name).onHost info.host
  have hhandle : app.perform (r.handle info.handler [info.method]) =
      (.ok (), { app with routers := after, routes := app.routes ++ [info.lowered] }) := by
    have hnotes : app.noteAll (Middleware.notesOf r.chain) = app := noteAll_nil app
    have hpath' : Pattern.parse r.path = .ok p := hp
    rw [Route.handle, r.perform_registerAs_of_ok app _ _ (List.cons_ne_nil _ _) hpath'
      (Nat.zero_le _), hnotes]
    exact perform_register_ok h.filter h.modifier hadd
  rw [addRoutes, perform_bind, perform_get]
  dsimp only
  rw [hroute, perform_bind, perform_lift_ok]
  show app.perform (r.handle info.handler [info.method] >>= fun _ => addRoutes rest) = _
  rw [perform_bind, hhandle]

/-- An application with nothing of its own that changes new routes accepts a list of routes if its
routers accept them with their hosts in small letters, and lists them so. -/
theorem Bare.perform_addRoutes (h : app.Bare) {infos : List RouteInfo} {after : Routers}
    (hpaths : ∀ info ∈ infos, info.parsed?.isSome)
    (hadd : addAll app.routers (infos.map RouteInfo.lowered) = .ok after) :
    app.perform (addRoutes infos) =
      (.ok (), { app with
        routers := after, routes := app.routes ++ infos.map RouteInfo.lowered }) := by
  induction infos generalizing app with
  | nil =>
      cases hadd
      rw [List.map_nil, List.append_nil]
      rfl
  | cons info rest ih =>
      rw [List.map_cons, ← List.singleton_append, addAll_append] at hadd
      obtain ⟨between, hfirst, hrest⟩ := hadd
      rw [h.perform_addRoutes_cons (hpaths info List.mem_cons_self) hfirst]
      have hbare : ({ app with
          routers := between, routes := app.routes ++ [info.lowered] } : App).Bare :=
        ⟨h.middlewares, h.filter, h.modifier⟩
      rw [ih hbare (fun i hi => hpaths i (List.mem_cons_of_mem info hi)) hrest, List.map_cons]
      dsimp only
      rw [List.append_assoc, List.singleton_append]

/-! ## The copy -/

/-- No two routes of an application clash, so they are accepted by routers that hold nothing. -/
theorem Tidy.addAll_lowered {routers : Routers} {routes : List RouteInfo}
    (h : Tidy routers routes) :
    ∃ after, App.addAll [] (routes.map RouteInfo.lowered) = .ok after := by
  rw [tidy_nil.addAll_ok_iff]
  constructor
  · intro info hinfo
    obtain ⟨old, hold, rfl⟩ := List.mem_map.1 hinfo
    refine ⟨?_, ?_⟩
    · rw [RouteInfo.parsed?_lowered]
      exact h.listed.readable old hold
    · intro other hother
      cases hother
  · rw [List.pairwise_map]
    exact h.apart.imp fun hapart => mt RouteInfo.clashes_lowered_iff.1 hapart

/-- Routers that hold the same routes, but for the case of the letters of the hosts, resolve every
request alike. -/
theorem Listed.resolve_lowered {routers routers' : Routers} {routes : List RouteInfo}
    (h : Listed routers routes) (h' : Listed routers' (routes.map RouteInfo.lowered))
    (ctx : Context) : resolve routers' ctx = resolve routers ctx := by
  obtain ⟨host, hs⟩ := exists_selects routes (ctx.host?.getD "")
  have hresolves := h.resolves hs
  have hresolves' := h'.resolves hs.lowered
  rw [entriesOf_lowered] at hresolves'
  exact hresolves.unique hresolves'

/-- What becomes of a request that is resolved depends on the not-found handler only. -/
theorem answer_congr {app app' : App} (h : app.notFound = app'.notFound) {disk : Disk}
    {depth : Nat} {request : Request} {result : Match Handler} :
    app.answer disk depth request result = app'.answer disk depth request result := by
  cases result with
  | found handler params | methodNotAllowed allowed | notFound => simp only [answer, h]

/-- However an application was built, its routes can be added to an application that has no routes,
middlewares, filter or modifier yet. This succeeds, and both resolve every request to the same
handler with the same parameters, to the same other methods, or both to nothing. So they give the
same replies, if they have the same handler for what is not found and no middlewares around
routing. -/
theorem Reached.replay {app : App} (h : app.Reached) (config : AppConfig) (pre : List Middleware)
    (notFound : Handler) :
    ∃ copy, ({ config, pre, notFound } : App).perform (addRoutes app.routes) = (.ok (), copy) ∧
      copy.routes = app.routes.map RouteInfo.lowered ∧
      (∀ ctx, resolve copy.routers ctx = resolve app.routers ctx) ∧
      (app.pre = [] → pre = [] → app.notFound = notFound → ∀ disk depth request,
        copy.dispatcher.reply? disk depth request = app.dispatcher.reply? disk depth request) := by
  have htidy : Tidy app.routers app.routes := h.of_stable stable_tidy
  obtain ⟨after, hadd⟩ := htidy.addAll_lowered
  let fresh : App := { config, pre, notFound }
  have hbare : fresh.Bare := ⟨rfl, rfl, rfl⟩
  let copy : App :=
    { fresh with routers := after, routes := app.routes.map RouteInfo.lowered }
  have hperform : fresh.perform (addRoutes app.routes) = (.ok (), copy) :=
    hbare.perform_addRoutes htidy.listed.readable hadd
  have hlisted : Listed copy.routers copy.routes := (tidy_nil.addAll hadd).listed
  have hresolve : ∀ ctx, resolve copy.routers ctx = resolve app.routers ctx :=
    htidy.listed.resolve_lowered hlisted
  refine ⟨copy, hperform, rfl, hresolve, ?_⟩
  intro hpre hpre' hnotFound disk depth request
  have hcopy : copy.pre = [] := hpre'
  rw [reply?_of_pre_nil hcopy, reply?_of_pre_nil hpre, hresolve]
  exact answer_congr hnotFound.symm

/-- A route for a host inside a group, where the filter skips a method and the modifier changes the
path. -/
theorem replay_modified :
    let app := ({} : App).build
      [.setFilter (·.method = .put),
        .setModifier { apply := fun info => { info with path := "/v2" ++ info.path } },
        .group "/users" (.route "/:id"
          [.onHost "Example.COM", .handle (.text .ok "user") [.get, .put]] .done)]
    app.routes.map (fun info => (info.host, info.path, info.method)) =
        [("example.com", "/v2/users/:id", .get)] ∧
      ∃ copy, ({} : App).perform (addRoutes app.routes) = (.ok (), copy) ∧
        ∀ disk depth request, copy.dispatcher.reply? disk depth request =
          app.dispatcher.reply? disk depth request := by
  intro app
  have hreached : app.Reached := ⟨{}, _, rfl⟩
  have hroutes : app.routes.map (fun info => (info.host, info.path, info.method)) =
      [("example.com", "/v2/users/:id", .get)] := by
    decide +kernel
  obtain ⟨copy, hperform, -, -, hreply⟩ := hreached.replay {} [] .missing
  exact ⟨hroutes, copy, hperform, hreply rfl rfl rfl⟩

end App

end Switchboard
