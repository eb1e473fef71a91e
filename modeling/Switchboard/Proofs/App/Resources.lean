import Switchboard.Proofs.App.Acceptance
import Switchboard.Proofs.App.Slashes

set_option autoImplicit false

/-! # Handlers of a resource, one after another

A resource is a list of handlers by kind. Each is registered on its own, below the path of the route
and for the method that its kind is mapped to (`Route.kindInfo?`); a kind without a method is passed
over. The first handler that is refused beside what is listed by then ends the call, and what has
been registered before it stays (`App.Reached.mapResource_up_to_refusal`).
-/

namespace Switchboard

namespace Route

variable (r : Route) (config : AppConfig) (type : String)

/-- The route that an entry of a resource asks for. There is none if its kind has no method, or a
text that is no method. -/
def kindInfo? (entry : String × Handler) : Option RouteInfo :=
  ((config.methodMapping.value? entry.1).bind Method.ofName?).map fun method =>
    { name := Text.lowercase type ++ "_" ++ Text.lowercase entry.1
      host := r.host
      path := (if r.path = "/" then "" else r.path) ++ "/" ++ Text.lowercase type ++ "/" ++
        Text.lowercase entry.1
      method
      handler := entry.2.compose r.chain }

/-- The routes that the entries of a resource ask for, in their order. -/
def kindInfos (entries : List (String × Handler)) : List RouteInfo :=
  entries.filterMap (r.kindInfo? config type)

/-- An entry of a resource is refused beside the listed routes, and why. -/
inductive RefusesKind (routes : List RouteInfo) (entry : String × Handler) : RouteError → Prop
  | invalidMethod {method : String} (hmapped : config.methodMapping.value? entry.1 = some method)
      (hmethod : Method.ofName? method = none) :
      RefusesKind routes entry (.invalidMethod method entry.1)
  | malformed {info : RouteInfo} {cause : PatternError}
      (hasked : r.kindInfo? config type entry = some info)
      (hpath : Pattern.parse info.path = .error cause) :
      RefusesKind routes entry (.malformed info.path cause)
  | tooManyMiddlewares {info : RouteInfo} {p : Pattern}
      (hasked : r.kindInfo? config type entry = some info)
      (hpath : Pattern.parse info.path = .ok p)
      (hmax : config.middlewareMax.toNat < r.chain.length) :
      RefusesKind routes entry (.tooManyMiddlewares r.chain.length config.middlewareMax)
  | conflict {info old : RouteInfo} {p : Pattern} {cause : Conflict}
      (hasked : r.kindInfo? config type entry = some info)
      (hpath : Pattern.parse info.path = .ok p)
      (hmax : r.chain.length ≤ config.middlewareMax.toNat)
      (hold : old ∈ routes) (hclash : info.Clashes old) :
      RefusesKind routes entry (.refused (.conflict info.method p cause))

/-- No entry is refused beside the listed routes and those of the entries before it. -/
def AcceptsKinds (routes : List RouteInfo) : List (String × Handler) → Prop
  | [] => True
  | entry :: rest => (∀ e, ¬ r.RefusesKind config type routes entry e) ∧
      AcceptsKinds (routes ++ (r.kindInfo? config type entry).toList) rest

variable {r config type} {routes : List RouteInfo} {entries : List (String × Handler)}

theorem kindInfos_cons (entry : String × Handler) :
    r.kindInfos config type (entry :: entries) =
      (r.kindInfo? config type entry).toList ++ r.kindInfos config type entries := by
  rw [kindInfos, List.filterMap_cons]
  cases r.kindInfo? config type entry <;> rfl

/-- Of entries that are not all accepted there is a first one that is refused. -/
theorem exists_first_refused (h : ¬ r.AcceptsKinds config type routes entries) :
    ∃ front entry back e, entries = front ++ entry :: back ∧
      r.AcceptsKinds config type routes front ∧
      r.RefusesKind config type (routes ++ r.kindInfos config type front) entry e := by
  induction entries generalizing routes with
  | nil => exact absurd trivial h
  | cons entry rest ih =>
      by_cases hentry : ∀ e, ¬ r.RefusesKind config type routes entry e
      · have hrest : ¬ r.AcceptsKinds config type
            (routes ++ (r.kindInfo? config type entry).toList) rest :=
          fun haccepts => h ⟨hentry, haccepts⟩
        obtain ⟨front, refused, back, e, rfl, hfront, he⟩ := ih hrest
        refine ⟨entry :: front, refused, back, e, rfl, ⟨hentry, hfront⟩, ?_⟩
        rw [kindInfos_cons, ← List.append_assoc]
        exact he
      · obtain ⟨e, he⟩ := Classical.not_forall_not.1 hentry
        refine ⟨[], entry, rest, e, rfl, trivial, ?_⟩
        rw [kindInfos, List.filterMap_nil, List.append_nil]
        exact he

/-- An entry that asks for a route is registered under its name and its path, for its method. -/
theorem perform_registerKind_of_asked {app : App} {entry : String × Handler} {info : RouteInfo}
    (h : r.kindInfo? app.config type entry = some info) :
    app.perform (r.registerKind (Text.lowercase type) entry.1 entry.2) =
        app.perform (r.registerAs info.name info.path entry.2 [info.method]) ∧
      r.infos info.name info.path entry.2 [info.method] = [info] := by
  obtain ⟨method, hmethod, rfl⟩ := Option.map_eq_some_iff.1 h
  obtain ⟨text, htext, hname⟩ := Option.bind_eq_some_iff.1 hmethod
  rw [perform_registerKind, htext]
  dsimp only
  rw [hname]
  exact ⟨rfl, rfl⟩

theorem mapResource_append (front back : List (String × Handler)) :
    r.mapResource ⟨type, front ++ back⟩ =
      (r.mapResource ⟨type, front⟩ >>= fun _ => r.mapResource ⟨type, back⟩) :=
  List.forM_append

end Route

namespace App

variable {app between after : App} {infos infos' : List RouteInfo}

/-- The application has got these routes, at the end of the list and in its routers; apart from
that only lines have been noted. -/
def Grew (app : App) (infos : List RouteInfo) (after : App) : Prop :=
  ∃ routers lines, after = { app.noteAll lines with routers, routes := app.routes ++ infos } ∧
    Tidy routers (app.routes ++ infos)

theorem Grew.noteAll (h : app.Direct) (lines : List String) : app.Grew [] (app.noteAll lines) := by
  refine ⟨app.routers, lines, ?_, ?_⟩
  · rw [List.append_nil]
    rfl
  · rw [List.append_nil]
    exact h.tidy

theorem Grew.refl (h : app.Direct) : app.Grew [] app := by
  have hgrew := Grew.noteAll h []
  rwa [noteAll_nil] at hgrew

theorem Grew.direct (h : app.Direct) (hgrew : app.Grew infos after) : after.Direct := by
  obtain ⟨routers, lines, rfl, htidy⟩ := hgrew
  exact ⟨h.filter, h.modifier, htidy⟩

theorem Grew.config (hgrew : app.Grew infos after) : after.config = app.config := by
  obtain ⟨routers, lines, rfl, -⟩ := hgrew
  rfl

theorem Grew.routes (hgrew : app.Grew infos after) : after.routes = app.routes ++ infos := by
  obtain ⟨routers, lines, rfl, -⟩ := hgrew
  rfl

theorem Grew.trans (h : app.Grew infos between) (h' : between.Grew infos' after) :
    app.Grew (infos ++ infos') after := by
  obtain ⟨routers, lines, rfl, -⟩ := h
  obtain ⟨routers', lines', rfl, htidy⟩ := h'
  refine ⟨routers', lines ++ lines', ?_, ?_⟩
  · simp only [App.noteAll, List.append_assoc]
  · rw [← List.append_assoc]
    exact htidy

end App

/-! ## Registering a resource -/

/-- A path that can be read is refused by a router for a conflict only. -/
theorem Router.eq_conflict_of_add {H : Type} {router : Router H} {method : Method} {path : String}
    {value : H} {p : Pattern} {cause : AddError} (hp : Pattern.parse path = .ok p)
    (h : (router.add method path value).2 = .error cause) :
    ∃ conflict, cause = .conflict method p conflict := by
  rw [add, hp] at h
  dsimp only at h
  split at h
  · next conflict _ =>
    cases h
    exact ⟨conflict, rfl⟩
  · cases h

namespace App

variable {app : App} {r : Route} {type : String} {entry : String × Handler} {e : RouteError}
  {entries front back : List (String × Handler)}

theorem eq_conflict_of_addAll_singleton {routers : Routers} {info : RouteInfo} {p : Pattern}
    {cause : AddError} (hp : Pattern.parse info.path = .ok p)
    (h : addAll routers [info] = .error cause) :
    ∃ conflict, cause = .conflict info.method p conflict := by
  rw [addAll] at h
  rcases hadd : (routerOf routers (Text.lowercase info.host)).add info.method info.path
    info.handler with ⟨router, refusal | _⟩
  · rw [hadd] at h
    cases h
    exact Router.eq_conflict_of_add hp (congrArg Prod.snd hadd)
  · rw [hadd] at h
    cases h

/-- An entry that passes the checks that do not look at the routers is handed to them. -/
theorem Direct.perform_registerKind_of_fits (h : app.Direct) {info : RouteInfo} {p : Pattern}
    (hasked : r.kindInfo? app.config type entry = some info)
    (hpath : Pattern.parse info.path = .ok p)
    (hmax : r.chain.length ≤ app.config.middlewareMax.toNat) :
    app.perform (r.registerKind (Text.lowercase type) entry.1 entry.2) =
      match addAll app.routers [info] with
      | .error cause => (.error (.refused cause), app.noteAll (Middleware.notesOf r.chain))
      | .ok routers => (.ok (), { app.noteAll (Middleware.notesOf r.chain) with
          routers, routes := app.routes ++ [info] }) := by
  obtain ⟨hperform, hinfos⟩ := Route.perform_registerKind_of_asked hasked
  have hnoted : (app.noteAll (Middleware.notesOf r.chain)).Direct := h.noteAll _
  rw [hperform, r.perform_registerAs_of_ok app _ _ (List.cons_ne_nil _ _) hpath hmax, hinfos]
  exact perform_register_of_none hnoted.filter hnoted.modifier [info]

/-- A refused entry leaves the application as it is, apart from lines. -/
theorem Direct.perform_registerKind_of_refused (h : app.Direct)
    (hrefused : r.RefusesKind app.config type app.routes entry e) :
    ∃ e' lines, app.perform (r.registerKind (Text.lowercase type) entry.1 entry.2) =
        (.error e', app.noteAll lines) ∧
      r.RefusesKind app.config type app.routes entry e' := by
  cases hrefused with
  | invalidMethod hmapped hmethod =>
      refine ⟨_, [], ?_, .invalidMethod hmapped hmethod⟩
      rw [Route.perform_registerKind, hmapped]
      dsimp only
      rw [hmethod, noteAll_nil]
  | malformed hasked hpath =>
      refine ⟨_, [], ?_, .malformed hasked hpath⟩
      rw [(Route.perform_registerKind_of_asked hasked).1, Route.perform_registerAs, hpath,
        noteAll_nil]
      rfl
  | tooManyMiddlewares hasked hpath hmax =>
      refine ⟨_, [], ?_, .tooManyMiddlewares hasked hpath hmax⟩
      rw [(Route.perform_registerKind_of_asked hasked).1, Route.perform_registerAs, hpath,
        noteAll_nil]
      exact if_pos hmax
  | @conflict info old p cause hasked hpath hmax hold hclash =>
      have hadd : ¬ ∃ after, addAll app.routers [info] = .ok after := by
        rw [h.tidy.addAll_ok_iff]
        exact fun hok => (hok.1 info List.mem_cons_self).2 old hold hclash
      cases haddAll : addAll app.routers [info] with
      | ok routers => exact absurd ⟨routers, haddAll⟩ hadd
      | error refusal =>
          obtain ⟨conflict, rfl⟩ := eq_conflict_of_addAll_singleton hpath haddAll
          refine ⟨.refused (.conflict info.method p conflict), Middleware.notesOf r.chain, ?_,
            .conflict hasked hpath hmax hold hclash⟩
          rw [h.perform_registerKind_of_fits hasked hpath hmax, haddAll]

theorem Direct.perform_registerKind_of_accepted (h : app.Direct)
    (haccepts : ∀ e, ¬ r.RefusesKind app.config type app.routes entry e) :
    ∃ after, app.perform (r.registerKind (Text.lowercase type) entry.1 entry.2) = (.ok (), after) ∧
      app.Grew (r.kindInfo? app.config type entry).toList after := by
  cases hasked : r.kindInfo? app.config type entry with
  | none =>
      -- the kind has no method, since a text that is no method would be refused
      refine ⟨app, ?_, .refl h⟩
      rw [Route.perform_registerKind]
      cases hmapped : app.config.methodMapping.value? entry.1 with
      | none => rfl
      | some text =>
          have hmethod : Method.ofName? text = none := by
            rw [Route.kindInfo?, hmapped] at hasked
            exact Option.map_eq_none_iff.1 hasked
          exact absurd (.invalidMethod hmapped hmethod) (haccepts _)
  | some info =>
      cases hpath : Pattern.parse info.path with
      | error cause => exact absurd (.malformed hasked hpath) (haccepts _)
      | ok p =>
          have hmax : r.chain.length ≤ app.config.middlewareMax.toNat :=
            Nat.le_of_not_lt fun hmax => haccepts _ (.tooManyMiddlewares hasked hpath hmax)
          have hapart : ∀ old ∈ app.routes, ¬ info.Clashes old :=
            fun old hold hclash => haccepts (.refused (.conflict info.method p .routeTaken))
              (.conflict hasked hpath hmax hold hclash)
          obtain ⟨routers, hrouters⟩ := (h.tidy.addAll_ok_iff [info]).2
            ⟨List.forall_mem_singleton.2 ⟨RouteInfo.parsed?_isSome_iff.2 ⟨p, hpath⟩, hapart⟩,
              List.pairwise_singleton _ _⟩
          refine ⟨_, ?_, routers, Middleware.notesOf r.chain, rfl, h.tidy.addAll hrouters⟩
          rw [h.perform_registerKind_of_fits hasked hpath hmax, hrouters]
          rfl

theorem Direct.perform_mapResource_of_accepted (h : app.Direct)
    (haccepts : r.AcceptsKinds app.config type app.routes entries) :
    ∃ after, app.perform (r.mapResource ⟨type, entries⟩) = (.ok (), after) ∧
      app.Grew (r.kindInfos app.config type entries) after := by
  induction entries generalizing app with
  | nil => exact ⟨app, rfl, .refl h⟩
  | cons entry rest ih =>
      obtain ⟨hentry, hrest⟩ := haccepts
      obtain ⟨between, hbetween, hgrew⟩ := h.perform_registerKind_of_accepted hentry
      rw [← hgrew.routes, ← hgrew.config] at hrest
      obtain ⟨after, hafter, hgrew'⟩ := ih (hgrew.direct h) hrest
      refine ⟨after, ?_, ?_⟩
      · rw [Route.mapResource_cons, perform_bind, hbetween]
        exact hafter
      · rw [Route.kindInfos_cons, ← hgrew.config]
        exact (hgrew.config ▸ hgrew).trans hgrew'

/-- The entries before the one that is refused have been registered, and those after it are not
looked at. -/
theorem Direct.perform_mapResource_of_refused (h : app.Direct)
    (hfront : r.AcceptsKinds app.config type app.routes front)
    (hrefused : r.RefusesKind app.config type
      (app.routes ++ r.kindInfos app.config type front) entry e) :
    ∃ e' after, app.perform (r.mapResource ⟨type, front ++ entry :: back⟩) = (.error e', after) ∧
      r.RefusesKind app.config type (app.routes ++ r.kindInfos app.config type front) entry e' ∧
      app.Grew (r.kindInfos app.config type front) after := by
  obtain ⟨between, hbetween, hgrew⟩ := h.perform_mapResource_of_accepted hfront
  have hroutes := hgrew.routes
  have hconfig := hgrew.config
  rw [← hroutes, ← hconfig] at hrefused
  obtain ⟨e', lines, hperform, he'⟩ :=
    (hgrew.direct h).perform_registerKind_of_refused hrefused
  rw [hroutes, hconfig] at he'
  refine ⟨e', between.noteAll lines, ?_, he', ?_⟩
  · rw [Route.mapResource_append, perform_bind, hbetween]
    dsimp only
    rw [Route.mapResource_cons, perform_bind, hperform]
  · have hnoted := hgrew.trans (Grew.noteAll (hgrew.direct h) lines)
    rwa [List.append_nil] at hnoted

/-- A route registers the handlers of a resource one after another, whatever its middlewares and its
header checks are and whatever the kinds are mapped to. A kind without a method asks for nothing.
Every other entry asks for one route: for the method of its kind, under the type and the kind in
small letters, below the path of the route. If no entry is refused beside the routes that are listed
by then, the call succeeds and the list has grown by what the entries ask for, in their order. If
one is, the call fails at the first such entry with its error and the list has grown by what the
entries before it ask for. An entry is refused if its kind is mapped to a text that is no method, if
its path cannot be read, if there are too many middlewares or if it clashes with a listed route,
which may be one of the same resource. -/
theorem Reached.mapResource_up_to_refusal (happ : app.Reached) (hfilter : app.filter = none)
    (hmodifier : app.modifier = none) (r : Route) (resource : Resource) :
    (r.AcceptsKinds app.config resource.type app.routes resource.handlers →
      ∃ after, app.perform (r.mapResource resource) = (.ok (), after) ∧
        app.Grew (r.kindInfos app.config resource.type resource.handlers) after) ∧
    (¬ r.AcceptsKinds app.config resource.type app.routes resource.handlers →
      ∃ front entry back e after, resource.handlers = front ++ entry :: back ∧
        r.AcceptsKinds app.config resource.type app.routes front ∧
        r.RefusesKind app.config resource.type
          (app.routes ++ r.kindInfos app.config resource.type front) entry e ∧
        app.perform (r.mapResource resource) = (.error e, after) ∧
        app.Grew (r.kindInfos app.config resource.type front) after) := by
  have hdirect : app.Direct := ⟨hfilter, hmodifier, happ.of_stable stable_tidy⟩
  obtain ⟨type, entries⟩ := resource
  refine ⟨hdirect.perform_mapResource_of_accepted, fun hrefused => ?_⟩
  obtain ⟨front, entry, back, e', hsplit, hfront, he'⟩ := Route.exists_first_refused hrefused
  obtain rfl : entries = front ++ entry :: back := hsplit
  obtain ⟨e, after, hperform, he, hgrew⟩ := hdirect.perform_mapResource_of_refused hfront he'
  exact ⟨front, entry, back, e, after, rfl, hfront, he, hperform, hgrew⟩

/-- Two kinds that differ in the size of a letter, after a kind without a method. -/
theorem mapResource_up_to_collision :
    let config : AppConfig :=
      { methodMapping := .ofList [("Create", "POST"), ("CREATE", "POST"), ("Get", "GET")] }
    let app : App := { config }
    let r : Route := { path := "/v1", checks := [⟨"x-key", []⟩] }
    let resource : Resource :=
      ⟨"User", [("Has", .missing), ("Create", .missing), ("CREATE", .missing), ("Get", .missing)]⟩
    app.Reached ∧ app.filter = none ∧ app.modifier = none ∧
      (∃ front entry back e after, resource.handlers = front ++ entry :: back ∧
        r.AcceptsKinds config resource.type app.routes front ∧
        r.RefusesKind config resource.type
          (app.routes ++ r.kindInfos config resource.type front) entry e ∧
        app.perform (r.mapResource resource) = (.error e, after) ∧
        app.Grew (r.kindInfos config resource.type front) after) ∧
      (app.perform (r.mapResource resource)).2.routes.map (fun info => (info.name, info.path)) =
        [("user_create", "/v1/user/create")] := by
  intro config app r resource
  have hreached : app.Reached := ⟨config, [], rfl⟩
  obtain ⟨haccepted, hrefused⟩ := hreached.mapResource_up_to_refusal rfl rfl r resource
  have hfails : (app.perform (r.mapResource resource)).1.isOk = false := by decide +kernel
  refine ⟨hreached, rfl, rfl, hrefused fun haccepts => ?_, by decide +kernel⟩
  obtain ⟨after, hafter, -⟩ := haccepted haccepts
  rw [hafter] at hfails
  cases hfails

end App

end Switchboard
