import Switchboard.App.Dispatcher
import Switchboard.Proofs.App.Program
import Switchboard.Proofs.Routing.Slashes

set_option autoImplicit false

/-! # Slashes in the paths of routes

A route whose path has two slashes next to each other is refused, and a slash at the end of a path
means nothing. There is one exception to each. Serving a tree trims all slashes at the end of the
path, so it refuses two of them only if they stand further to the front
(`App.refuses_doubledSlash`). The handlers of a resource are registered below the path as it is,
so with a slash at its end they are refused (`App.sameEffect_withSlash`).
-/

namespace Switchboard

open Text (HasDoubledSlash)

/-! ## Steps that are refused -/

namespace App

variable {α β : Type} {app : App}

/-- A step of registration fails and leaves the application as it is. -/
def Refuses (app : App) (act : Registering α) : Prop := ∃ e, app.perform act = (.error e, app)

theorem Refuses.bind {x : Registering α} (h : app.Refuses x) (f : α → Registering β) :
    app.Refuses (x >>= f) := by
  obtain ⟨e, he⟩ := h
  exact ⟨e, by rw [perform_bind, he]⟩

theorem Refuses.requireStatic_bind {act : Registering Unit} (h : app.Refuses act) (r : Route) :
    app.Refuses (r.requireStatic >>= fun _ => act) := by
  rw [Refuses, Route.perform_requireStatic_bind]
  split
  · exact ⟨_, rfl⟩
  · exact h

end App

namespace Route

variable (r : Route) {app : App}

theorem refuses_registerAs {path : String} (h : HasDoubledSlash path) (name : String)
    (handler : Handler) (methods : List Method) :
    app.Refuses (r.registerAs name path handler methods) := by
  obtain ⟨cause, hcause⟩ := Pattern.exists_error_of_hasDoubledSlash h
  rw [App.Refuses, perform_registerAs, hcause]
  split
  · exact ⟨_, rfl⟩
  · exact ⟨_, rfl⟩

end Route

/-! ## Resources -/

/-- Some handler of the resource has a kind with a method. -/
def Resource.Mapped (resource : Resource) (config : AppConfig) : Prop :=
  ∃ entry ∈ resource.handlers, (config.methodMapping.value? entry.1).isSome

theorem Resource.mapped_cons_iff {config : AppConfig} {type : String} {entry : String × Handler}
    {rest : List (String × Handler)} :
    Resource.Mapped ⟨type, entry :: rest⟩ config ↔
      (config.methodMapping.value? entry.1).isSome ∨ Resource.Mapped ⟨type, rest⟩ config :=
  List.exists_mem_cons_iff _ _ _

namespace Route

variable {r : Route} {app : App} {resource : Resource}

theorem mapResource_cons (type : String) (entry : String × Handler)
    (rest : List (String × Handler)) :
    r.mapResource ⟨type, entry :: rest⟩ =
      (r.registerKind (Text.lowercase type) entry.1 entry.2 >>= fun _ =>
        r.mapResource ⟨type, rest⟩) :=
  rfl

theorem perform_mapResource_cons_of_eq_none {entry : String × Handler}
    (h : app.config.methodMapping.value? entry.1 = none) (type : String)
    (rest : List (String × Handler)) :
    app.perform (r.mapResource ⟨type, entry :: rest⟩) =
      app.perform (r.mapResource ⟨type, rest⟩) := by
  rw [mapResource_cons, App.perform_bind, perform_registerKind, h]

/-- A resource of which no kind has a method is passed over. -/
theorem perform_mapResource_of_not_mapped (h : ¬ resource.Mapped app.config) :
    app.perform (r.mapResource resource) = (.ok (), app) := by
  obtain ⟨type, handlers⟩ := resource
  induction handlers with
  | nil => rfl
  | cons entry rest ih =>
      rw [Resource.mapped_cons_iff, not_or, Option.not_isSome_iff_eq_none] at h
      rw [perform_mapResource_cons_of_eq_none h.1, ih h.2]

/-- Nothing can be registered below a path if there are two slashes where it goes on. -/
theorem refuses_registerKind (hroot : r.path ≠ "/") (hpath : HasDoubledSlash (r.path ++ "/"))
    {kind : String} (hkind : (app.config.methodMapping.value? kind).isSome) (type : String)
    (handler : Handler) : app.Refuses (r.registerKind type kind handler) := by
  obtain ⟨method, hmethod⟩ := Option.isSome_iff_exists.1 hkind
  rw [App.Refuses, perform_registerKind, hmethod, if_neg hroot]
  dsimp only
  cases Method.ofName? method with
  | none => exact ⟨_, rfl⟩
  | some m =>
      exact r.refuses_registerAs (((hpath.append type).append "/").append _) _ handler [m]

theorem refuses_mapResource (hroot : r.path ≠ "/") (hpath : HasDoubledSlash (r.path ++ "/"))
    (hmapped : resource.Mapped app.config) : app.Refuses (r.mapResource resource) := by
  obtain ⟨type, handlers⟩ := resource
  induction handlers with
  | nil =>
      obtain ⟨entry, hmem, -⟩ := hmapped
      cases hmem
  | cons entry rest ih =>
      by_cases hentry : (app.config.methodMapping.value? entry.1).isSome
      · rw [mapResource_cons]
        exact (refuses_registerKind hroot hpath hentry _ _).bind _
      · -- the first kind with a method comes later
        have hrest := (Resource.mapped_cons_iff.1 hmapped).resolve_left hentry
        rw [App.Refuses,
          perform_mapResource_cons_of_eq_none (Option.not_isSome_iff_eq_none.1 hentry)]
        exact ih hrest

/-! ## Trees -/

theorem treePath_eq (r : Route) : r.treePath = Text.trimSlashes r.path ++ "/*" := by
  rw [treePath]
  split
  · next hroot =>
    rw [hroot]
    rfl
  · rfl

section Congr

variable {path : String} (h : Text.trimSlashes path = Text.trimSlashes r.path)

include h

/-- Slashes at the end of the path are neither parameters nor wildcards. -/
theorem requireStatic_congr : ({ r with path } : Route).requireStatic = r.requireStatic := by
  have hcontains : ∀ c : Char, c ≠ '/' → path.toList.contains c = r.path.toList.contains c := by
    intro c hc
    rw [Bool.eq_iff_iff, List.contains_iff_mem, List.contains_iff_mem, ← Text.mem_trimEnd_iff hc,
      ← Text.toList_trimSlashes, h, Text.toList_trimSlashes, Text.mem_trimEnd_iff hc]
  rw [requireStatic, requireStatic, hcontains ':' (by decide), hcontains '*' (by decide)]

/-- Slashes at the end of the path make no difference to the tree that is served below it. -/
theorem staticFiles_congr (fs : FileSystem) :
    ({ r with path } : Route).staticFiles fs = r.staticFiles fs := by
  have htree : ({ r with path } : Route).treePath = r.treePath := by
    rw [treePath_eq, treePath_eq, h]
  rw [staticFiles, staticFiles, requireStatic_congr h, htree]
  rfl

end Congr

end Route

namespace RouteStep

/-- The step asks for a route. Steps that only change what is to be registered do not, nor do an
empty table and a resource of which no kind has a method. -/
def Asks (config : AppConfig) : RouteStep → Prop
  | .handle _ _ | .any _ | .redirect _ _ _ | .staticFile _ | .staticFiles _ | .staticDirectory _ =>
    True
  | .map handlers => handlers ≠ []
  | .mapResource resource => resource.Mapped config
  | .named _ | .onHost _ | .addMiddlewares _ | .withoutMiddlewares | .requireHeader _ _ => False

/-- The step registers the handlers of a resource, at least one of them. -/
def Maps (config : AppConfig) : RouteStep → Prop
  | .mapResource resource => resource.Mapped config
  | _ => False

/-- The step serves a tree of files. -/
def ServesTree : RouteStep → Prop
  | .staticFiles _ | .staticDirectory _ => True
  | _ => False

end RouteStep

namespace App

/-! ## Two slashes next to each other -/

section Doubled

variable (app : App) (r : Route) (step : RouteStep)

theorem ne_root_of_hasDoubledSlash {path : String} (h : HasDoubledSlash path) : path ≠ "/" := by
  rintro rfl
  revert h
  decide

/-- If the path of a route has two slashes next to each other, all that the route asks for is
refused and the application stays as it is, routers and routes included. Serving a tree refuses
them only if they are not at the end of the path; there it takes any number of them for one. -/
theorem refuses_doubledSlash (hpath : HasDoubledSlash r.path) (hstep : step.Asks app.config) :
    ((step.ServesTree → HasDoubledSlash (Text.trimSlashes r.path)) →
      app.Refuses (r.registering step)) ∧
    (step.ServesTree → r.registering step =
      ({ r with path := Text.trimSlashes r.path ++ "/" } : Route).registering step) := by
  have htree : Text.trimSlashes (Text.trimSlashes r.path ++ "/") = Text.trimSlashes r.path := by
    rw [Text.trimSlashes_append_slash, Text.trimSlashes_trimSlashes]
  cases step with
  | handle handler methods =>
      exact ⟨fun _ => r.refuses_registerAs hpath r.name handler methods, False.elim⟩
  | any handler =>
      exact ⟨fun _ => r.refuses_registerAs hpath r.name handler Method.standard, False.elim⟩
  | map handlers =>
      refine ⟨fun _ => ?_, False.elim⟩
      obtain ⟨⟨method, handler⟩, rest, rfl⟩ := List.exists_cons_of_ne_nil hstep
      exact Refuses.bind (r.refuses_registerAs hpath _ _ _) _
  | mapResource resource =>
      exact ⟨fun _ => Route.refuses_mapResource (ne_root_of_hasDoubledSlash hpath)
        (hpath.append "/") hstep, False.elim⟩
  | redirect status location method =>
      refine ⟨fun _ => ?_, False.elim⟩
      rw [Route.registering, Route.redirect]
      split
      · exact ⟨_, rfl⟩
      · exact r.refuses_registerAs hpath _ _ _
  | staticFile file =>
      refine ⟨fun _ => ?_, False.elim⟩
      exact Refuses.requireStatic_bind (Refuses.bind (r.refuses_registerAs hpath _ _ _) _) r
  | staticFiles fs | staticDirectory root =>
      refine ⟨fun hfront => ?_, fun _ => (Route.staticFiles_congr htree _).symm⟩
      have hdoubled : HasDoubledSlash r.treePath := by
        rw [r.treePath_eq]
        exact (hfront trivial).append _
      exact Refuses.requireStatic_bind (r.refuses_registerAs hdoubled _ _ _) r
  | named | onHost | addMiddlewares | withoutMiddlewares | requireHeader => cases hstep

end Doubled

/-- A table with a method that is there twice, for a path with two slashes in the middle. -/
theorem refuses_doubledSlash_of_table :
    let r : Route := { path := "/a//:x/" }
    HasDoubledSlash r.path ∧
      ({} : App).Refuses (r.registering (.map [(.get, .missing), (.get, .missing)])) := by
  intro r
  have hpath : HasDoubledSlash r.path := by decide +kernel
  exact ⟨hpath, (refuses_doubledSlash {} r (.map [(.get, .missing), (.get, .missing)]) hpath
    (List.cons_ne_nil _ _)).1 False.elim⟩

/-- Two slashes at the end of a path below which a directory is served. -/
theorem directory_below_doubledSlash :
    ∃ r, ({} : App).route "/files//" = .ok r ∧ HasDoubledSlash r.path ∧
      (({} : App).perform (r.staticDirectory ["pub"])).1 = .ok () ∧
      (({} : App).perform (r.staticDirectory ["pub"])).2.routes.map (·.path) =
        ["/files/*", "/files/*"] :=
  ⟨{ path := "/files//" }, rfl, by decide +kernel, rfl, rfl⟩

end App

/-! ## A slash at the end -/

/-- What a router does with a path depends on the pattern that it stands for. -/
theorem Router.add_congr {H : Type} (router : Router H) {path path' : String} {p : Pattern}
    (hp : Pattern.parse path = .ok p) (hp' : Pattern.parse path' = .ok p) (method : Method)
    (value : H) : router.add method path value = router.add method path' value := by
  rw [add, add, hp, hp']

/-- The route with one more slash at the end of its path. -/
def Route.withSlash (r : Route) : Route := { r with path := r.path ++ "/" }

/-- A route for the path `/` in a group has the path of the group and one more slash. -/
theorem Group.route_slash {g : Group} (h : g.base.toList.getLast? ≠ some '/') :
    g.route "/" = .ok (Route.withSlash { path := g.base, middlewares := g.middlewares }) := by
  rw [Group.route, Route.below, if_neg (by decide), if_neg (by decide), Text.trimSlashes_eq_self h,
    Route.withSlash]

namespace App

variable {α β : Type}

/-- Two applications without filter and modifier that differ in nothing but the list of routes. -/
structure Alike (a b : App) : Prop where
  filter : a.filter = none
  modifier : a.modifier = none
  only_routes : ∃ routes, b = { a with routes }

/-- Two steps have the same outcome for applications that are alike, and leave such applications. -/
def Interchangeable (x y : Registering α) : Prop :=
  ∀ a b : App, a.Alike b →
    (a.perform x).1 = (b.perform y).1 ∧ (a.after x).Alike (b.after y)

theorem Interchangeable.pure (a : α) :
    Interchangeable (Pure.pure a : Registering α) (Pure.pure a) := fun _ _ h => ⟨rfl, h⟩

theorem Interchangeable.throw (e : RouteError) :
    Interchangeable (MonadExcept.throw e : Registering α) (MonadExcept.throw e) :=
  fun _ _ h => ⟨rfl, h⟩

theorem Interchangeable.bind {x y : Registering α} {f g : α → Registering β}
    (hx : Interchangeable x y) (hf : ∀ a, Interchangeable (f a) (g a)) :
    Interchangeable (x >>= f) (y >>= g) := by
  intro a b h
  obtain ⟨houtcome, halike⟩ := hx a b h
  rw [after, after] at halike ⊢
  rw [perform_bind, perform_bind]
  -- equal outcomes: both steps fail, or both go on with the same value
  revert houtcome halike
  rcases a.perform x with ⟨e | v, a'⟩ <;> rcases b.perform y with ⟨e' | v', b'⟩ <;>
    intro houtcome halike <;> cases houtcome
  · exact ⟨rfl, halike⟩
  · exact hf v a' b' halike

theorem addAll_infos_congr {path path' : String} {p : Pattern} (hp : Pattern.parse path = .ok p)
    (hp' : Pattern.parse path' = .ok p) (r : Route) (name : String) (handler : Handler)
    (methods : List Method) (routers : Routers) :
    addAll routers (r.infos name path handler methods) =
      addAll routers (r.infos name path' handler methods) := by
  induction methods generalizing routers with
  | nil => rfl
  | cons method rest ih =>
      rw [Route.infos, Route.infos, List.map_cons, List.map_cons, addAll, addAll]
      dsimp only
      rw [Router.add_congr _ hp hp']
      split
      · rfl
      · exact ih _

theorem Alike.noteAll {a b : App} (h : a.Alike b) (lines : List String) :
    (a.noteAll lines).Alike (b.noteAll lines) := by
  obtain ⟨hfilter, hmodifier, routes, rfl⟩ := h
  exact ⟨hfilter, hmodifier, routes, rfl⟩

theorem Interchangeable.register {batch batch' : List RouteInfo}
    (h : ∀ routers, addAll routers batch = addAll routers batch') :
    Interchangeable (register batch) (register batch') := by
  rintro a b ⟨hfilter, hmodifier, routes, rfl⟩
  have hperform' := @perform_register_of_none { a with routes } hfilter hmodifier batch'
  rw [after, after, perform_register_of_none hfilter hmodifier, hperform', h]
  dsimp only
  cases addAll a.routers batch' with
  | error cause => exact ⟨rfl, hfilter, hmodifier, routes, rfl⟩
  | ok routers => exact ⟨rfl, hfilter, hmodifier, routes ++ batch', rfl⟩

/-- A registration depends on the pattern that its path stands for. -/
theorem Interchangeable.registerAs {path path' : String} {p : Pattern}
    (hp : Pattern.parse path = .ok p) (hp' : Pattern.parse path' = .ok p) (r : Route)
    (name : String) (handler : Handler) (methods : List Method) :
    Interchangeable (r.registerAs name path handler methods)
      (r.registerAs name path' handler methods) := by
  intro a b h
  have hconfig : b.config = a.config := by
    obtain ⟨routes, rfl⟩ := h.only_routes
    rfl
  rw [after, after, Route.perform_registerAs, Route.perform_registerAs, hp, hp', hconfig]
  dsimp only
  split
  · exact ⟨rfl, h⟩
  · split
    · exact ⟨rfl, h⟩
    · exact Interchangeable.register (addAll_infos_congr hp hp' r name handler methods) _ _
        (h.noteAll _)

/-- Two steps have the same outcome, and the applications that they leave give the same response to
every request. -/
structure SameEffect (app : App) (x y : Registering Unit) : Prop where
  outcome : (app.perform x).1 = (app.perform y).1
  dispatch : ∀ disk depth request, (app.after x).dispatcher.dispatch? disk depth request =
    (app.after y).dispatcher.dispatch? disk depth request

theorem SameEffect.of_perform_eq {app : App} {x y : Registering Unit}
    (h : app.perform x = app.perform y) : app.SameEffect x y := by
  constructor
  · rw [h]
  · intro disk depth request
    rw [after, after, h]

/-- The list of routes is not looked at when requests are served. -/
theorem Alike.dispatch?_eq {a b : App} (h : a.Alike b) (disk : Disk) (depth : Nat)
    (request : Request) :
    a.dispatcher.dispatch? disk depth request = b.dispatcher.dispatch? disk depth request := by
  obtain ⟨routes, rfl⟩ := h.only_routes
  rfl

theorem Interchangeable.sameEffect {x y : Registering Unit} (h : Interchangeable x y) {app : App}
    (hfilter : app.filter = none) (hmodifier : app.modifier = none) : app.SameEffect x y := by
  obtain ⟨houtcome, halike⟩ := h app app ⟨hfilter, hmodifier, app.routes, rfl⟩
  exact ⟨houtcome, halike.dispatch?_eq⟩

variable {r : Route} {p : Pattern}

theorem interchangeable_map (hpath : Pattern.parse r.path = .ok p)
    (hslashed : Pattern.parse (r.path ++ "/") = .ok p) (handlers : List (Method × Handler)) :
    Interchangeable (r.withSlash.map handlers) (r.map handlers) := by
  induction handlers with
  | nil => exact .pure ()
  | cons entry rest ih => exact .bind (.registerAs hslashed hpath r _ _ _) fun _ => ih

theorem interchangeable_redirect (hpath : Pattern.parse r.path = .ok p)
    (hslashed : Pattern.parse (r.path ++ "/") = .ok p) (status : Status) (location : String)
    (method : Method) :
    Interchangeable (r.withSlash.redirect status location method)
      (r.redirect status location method) := by
  rw [Route.redirect, Route.redirect]
  split
  · exact .bind (.throw _) fun _ => .registerAs hslashed hpath r _ _ _
  · exact .registerAs hslashed hpath r _ _ _

theorem interchangeable_staticFile (hpath : Pattern.parse r.path = .ok p)
    (hslashed : Pattern.parse (r.path ++ "/") = .ok p) (file : DiskPath) :
    Interchangeable (r.withSlash.staticFile file) (r.staticFile file) := by
  have hstatic : r.withSlash.requireStatic = r.requireStatic :=
    Route.requireStatic_congr (Text.trimSlashes_append_slash r.path)
  have hsame : Interchangeable r.requireStatic r.requireStatic := by
    rw [Route.requireStatic]
    split
    · exact .throw _
    · exact .pure _
  rw [Route.staticFile, Route.staticFile, hstatic]
  refine .bind hsame fun _ => ?_
  refine .bind (.registerAs hslashed hpath r _ _ _) fun _ => ?_
  exact .registerAs hslashed hpath r _ _ _

/-- One slash at the end of a path that has none there changes neither the outcome of a step nor
any response afterwards, if the path can be read and if no filter and no modifier see it. This is
the path that the route `/` of a group has. There is one exception: below such a path no handler of
a resource is ever registered. -/
theorem sameEffect_withSlash (app : App) (r : Route) {p : Pattern} (hfilter : app.filter = none)
    (hmodifier : app.modifier = none) (hpath : Pattern.parse r.path = .ok p)
    (hend : r.path.toList.getLast? ≠ some '/') :
    (∀ g : Group, g.base = r.path →
      g.route "/" = .ok (Route.withSlash { path := r.path, middlewares := g.middlewares })) ∧
    (∀ step : RouteStep, ¬ step.Maps app.config →
      app.SameEffect (r.withSlash.registering step) (r.registering step)) ∧
    ∀ resource : Resource, resource.Mapped app.config →
      app.Refuses (r.withSlash.mapResource resource) := by
  have hslashed : Pattern.parse (r.path ++ "/") = .ok p := Pattern.parse_append_slash hpath hend
  refine ⟨?_, ?_, ?_⟩
  · rintro g hbase
    rw [← hbase] at hend ⊢
    exact Group.route_slash hend
  · intro step hstep
    have htree : Text.trimSlashes r.withSlash.path = Text.trimSlashes r.path :=
      Text.trimSlashes_append_slash r.path
    cases step with
    | handle handler methods =>
        exact (Interchangeable.registerAs hslashed hpath r r.name handler methods).sameEffect
          hfilter hmodifier
    | any handler =>
        exact (Interchangeable.registerAs hslashed hpath r r.name handler
          Method.standard).sameEffect hfilter hmodifier
    | map handlers =>
        exact (interchangeable_map hpath hslashed handlers).sameEffect hfilter hmodifier
    | redirect status location method =>
        exact (interchangeable_redirect hpath hslashed status location method).sameEffect
          hfilter hmodifier
    | staticFile file =>
        exact (interchangeable_staticFile hpath hslashed file).sameEffect hfilter hmodifier
    | mapResource resource =>
        have hnone : ∀ r : Route, app.perform (r.mapResource resource) = (.ok (), app) :=
          fun r => Route.perform_mapResource_of_not_mapped hstep
        exact .of_perform_eq ((hnone r.withSlash).trans (hnone r).symm)
    | staticFiles fs | staticDirectory root =>
        exact .of_perform_eq (congrArg app.perform (Route.staticFiles_congr htree _))
    | named | onHost | addMiddlewares | withoutMiddlewares | requireHeader =>
        exact .of_perform_eq rfl
  · intro resource hmapped
    refine Route.refuses_mapResource ?_ Text.hasDoubledSlash_append_slash_slash hmapped
    intro hroot
    have hempty : r.path.toList ++ ['/'] = [] ++ ['/'] := by
      rw [← Text.toList_append_slash]
      exact congrArg String.toList hroot
    have hrooted := Pattern.head?_of_parse hpath
    rw [List.append_cancel_right hempty] at hrooted
    cases hrooted

/-- A table with a method that is there twice, for a path that overlaps with routes of another
host. -/
theorem sameEffect_withSlash_of_table :
    let app := ({} : App).build [.route "/users/*" [.any .missing]]
    let r : Route := { path := "/users/:id", host := "example.com", checks := [⟨"x", ["y"]⟩] }
    let step : RouteStep := .map [(.get, .text .ok "a"), (.get, .text .ok "b")]
    app.filter = none ∧ app.modifier = none ∧
      Pattern.parse r.path = .ok [.fixed "users", .param "id"] ∧
      r.path.toList.getLast? ≠ some '/' ∧ ¬ step.Maps app.config ∧
      app.SameEffect (r.withSlash.registering step) (r.registering step) := by
  intro app r step
  have hfilter : app.filter = none := Option.isNone_iff_eq_none.1 (by decide +kernel)
  have hmodifier : app.modifier = none := Option.isNone_iff_eq_none.1 (by decide +kernel)
  have hpath : Pattern.parse r.path = .ok [.fixed "users", .param "id"] := by decide
  have hend : r.path.toList.getLast? ≠ some '/' := by decide
  refine ⟨hfilter, hmodifier, hpath, hend, id, ?_⟩
  exact (sameEffect_withSlash app r hfilter hmodifier hpath hend).2.1 step id

/-- A resource below a path, and below the same path with a slash at its end. -/
theorem resource_below_slash :
    let resource : Resource := ⟨"User", [("Create", .text .ok "a")]⟩
    let result (r : Route) : Except RouteError Unit × App :=
      ({} : App).perform (r.mapResource resource)
    let r : Route := { path := "/v1" }
    (result r).1.isOk ∧ (result r).2.routes.map (·.path) = ["/v1/user/create"] ∧
      ¬ (result r.withSlash).1.isOk ∧ (result r.withSlash).2.routes.map (·.path) = [] := by
  decide +kernel

end App

end Switchboard
