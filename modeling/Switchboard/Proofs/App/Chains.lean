import Switchboard.Proofs.App.Sites
import Switchboard.Proofs.Routing.Slashes

set_option autoImplicit false

/-! # The middlewares around a handler

A group and a route hold copies of the middlewares that were there when they were made, and change
them in their own way. That these copies are what the text of the program says holds step by step
(`Place.route_concat`, `Group.ofFrames`), and so every program without a filter and a modifier
registers what can be read off its text (`App.build_routes`).
-/

namespace Switchboard

/-! ## A route after some steps -/

section Steps

variable {steps : List RouteStep} {step : RouteStep}

theorem sinceCleared_concat_of_clears (h : step.clears) : sinceCleared (steps ++ [step]) = [] := by
  rw [sinceCleared, List.reverse_append, List.reverse_singleton, List.singleton_append,
    List.takeWhile_cons_of_neg (by simp [h]), List.reverse_nil]

theorem sinceCleared_concat_of_not_clears (h : ¬ step.clears) :
    sinceCleared (steps ++ [step]) = sinceCleared steps ++ [step] := by
  rw [sinceCleared, List.reverse_append, List.reverse_singleton, List.singleton_append,
    List.takeWhile_cons_of_pos (by simp [h]), List.reverse_cons, sinceCleared]

/-- The last of some texts, after one more that may be missing. -/
theorem getLast?_concat_getD (texts : List String) (text? : Option String) :
    ((texts ++ text?.toList).getLast?).getD "" = text?.getD (texts.getLast?.getD "") := by
  cases text? with
  | none => rw [Option.toList_none, List.append_nil, Option.getD_none]
  | some text => rw [Option.toList_some, List.getLast?_concat, Option.getD_some, Option.getD_some]

theorem filterMap_singleton {α β : Type} (f : α → Option β) (a : α) :
    [a].filterMap f = (f a).toList := by
  cases h : f a <;> simp [h]

theorem hostOf_concat : hostOf (steps ++ [step]) = step.host?.getD (hostOf steps) := by
  rw [hostOf, List.filterMap_append, filterMap_singleton, getLast?_concat_getD, hostOf]

theorem nameOf_concat : nameOf (steps ++ [step]) = step.name?.getD (nameOf steps) := by
  rw [nameOf, List.filterMap_append, filterMap_singleton, getLast?_concat_getD, nameOf]

theorem checksOf_concat : checksOf (steps ++ [step]) = checksOf steps ++ step.check?.toList := by
  rw [checksOf, List.filterMap_append, filterMap_singleton, checksOf]

end Steps

namespace Place

variable (p : Place) (steps : List RouteStep)

/-- The route after some steps, as the text says that it is. -/
def route : Route where
  path := p.path
  host := hostOf steps
  name := nameOf steps
  middlewares := p.middlewares steps
  checks := checksOf steps

theorem middlewares_nil : p.middlewares [] = handedDown p.outermost p.frames := by
  simp [middlewares, sinceCleared]

theorem middlewares_concat (step : RouteStep) :
    p.middlewares (steps ++ [step]) =
      if step.clears then [] else p.middlewares steps ++ step.added := by
  by_cases h : step.clears
  · rw [middlewares, sinceCleared_concat_of_clears h, if_pos h]
    simp [h]
  · rw [middlewares, sinceCleared_concat_of_not_clears h, if_neg h, middlewares]
    simp [h]

/-- A step changes the route to the one that the text says. -/
theorem route_concat (step : RouteStep) :
    p.route (steps ++ [step]) = (p.route steps).change step := by
  rw [route, hostOf_concat, nameOf_concat, checksOf_concat, middlewares_concat]
  cases step with
  | requireHeader key values =>
      show Route.mk _ _ _ (p.middlewares steps ++ []) (checksOf steps ++ [_]) = _
      rw [List.append_nil]
      rfl
  | withoutMiddlewares =>
      show Route.mk _ _ _ [] (checksOf steps ++ []) = _
      rw [List.append_nil]
      rfl
  | addMiddlewares ms =>
      show Route.mk _ _ _ (p.middlewares steps ++ ms) (checksOf steps ++ []) = _
      rw [List.append_nil]
      rfl
  | named | onHost | handle | any | map | mapResource | redirect | staticFile | staticFiles
  | staticDirectory =>
      show Route.mk _ _ _ (p.middlewares steps ++ []) (checksOf steps ++ []) = _
      rw [List.append_nil, List.append_nil]
      rfl

end Place

theorem Site.chain_eq (s : Site) : s.chain = (s.toPlace.route s.before).chain := by
  by_cases h : checksOf s.before = []
  · have hempty : (s.toPlace.route s.before).checks.isEmpty := List.isEmpty_iff.2 h
    rw [Site.chain, Route.chain, if_pos h, List.append_nil, if_pos hempty]
    rfl
  · have hsome : ¬ (s.toPlace.route s.before).checks.isEmpty := mt List.isEmpty_iff.1 h
    rw [Site.chain, Route.chain, if_neg h, if_neg hsome]
    rfl

/-- What a site hands in is what the route hands in that the text says. -/
theorem Site.submission_eq (s : Site) :
    s.submission = (s.toPlace.route s.before).submission := by
  funext name path handler methods
  rw [Site.submission, s.chain_eq]
  rfl

/-! ## Groups and routes as they are made -/

theorem not_isEmpty_of_isRooted {path : String} (h : IsRooted path) : ¬ path.isEmpty := by
  intro hempty
  rw [IsRooted, String.isEmpty_iff.1 hempty] at h
  cases h

/-- No slash stands at the end of what has been trimmed, unless nothing is left. -/
theorem trimSlashes_append_trimSlashes (front base : String)
    (h : IsRooted (Text.trimSlashes base)) :
    Text.trimSlashes (front ++ Text.trimSlashes base) = front ++ Text.trimSlashes base := by
  rw [IsRooted, Text.toList_trimSlashes] at h
  have hne : Text.trimEnd '/' base.toList ≠ [] := by
    intro hnil
    rw [hnil] at h
    cases h
  apply Text.trimSlashes_eq_self
  rw [String.toList_append, Text.toList_trimSlashes, List.getLast?_append_of_ne_nil _ hne]
  exact Text.getLast?_trimEnd_ne '/' base.toList

/-- The path of each group begins with a slash. -/
def AllRooted (frames : List Frame) : Prop := ∀ f ∈ frames, IsRooted (Text.trimSlashes f.base)

theorem AllRooted.cons {f : Frame} {frames : List Frame} (h : AllRooted frames)
    (hf : IsRooted (Text.trimSlashes f.base)) : AllRooted (f :: frames) :=
  List.forall_mem_cons.2 ⟨hf, h⟩

theorem trimSlashes_framesPath {frames : List Frame} (h : AllRooted frames) :
    Text.trimSlashes (framesPath frames) = framesPath frames := by
  cases frames with
  | nil => rfl
  | cons f outer => exact trimSlashes_append_trimSlashes _ _ (h f List.mem_cons_self)

theorem Route.below_of_isRooted (outermost : List Middleware) {frames : List Frame}
    (hframes : AllRooted frames) {path : String} (h : IsRooted path) :
    Route.below (framesPath frames) path (handedDown outermost frames) =
      .ok (Place.route ⟨outermost, frames, path⟩ []) := by
  have hroot : path.toList.head? = some '/' := h
  rw [Route.below, if_neg (not_isEmpty_of_isRooted h), if_neg (not_not_intro hroot),
    trimSlashes_framesPath hframes, Place.route, Place.middlewares_nil]
  rfl

theorem Route.below_of_not_isRooted {path : String} (h : ¬ IsRooted path) (base : String)
    (ms : List Middleware) : ∃ e, Route.below base path ms = .error e := by
  rw [Route.below]
  by_cases hempty : path.isEmpty
  · exact ⟨_, if_pos hempty⟩
  · exact ⟨_, (if_neg hempty).trans (if_pos h)⟩

namespace Group

/-- A group inside others, as the text says that it is. -/
def ofFrames (outermost : List Middleware) (frames : List Frame) : Group where
  base := framesPath frames
  middlewares := handedDown outermost frames

theorem below_of_isRooted {base : String} (h : IsRooted (Text.trimSlashes base)) (outer : String)
    (ms : List Middleware) :
    Group.below outer base ms =
      .ok { base := outer ++ Text.trimSlashes base, middlewares := ms } := by
  have hroot : (Text.trimSlashes base).toList.head? = some '/' := h
  rw [Group.below, if_neg (not_isEmpty_of_isRooted h), if_neg (not_not_intro hroot)]

theorem below_of_not_isRooted {base : String} (h : ¬ IsRooted (Text.trimSlashes base))
    (outer : String) (ms : List Middleware) : ∃ e, Group.below outer base ms = .error e := by
  rw [Group.below]
  by_cases hempty : (Text.trimSlashes base).isEmpty
  · exact ⟨_, if_pos hempty⟩
  · exact ⟨_, (if_neg hempty).trans (if_pos h)⟩

variable (outermost : List Middleware) (f : Frame) (outer : List Frame)

theorem addMiddlewares_ofFrames (ms : List Middleware) :
    (ofFrames outermost (f :: outer)).addMiddlewares ms =
      ofFrames outermost ({ f with added := f.added ++ ms } :: outer) :=
  congrArg (Group.mk (framesPath (f :: outer))) (List.append_assoc _ f.added ms)

variable {base : String}

theorem group_ofFrames (h : IsRooted (Text.trimSlashes base)) (given : List Middleware) :
    (ofFrames outermost (f :: outer)).group base given =
      .ok (ofFrames outermost ({ base, alone := false, given } :: f :: outer)) := by
  have hms : handedDown outermost ({ base, alone := false, given } :: f :: outer) =
      handedDown outermost (f :: outer) ++ given := List.append_nil _
  rw [group, below_of_isRooted h, ofFrames, ofFrames, hms]
  rfl

theorem groupAlone_ofFrames (h : IsRooted (Text.trimSlashes base)) (given : List Middleware) :
    (ofFrames outermost (f :: outer)).groupAlone base given =
      .ok (ofFrames outermost ({ base, alone := true, given } :: f :: outer)) := by
  have hms : handedDown outermost ({ base, alone := true, given } :: f :: outer) = given :=
    List.append_nil _
  rw [groupAlone, below_of_isRooted h, ofFrames, ofFrames, hms]
  rfl

end Group

/-! ## What a step does to an application -/

namespace App

/-- An application as it is between two steps: with these middlewares and these routes. -/
structure At (app : App) (config : AppConfig) (ms : List Middleware) (routes : List RouteInfo) :
    Prop extends Direct app where
  config_eq : app.config = config
  middlewares_eq : app.middlewares = ms
  routes_eq : app.routes = routes

variable {app : App} {config : AppConfig} {ms : List Middleware} {routes : List RouteInfo}

/-- A registration succeeds and adds its routes, or fails and adds nothing. -/
theorem At.registerAs (h : app.At config ms routes) (r : Route) (name path : String)
    (handler : Handler) (methods : List Method) :
    let s := r.submission name path handler methods
    let act := r.registerAs name path handler methods
    (s.Accepted config routes ∧
      ∃ after, app.perform act = (.ok (), after) ∧ after.At config ms (routes ++ s.infos)) ∨
    (¬ s.Accepted config routes ∧
      ∃ e after, app.perform act = (.error e, after) ∧ after.At config ms routes) := by
  intro s act
  obtain ⟨hdirect, rfl, rfl, rfl⟩ := h
  by_cases hs : s.Accepted app.config app.routes
  · obtain ⟨routers, hperform⟩ := hdirect.perform_registerAs_of_accepted hs
    have htidy := r.keeps_registerAs stable_tidy name path handler methods app hdirect.tidy
    rw [App.after, hperform] at htidy
    exact .inl ⟨hs, _, hperform, ⟨hdirect.filter, hdirect.modifier, htidy⟩, rfl, rfl, rfl⟩
  · obtain ⟨e, lines, hperform⟩ := hdirect.perform_registerAs_of_not_accepted hs
    exact .inr ⟨hs, e, _, hperform, hdirect.noteAll lines, rfl, rfl, rfl⟩

/-- A step of registration does to the list of routes what some submissions do. -/
def HandsIn (config : AppConfig) (act : Registering Unit) (ss : List Submission) : Prop :=
  ∀ (app : App) (ms : List Middleware) (routes : List RouteInfo), app.At config ms routes →
    (app.after act).At config ms (Submission.record config routes ss)

theorem HandsIn.pure : HandsIn config (Pure.pure ()) [] := fun _ _ _ h => h

theorem HandsIn.registerAs (r : Route) (name path : String) (handler : Handler)
    (methods : List Method) :
    HandsIn config (r.registerAs name path handler methods)
      [r.submission name path handler methods] := by
  intro app ms routes h
  rw [after, Submission.record]
  rcases h.registerAs r name path handler methods with
    ⟨hs, app', hperform, h'⟩ | ⟨hs, e, app', hperform, h'⟩
  · rw [hperform, if_pos hs]
    exact h'
  · rw [hperform, if_neg hs]
    exact h'

/-- What comes after a registration happens only if that has succeeded. -/
theorem HandsIn.registerAs_bind {rest : Registering Unit} {ss : List Submission}
    (hrest : HandsIn config rest ss) (r : Route) (name path : String) (handler : Handler)
    (methods : List Method) :
    HandsIn config (r.registerAs name path handler methods >>= fun _ => rest)
      (r.submission name path handler methods :: ss) := by
  intro app ms routes h
  rw [after, perform_bind, Submission.record]
  rcases h.registerAs r name path handler methods with
    ⟨hs, app', hperform, h'⟩ | ⟨hs, e, app', hperform, h'⟩
  · rw [hperform, if_pos hs]
    exact hrest _ _ _ h'
  · rw [hperform, if_neg hs]
    exact h'

variable (r : Route)

theorem handsIn_map (handlers : List (Method × Handler)) :
    HandsIn config (r.map handlers)
      (handlers.map fun entry => r.submission r.name r.path entry.2 [entry.1]) := by
  induction handlers with
  | nil => exact HandsIn.pure
  | cons entry rest ih => exact ih.registerAs_bind r _ _ _ _

theorem handsIn_resource (type : String) (handlers : List (String × Handler)) :
    HandsIn config (handlers.forM fun (kind, handler) => r.registerKind type kind handler)
      (resourceSubmissions config r.path r.submission type handlers) := by
  induction handlers with
  | nil => exact HandsIn.pure
  | cons entry rest ih =>
      obtain ⟨kind, handler⟩ := entry
      intro app ms routes h
      show (app.after (r.registerKind type kind handler >>= fun _ =>
        rest.forM fun (kind, handler) => r.registerKind type kind handler)).At config ms _
      have hconfig := h.config_eq
      rw [after, perform_bind, Route.perform_registerKind, resourceSubmissions, hconfig]
      cases config.methodMapping.value? kind with
      | none => exact ih _ _ _ h
      | some method =>
          dsimp only
          cases Method.ofName? method with
          | none => exact h
          | some method =>
              dsimp only
              have hbind := ih.registerAs_bind r (type ++ "_" ++ Text.lowercase kind)
                ((if r.path = "/" then "" else r.path) ++ "/" ++ type ++ "/" ++ Text.lowercase kind)
                handler [method] _ _ _ h
              rw [after, perform_bind] at hbind
              exact hbind

/-- For a path with a parameter or a wildcard nothing happens. -/
theorem HandsIn.requireStatic_bind {rest : Registering Unit} {ss : List Submission}
    (hrest : HandsIn config rest ss) :
    HandsIn config (r.requireStatic >>= fun _ => rest)
      (if isStaticPath r.path then ss else []) := by
  intro app ms routes h
  rw [after, perform_bind, Route.requireStatic, isStaticPath]
  cases r.path.toList.contains ':' || r.path.toList.contains '*' with
  | true => exact h
  | false => exact hrest _ _ _ h

/-- What a step with a route hands in. -/
theorem handsIn_registering (step : RouteStep) :
    HandsIn config (r.registering step) (step.submissions config r.name r.path r.submission) := by
  cases step with
  | handle handler methods => exact HandsIn.registerAs r _ _ _ _
  | any handler => exact HandsIn.registerAs r _ _ _ _
  | map handlers => exact handsIn_map r handlers
  | mapResource resource => exact handsIn_resource r _ _
  | redirect status location method =>
      rw [Route.registering, Route.redirect, RouteStep.submissions]
      by_cases hstatus : status.isRedirection
      · rw [if_pos hstatus, if_neg (by simp [hstatus])]
        exact HandsIn.registerAs r _ _ _ _
      · rw [if_neg hstatus, if_pos (by simp [hstatus])]
        intro app ms routes h
        exact h
  | staticFile file =>
      refine HandsIn.requireStatic_bind r ?_
      exact (HandsIn.registerAs r _ _ _ _).registerAs_bind r _ _ _ _
  | staticFiles fs => exact HandsIn.requireStatic_bind r (HandsIn.registerAs r _ _ _ _)
  | staticDirectory root => exact HandsIn.requireStatic_bind r (HandsIn.registerAs r _ _ _ _)
  | named | onHost | addMiddlewares | withoutMiddlewares | requireHeader => exact HandsIn.pure

end App

/-! ## What a program does to an application -/

section Programs

open App (At)

variable {app : App} {config : AppConfig} {ms : List Middleware} {routes : List RouteInfo}

theorem Place.at_build (p : Place) (before steps : List RouteStep) (h : app.At config ms routes) :
    ((p.route before).build app steps).At config ms
      ((p.sites before steps).foldl (collect config) routes) := by
  induction steps generalizing before app routes with
  | nil => exact h
  | cons step rest ih =>
      let site : Site := { p with before, step }
      have hsite : site.submissions config =
          step.submissions config (p.route before).name (p.route before).path
            (p.route before).submission := by
        rw [Site.submissions, site.submission_eq]
        rfl
      have hafter := App.handsIn_registering (p.route before) step app ms routes h
      rw [← hsite] at hafter
      rw [Route.build, ← p.route_concat, Place.sites, List.foldl_cons]
      exact ih (before ++ [step]) hafter

theorem Group.at_build (outermost : List Middleware) {outer : List Frame} {f : Frame}
    (hframes : AllRooted (f :: outer)) (program : GroupProgram) (h : app.At config ms routes) :
    ((Group.ofFrames outermost (f :: outer)).build app program).At config ms
      ((program.sites outermost outer f).foldl (collect config) routes) := by
  induction program generalizing outer f app routes with
  | done => exact h
  | addMiddlewares new rest ih =>
      have hadded : AllRooted ({ f with added := f.added ++ new } :: outer) :=
        AllRooted.cons (fun f' hf' => hframes f' (List.mem_cons_of_mem f hf'))
          (hframes f List.mem_cons_self)
      rw [Group.build, Group.addMiddlewares_ofFrames]
      exact ih hadded h
  | route path steps rest ih =>
      rw [GroupProgram.sites, List.foldl_append, Group.build]
      by_cases hpath : IsRooted path
      · have hroute : (Group.ofFrames outermost (f :: outer)).route path =
            .ok (Place.route ⟨outermost, f :: outer, path⟩ []) :=
          Route.below_of_isRooted outermost hframes hpath
        rw [hroute, if_pos hpath]
        exact ih hframes (Place.at_build _ [] steps h)
      · obtain ⟨e, he⟩ : ∃ e, (Group.ofFrames outermost (f :: outer)).route path = .error e :=
          Route.below_of_not_isRooted hpath _ _
        rw [he, if_neg hpath]
        exact ih hframes h
  | group base given inner rest ihInner ih =>
      rw [GroupProgram.sites, List.foldl_append, Group.build]
      by_cases hbase : IsRooted (Text.trimSlashes base)
      · rw [Group.group_ofFrames outermost f outer hbase, if_pos hbase]
        exact ih hframes (ihInner (AllRooted.cons hframes hbase) h)
      · obtain ⟨e, he⟩ : ∃ e, (Group.ofFrames outermost (f :: outer)).group base given =
            .error e := Group.below_of_not_isRooted hbase _ _
        rw [he, if_neg hbase]
        exact ih hframes h
  | groupAlone base given inner rest ihInner ih =>
      rw [GroupProgram.sites, List.foldl_append, Group.build]
      by_cases hbase : IsRooted (Text.trimSlashes base)
      · rw [Group.groupAlone_ofFrames outermost f outer hbase, if_pos hbase]
        exact ih hframes (ihInner (AllRooted.cons hframes hbase) h)
      · obtain ⟨e, he⟩ : ∃ e, (Group.ofFrames outermost (f :: outer)).groupAlone base given =
            .error e := Group.below_of_not_isRooted hbase _ _
        rw [he, if_neg hbase]
        exact ih hframes h

/-- A step that sets no filter and no modifier and adds no routes that are made already. -/
def AppStep.IsPlain : AppStep → Prop
  | .setFilter _ | .setModifier _ | .addRoutes _ => False
  | _ => True

theorem App.at_build (steps : List AppStep) (hplain : ∀ step ∈ steps, step.IsPlain)
    (h : app.At config ms routes) :
    ∃ ms', (app.build steps).At config ms'
      ((App.sites ms steps).foldl (collect config) routes) := by
  induction steps generalizing app ms routes with
  | nil => exact ⟨ms, h⟩
  | cons step rest ih =>
      obtain ⟨hstep, hrest⟩ := List.forall_mem_cons.1 hplain
      rw [App.build, List.foldl_cons, ← App.build]
      have hms : app.middlewares = ms := h.middlewares_eq
      cases step with
      | addMiddlewares new =>
          refine ih hrest ⟨⟨h.filter, h.modifier, h.tidy⟩, h.config_eq, ?_, h.routes_eq⟩
          rw [← hms]
          rfl
      | route path steps =>
          rw [App.sites, List.foldl_append, App.take]
          by_cases hpath : IsRooted path
          · have hroute : app.route path = .ok (Place.route ⟨ms, [], path⟩ []) := by
              rw [App.route, hms]
              exact Route.below_of_isRooted ms (fun _ hf => absurd hf List.not_mem_nil) hpath
            rw [hroute, if_pos hpath]
            exact ih hrest (Place.at_build _ [] steps h)
          · obtain ⟨e, he⟩ : ∃ e, app.route path = .error e :=
              Route.below_of_not_isRooted hpath _ _
            rw [he, if_neg hpath]
            exact ih hrest h
      | group base program =>
          rw [App.sites, List.foldl_append, App.take]
          by_cases hbase : IsRooted (Text.trimSlashes base)
          · let f : Frame := { base, alone := false, given := [] }
            have hgroup : app.group base = .ok (Group.ofFrames ms [f]) := by
              have hhanded : handedDown ms [f] = ms := by
                simp [handedDown, f]
              rw [App.group, hms, Group.below_of_isRooted hbase, Group.ofFrames, hhanded]
              rfl
            have hframes : AllRooted [f] :=
              AllRooted.cons (fun _ hf => absurd hf List.not_mem_nil) hbase
            rw [hgroup, if_pos hbase]
            exact ih hrest (Group.at_build ms hframes program h)
          · obtain ⟨e, he⟩ : ∃ e, app.group base = .error e :=
              Group.below_of_not_isRooted hbase _ _
            rw [he, if_neg hbase]
            exact ih hrest h
      | addPre new =>
          exact ih hrest ⟨⟨h.filter, h.modifier, h.tidy⟩, h.config_eq, hms, h.routes_eq⟩
      | setNotFound handler =>
          exact ih hrest ⟨⟨h.filter, h.modifier, h.tidy⟩, h.config_eq, hms, h.routes_eq⟩
      | setFilter | setModifier | addRoutes => cases hstep

end Programs

/-- What is recorded comes from a submission, or was there before. -/
theorem Submission.mem_record {config : AppConfig} {routes : List RouteInfo}
    {ss : List Submission} {info : RouteInfo} (h : info ∈ record config routes ss) :
    info ∈ routes ∨ ∃ s ∈ ss, info ∈ s.infos := by
  induction ss generalizing routes with
  | nil => exact .inl h
  | cons s rest ih =>
      rw [record] at h
      by_cases hs : s.Accepted config routes
      · rw [if_pos hs] at h
        rcases ih h with hold | ⟨s', hs', hinfo⟩
        · rcases List.mem_append.1 hold with hold | hnew
          · exact .inl hold
          · exact .inr ⟨s, List.mem_cons_self, hnew⟩
        · exact .inr ⟨s', List.mem_cons_of_mem s hs', hinfo⟩
      · rw [if_neg hs] at h
        exact .inl h

theorem mem_foldl_collect {config : AppConfig} {routes : List RouteInfo} {l : List Site}
    {info : RouteInfo} (h : info ∈ l.foldl (collect config) routes) :
    info ∈ routes ∨ ∃ site ∈ l, ∃ s ∈ site.submissions config, info ∈ s.infos := by
  induction l generalizing routes with
  | nil => exact .inl h
  | cons site rest ih =>
      rcases ih h with hold | ⟨site', hsite', hrest⟩
      · rcases Submission.mem_record hold with hold | hnew
        · exact .inl hold
        · exact .inr ⟨site, List.mem_cons_self, hnew⟩
      · exact .inr ⟨site', List.mem_cons_of_mem site hsite', hrest⟩

namespace App

/-- A program without a filter and a modifier registers what can be read off its text. The list of
routes is made by going through the sites of the program in order and adding the routes of all that
each hands in, unless that is refused. So every listed route has the chain of a site around its
handler and the path of the site, and the routers hold these routes and nothing else.

What is handed in to an application that is built in this way is refused exactly if the chain around
the handler is too long, if there is no method, if the path cannot be read, or if the routes clash
with each other or with one that is listed (`Submission.Accepted`). Then the application stays as it
is, except that lines may be noted when a chain of the right length has been put around the
handler. -/
theorem build_routes (config : AppConfig) (steps : List AppStep)
    (hplain : ∀ step ∈ steps, step.IsPlain) :
    let app := ({ config } : App).build steps
    app.routes = (sites [] steps).foldl (collect config) [] ∧
    Listed app.routers app.routes ∧
    (∀ info ∈ app.routes, ∃ site ∈ sites [] steps,
      (∃ handler : Handler, info.handler = handler.compose site.chain) ∧
        info.host = hostOf site.before ∧ (¬ site.step.goesBelow → info.path = site.path)) ∧
    ∀ (r : Route) (name path : String) (handler : Handler) (methods : List Method),
      let s := r.submission name path handler methods
      let result := app.perform (r.registerAs name path handler methods)
      (s.Accepted config app.routes →
        result.1 = .ok () ∧ result.2.routes = app.routes ++ s.infos) ∧
      (¬ s.Accepted config app.routes → ∃ e lines, result = (.error e, app.noteAll lines)) ∧
      (config.middlewareMax.toNat < r.chain.length → ∃ e, result = (.error e, app)) := by
  intro app
  have hempty : ({ config } : App).At config [] [] := ⟨⟨rfl, rfl, tidy_nil⟩, rfl, rfl, rfl⟩
  obtain ⟨ms, happ⟩ := App.at_build steps hplain hempty
  have hroutes : app.routes = (sites [] steps).foldl (collect config) [] := happ.routes_eq
  have hconfig : app.config = config := happ.config_eq
  refine ⟨hroutes, happ.tidy.listed, ?_, ?_⟩
  · intro info hinfo
    rw [hroutes] at hinfo
    rcases mem_foldl_collect hinfo with hold | ⟨site, hsite, s, hs, hinfo⟩
    · cases hold
    · exact ⟨site, hsite, Site.of_mem_infos hs hinfo⟩
  · intro r name path handler methods s result
    refine ⟨?_, ?_, ?_⟩
    · intro hs
      rw [← hconfig] at hs
      obtain ⟨routers, hperform⟩ := happ.toDirect.perform_registerAs_of_accepted hs
      have hresult : result = _ := hperform
      rw [hresult]
      exact ⟨rfl, rfl⟩
    · intro hs
      rw [← hconfig] at hs
      exact happ.toDirect.perform_registerAs_of_not_accepted hs
    · intro hlong
      rw [← hconfig] at hlong
      exact app.perform_registerAs_of_lt hlong

/-- Groups inside each other, one of which leaves out the middlewares around it, and a route that
drops those of the application. -/
theorem build_routes_nested_groups :
    let h : Handler := .text .ok "h"
    let steps : List AppStep :=
      [.addMiddlewares [.tag "a"],
        .group "/v1/" (.addMiddlewares [.tag "b"]
          (.group "/users" [.tag "c"]
            (.route "/:id"
              [.addMiddlewares [.tag "d"], .requireHeader "Key" [], .handle h [.get]] .done)
            (.addMiddlewares [.tag "e"]
              (.groupAlone "/admin//" [.tag "f"] (.route "/" [.handle h [.get]] .done) .done)))),
        .route "/plain"
          [.addMiddlewares [.tag "g"], .withoutMiddlewares, .addMiddlewares [.tag "i"],
            .handle h [.get]]]
    (({} : App).build steps).routes =
      [⟨"", "", "/v1/users/:id", .get, h.compose
          [.tag "a", .tag "b", .tag "c", .tag "d", HeaderCheck.middleware [⟨"key", []⟩]]⟩,
        ⟨"", "", "/v1/admin/", .get, h.compose [.tag "f"]⟩,
        ⟨"", "", "/plain", .get, h.compose [.tag "i"]⟩] := by
  intro h steps
  have hplain : ∀ step ∈ steps, step.IsPlain := by
    simp [steps, AppStep.IsPlain]
  -- what the three handlers hand in, one after another
  let users : Submission := ⟨"", "", "/v1/users/:id", h, [.get],
    [.tag "a", .tag "b", .tag "c", .tag "d", HeaderCheck.middleware [⟨"key", []⟩]]⟩
  let admin : Submission := ⟨"", "", "/v1/admin/", h, [.get], [.tag "f"]⟩
  let top : Submission := ⟨"", "", "/plain", h, [.get], [.tag "i"]⟩
  have husers : users.Accepted {} [] := by decide +zetaReduce
  have hadmin : admin.Accepted {} users.infos := by decide +zetaReduce
  have htop : top.Accepted {} (users.infos ++ admin.infos) := by decide +zetaReduce
  have hsites : (sites [] steps).foldl (collect {}) [] =
      Submission.record {} (Submission.record {} (Submission.record {} [] [users]) [admin]) [top] :=
    rfl
  rw [(build_routes {} steps hplain).1, hsites]
  simp only [Submission.record, if_pos husers, List.nil_append, if_pos hadmin, if_pos htop]
  rfl

end App

end Switchboard
