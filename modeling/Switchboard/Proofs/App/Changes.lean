import Switchboard.Proofs.App.Scan
import Switchboard.Proofs.Handling.Passage

set_option autoImplicit false

/-! # Requests that are changed on the way

A middleware can change the request and call the next handler (`Middleware.Edits`). Around routing
this decides what is routed: the response is the one that the changed request gets without these
middlewares. On a route it comes too late for that: the route is selected and its parameters are
bound, and only what the handler sees of the request is another (`App.Reached.dispatch?_of_edits`).
-/

namespace Switchboard

/-! ## Changes -/

/-- A change to the request of a context. It may look at the disk and note lines. -/
abbrev Edit := Context → Action Request

namespace Edit

/-- Changes one after another, with these parameters bound. -/
def all (params : Params) : List Edit → Request → Action Request
  | [], request => pure request
  | edit :: rest, request => do all params rest (← edit { request, params })

/-- A change that depends on the request only and does nothing else. -/
def plain (f : Request → Request) : Edit := fun ctx => pure (f ctx.request)

theorem all_plain (params : Params) (fs : List (Request → Request)) (request : Request) :
    all params (fs.map plain) request = pure (fs.foldl (fun request f => f request) request) := by
  induction fs generalizing request with
  | nil => rfl
  | cons f fs ih =>
      rw [List.map_cons, all, plain, pure_bind, ih]
      rfl

end Edit

namespace Middleware

/-- The middleware changes the request and calls the next handler. -/
def Edits (m : Middleware) (edit : Edit) : Prop :=
  ∀ next ctx, m.wrap next ctx = edit ctx >>= fun request => next { ctx with request }

theorem edits_change {edit : Request → Except Failure Request} {f : Request → Request}
    (h : ∀ request, edit request = .ok (f request)) : (change edit).Edits (.plain f) := by
  intro next ctx
  simp only [change, h]
  rfl

theorem edits_retarget (uri : Uri) : (retarget uri).Edits (.plain fun r => { r with uri }) :=
  edits_change fun _ => rfl

theorem edits_setMethod (method : Method) :
    (setMethod method).Edits (.plain fun r => { r with method }) :=
  edits_change fun _ => rfl

theorem edits_setHeader {name value n : String} (hname : Headers.name? name = some n)
    (hvalue : Headers.isValue value) : (setHeader name value).Edits
      (.plain fun r => { r with headers := r.headers.replace n value }) := by
  refine edits_change fun request => ?_
  rw [hname]
  exact if_pos hvalue

end Middleware

open Middleware (Edits)

/-- A handler inside middlewares that change the request is called for what they make of it, with
the parameters that came in. -/
theorem Handler.compose_edits {ms : List Middleware} {edits : List Edit}
    (h : List.Forall₂ Edits ms edits) (inner : Handler) (ctx : Context) :
    inner.compose ms ctx =
      Edit.all ctx.params edits ctx.request >>= fun request => inner { ctx with request } := by
  induction h generalizing ctx with
  | nil => rfl
  | cons hm _ ih =>
      rw [compose_cons, hm, Edit.all, bind_assoc]
      exact bind_congr fun request => ih { ctx with request }

/-! ## Dispatching -/

namespace App

/-- The same application without middlewares around routing. -/
def withoutPre (app : App) : App := { app with pre := [] }

variable {app : App} {edits : List Edit}

/-- Changes around routing come before all that is done without them, and so do their lines. -/
theorem reply?_of_edits (hpre : List.Forall₂ Edits app.pre edits) (disk : Disk) (depth : Nat)
    (request : Request) :
    app.dispatcher.reply? disk depth request =
      ((Edit.all [] edits request).run disk (app.notFound.answerWithin disk depth)).bind
        fun changed => (app.withoutPre.dispatcher.reply? disk depth changed.1).map
          fun r => (r.1, changed.2 ++ r.2) := by
  show ((routing app.routers).compose app.pre { request }).run disk _ = _
  rw [Handler.compose_edits hpre, Action.run_bind]
  rfl

theorem dispatch?_of_edits (hpre : List.Forall₂ Edits app.pre edits) (disk : Disk) (depth : Nat)
    (request : Request) :
    app.dispatcher.dispatch? disk depth request =
      ((Edit.all [] edits request).run disk (app.notFound.answerWithin disk depth)).bind
        fun changed => (app.withoutPre.dispatcher.dispatch? disk depth changed.1).map
          fun r => (r.1, changed.2 ++ r.2) := by
  rw [Dispatcher.dispatch?, reply?_of_edits hpre, Option.map_bind]
  simp only [Function.comp_def, Dispatcher.dispatch?, Option.map_map]

/-- Changes on a route come after it has been selected. Whatever middlewares stand before them, the
handler of the route is called for the changed request with the parameters that have come so far. -/
theorem reply?_of_found_edits {before ms : List Middleware} {inner : Handler} {params : Params}
    {request : Request} (hms : List.Forall₂ Edits ms edits)
    (hfound : resolve app.routers { request } = .found (inner.compose (before ++ ms)) params)
    (disk : Disk) (depth : Nat) :
    app.withoutPre.dispatcher.reply? disk depth request =
      (Handler.compose (fun ctx => Edit.all ctx.params edits ctx.request >>= fun request =>
        inner { ctx with request }) before { request, params }).run disk
          (app.notFound.answerWithin disk depth) := by
  have hinner : inner.compose ms = fun ctx =>
      Edit.all ctx.params edits ctx.request >>= fun request => inner { ctx with request } := by
    funext ctx
    exact Handler.compose_edits hms inner ctx
  have hroute : resolve app.withoutPre.routers { request } =
      .found (inner.compose (before ++ ms)) params := hfound
  rw [reply?_of_pre_nil rfl, hroute, Handler.compose_append, hinner]
  rfl

/-- Middlewares around routing that change the request decide what is routed. With them an
application gives the same response to a request as without them to the changed request: the one
that the changes make of it in the order of the list, whatever they look at and note on the way.
What the changed request gets is what the listed routes of its own host resolve its own method and
path to, be it a handler with parameters, a list of methods, or the not-found handler.

A change that is made by a middleware of the selected route is of no account for this. Wherever it
stands among the others, it hands the request on to the handler of this very route, with the
parameters that were bound before. -/
theorem Reached.routing_follows_edits (happ : app.Reached) :
    (∀ edits, List.Forall₂ Edits app.pre edits → ∀ disk depth request,
      app.dispatcher.dispatch? disk depth request =
        ((Edit.all [] edits request).run disk (app.notFound.answerWithin disk depth)).bind
          fun changed => (app.withoutPre.dispatcher.dispatch? disk depth changed.1).map
            fun r => (r.1, changed.2 ++ r.2)) ∧
    (∀ fs : List (Request → Request), List.Forall₂ Edits app.pre (fs.map .plain) →
      ∀ disk depth request, app.dispatcher.dispatch? disk depth request =
        app.withoutPre.dispatcher.dispatch? disk depth
          (fs.foldl (fun request f => f request) request)) ∧
    (∀ disk depth (request : Request), ∃ host result,
      Selects app.routes ((Context.host? { request }).getD "") host ∧
      Resolves (entriesOf app.routes host) request.method request.uri.path result ∧
      app.withoutPre.dispatcher.reply? disk depth request =
        app.answer disk depth request result) ∧
    ∀ (before ms : List Middleware) (edits : List Edit) (inner : Handler) (params : Params)
      (request : Request), List.Forall₂ Edits ms edits →
      resolve app.routers { request } = .found (inner.compose (before ++ ms)) params →
      ∀ disk depth, app.withoutPre.dispatcher.reply? disk depth request =
        (Handler.compose (fun ctx => Edit.all ctx.params edits ctx.request >>= fun request =>
          inner { ctx with request }) before { request, params }).run disk
            (app.notFound.answerWithin disk depth) := by
  refine ⟨fun edits hpre => dispatch?_of_edits hpre, ?_, ?_, ?_⟩
  · intro fs hpre disk depth request
    rw [dispatch?_of_edits hpre, Edit.all_plain]
    show (app.withoutPre.dispatcher.dispatch? disk depth _).map _ = _
    simp only [List.nil_append, Prod.mk.eta, Option.map_id']
  · intro disk depth request
    obtain ⟨host, hs⟩ := exists_selects app.routes ((Context.host? { request }).getD "")
    exact ⟨host, _, hs, (happ.of_stable stable_listed).resolves hs,
      reply?_of_pre_nil rfl disk depth request⟩
  · intro before ms edits inner params request hms hfound disk depth
    exact reply?_of_found_edits hms hfound disk depth

/-- A request that is given another target, host and method before it is routed, and one more target
on its route. -/
theorem routing_follows_edits_twice :
    let app := ({} : App).build
      [.addPre [.retarget ⟨none, some "example.com:80", "/v1/b", none⟩, .setMethod .post],
        .route "/v1/:id" [.onHost "Example.com",
          .addMiddlewares [.tag "a", .retarget ⟨none, none, "/other", none⟩],
          .handle (.echo .ok "") [.post]],
        .route "/other" [.any (.text .ok "other")]]
    let request : Request := { uri := ⟨none, none, "/a", none⟩ }
    let changed : Request :=
      { method := .post, uri := ⟨none, some "example.com:80", "/v1/b", none⟩ }
    List.Forall₂ Edits app.pre
        ([fun r => { r with uri := changed.uri }, fun r => { r with method := .post }].map .plain) ∧
      ∀ disk depth,
        app.dispatcher.dispatch? disk depth request =
          app.withoutPre.dispatcher.dispatch? disk depth changed ∧
        app.withoutPre.dispatcher.reply? disk depth changed =
          some (.ok (.text .ok "POST /other\nid=b"), ["a>", "a<200"]) := by
  intro app request changed
  have hreached : app.Reached := ⟨{}, _, rfl⟩
  have hpre : List.Forall₂ Edits app.pre
      ([fun r => { r with uri := changed.uri }, fun r => { r with method := .post }].map .plain) :=
    .cons (Middleware.edits_retarget changed.uri) (.cons (Middleware.edits_setMethod .post) .nil)
  have hroute := List.Forall₂.cons (Middleware.edits_retarget ⟨none, none, "/other", none⟩) .nil
  have hhost : Context.host? { request := changed } = some "example.com:80" := by decide +kernel
  have hdecode : Text.Percent.decode "b" = "b" := by decide +kernel
  have hfound : resolve app.routers { request := changed } =
      .found (Handler.compose (.echo .ok "")
        ([.tag "a"] ++ [.retarget ⟨none, none, "/other", none⟩])) [("id", "b")] := by
    rw [resolve, hhost, ← hdecode]
    simp only [changed]
    rfl
  obtain ⟨-, hplain, -, hfollow⟩ := hreached.routing_follows_edits
  refine ⟨hpre, fun disk depth => ⟨hplain _ hpre disk depth request, ?_⟩⟩
  rw [hfollow _ _ _ _ _ _ hroute hfound disk depth]
  simp only [changed]
  rfl

end App

end Switchboard
