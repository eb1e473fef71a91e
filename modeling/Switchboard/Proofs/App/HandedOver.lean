import Switchboard.App.Dispatcher
import Switchboard.Proofs.App.Program
import Switchboard.Proofs.Handling.Passage

set_option autoImplicit false

/-! # Requests that are handed over

A handler can hand a request over to the not-found handler of the application, and so can the
not-found handler itself. Whether a request gets a response at all depends on that handler alone:
actions are finite, so a request is left without a response only if one is handed over that the
not-found handler hands over again (`App.exists_response_iff`). Such a request comes back to the
same handler in the same context, and so without end.
-/

namespace Switchboard

namespace Action

variable {α : Type}

variable (disk : Disk) (answer : Context → Option (Reply × List String))

/-- The requests that an action hands over while they are answered by `answer`, up to the first one
without an answer. -/
def handedOver : Action α → List Context
  | .done _ => []
  | .note _ next => next.handedOver
  | .inspect path next => (next (disk.entry path)).handedOver
  | .list path next => (next (disk.children path)).handedOver
  | .handOver ctx next =>
    ctx :: match answer ctx with
      | some handed => (next handed.1).handedOver
      | none => []

/-- A request that is handed over without an answer is the only thing that an action cannot get
past. -/
theorem run_eq_none_iff (act : Action α) :
    act.run disk answer = none ↔ ∃ ctx ∈ act.handedOver disk answer, answer ctx = none := by
  induction act with
  | done value => simp [run, handedOver]
  | note line next ih => rw [run, Option.map_eq_none_iff, ih, handedOver]
  | inspect path next ih => rw [run, ih, handedOver]
  | list path next ih => rw [run, ih, handedOver]
  | handOver ctx next ih =>
      rw [run, handedOver]
      cases hanswer : answer ctx with
      | none => simp [hanswer]
      | some handed =>
          have hrun : ((next handed.1).run disk answer).bind
                (fun r => some (r.1, handed.2 ++ r.2)) = none ↔
              (next handed.1).run disk answer = none := by
            cases (next handed.1).run disk answer <;> simp
          simpa [hanswer, ih] using hrun

variable {disk answer}

/-- More answers change no result. -/
theorem run_mono {more : Context → Option (Reply × List String)}
    (hmore : ∀ ctx r, answer ctx = some r → more ctx = some r) (act : Action α)
    {r : α × List String} (h : act.run disk answer = some r) : act.run disk more = some r := by
  induction act generalizing r with
  | done value => exact h
  | note line next ih =>
      obtain ⟨inner, hinner, rfl⟩ := Option.map_eq_some_iff.1 h
      rw [run, ih hinner, Option.map_some]
  | inspect path next ih => exact ih _ h
  | list path next ih => exact ih _ h
  | handOver ctx next ih =>
      obtain ⟨handed, hanswer, hnext⟩ := Option.bind_eq_some_iff.1 h
      obtain ⟨inner, hinner, hr⟩ := Option.bind_eq_some_iff.1 hnext
      show (more ctx).bind _ = some r
      rw [hmore _ _ hanswer, Option.bind_some, ih _ hinner]
      exact hr

end Action

namespace Handler

/-! ## Not-found handlers -/

/-- The handler replies to a request by itself: the reply is the same however handed-over requests
are answered. -/
def Settles (h : Handler) (disk : Disk) (ctx : Context) : Prop :=
  ∃ r, ∀ answer, (h ctx).run disk answer = some r

/-- The handler hands the request over as it is and makes its reply out of the answer. -/
def Delegates (h : Handler) (disk : Disk) (ctx : Context) : Prop :=
  ∃ finish, ∀ answer, (h ctx).run disk answer = (answer ctx).map finish

/-- What can be said of a handler that answers every request, with a response or a failure, or
hands it over. -/
def SettlesOrDelegates (h : Handler) : Prop := ∀ disk ctx, h.Settles disk ctx ∨ h.Delegates disk ctx

theorem settles_const (reply : Reply) (disk : Disk) (ctx : Context) :
    (const reply).Settles disk ctx := ⟨(reply, []), fun _ => rfl⟩

theorem handedOver_handOver (disk : Disk) (answer : Context → Option (Reply × List String))
    (ctx : Context) : (handOver ctx).handedOver disk answer = [ctx] := by
  rw [handOver, Action.handedOver]
  cases answer ctx <;> rfl

theorem delegates_handOver (disk : Disk) (ctx : Context) : handOver.Delegates disk ctx := by
  refine ⟨fun r => (r.1, r.2 ++ []), fun answer => ?_⟩
  show (answer ctx).bind _ = _
  cases answer ctx <;> rfl

variable {notFound : Handler} {disk : Disk} {ctx : Context}

theorem Delegates.not_settles (h : notFound.Delegates disk ctx) : ¬ notFound.Settles disk ctx := by
  obtain ⟨finish, hfinish⟩ := h
  rintro ⟨r, hr⟩
  have hnone := hfinish fun _ => none
  rw [hr] at hnone
  cases hnone

/-- A request that comes back to the not-found handler has no answer, however often it may come
back. -/
theorem Delegates.answerWithin_eq_none (h : notFound.Delegates disk ctx) (depth : Nat) :
    notFound.answerWithin disk depth ctx = none := by
  obtain ⟨finish, hfinish⟩ := h
  induction depth with
  | zero => rfl
  | succ depth ih => rw [answerWithin, hfinish, ih, Option.map_none]

theorem Settles.answerWithin_ne_none (h : notFound.Settles disk ctx) (depth : Nat) :
    notFound.answerWithin disk (depth + 1) ctx ≠ none := by
  obtain ⟨r, hr⟩ := h
  rw [answerWithin, hr]
  exact Option.some_ne_none r

/-- To let requests come back more than once changes no answer. -/
theorem SettlesOrDelegates.answerWithin_succ (h : notFound.SettlesOrDelegates) (disk : Disk)
    (depth : Nat) : notFound.answerWithin disk (depth + 1) = notFound.answerWithin disk 1 := by
  funext ctx
  rcases h disk ctx with ⟨r, hr⟩ | hdelegates
  · rw [answerWithin, hr, answerWithin, hr]
  · rw [hdelegates.answerWithin_eq_none, hdelegates.answerWithin_eq_none]

/-- What the not-found handler does may depend on the request. -/
theorem SettlesOrDelegates.ite {first second : Handler} (p : Context → Prop) [DecidablePred p]
    (hfirst : first.SettlesOrDelegates) (hsecond : second.SettlesOrDelegates) :
    SettlesOrDelegates fun ctx => if p ctx then first ctx else second ctx := by
  intro disk ctx
  by_cases hp : p ctx
  · simpa only [Settles, Delegates, if_pos hp] using hfirst disk ctx
  · simpa only [Settles, Delegates, if_neg hp] using hsecond disk ctx

theorem SettlesOrDelegates.answerWithin_eq_none_iff (h : notFound.SettlesOrDelegates)
    (depth : Nat) : notFound.answerWithin disk (depth + 1) ctx = none ↔
      ¬ notFound.Settles disk ctx := by
  refine ⟨fun hnone hsettles => hsettles.answerWithin_ne_none depth hnone, fun hsettles => ?_⟩
  exact ((h disk ctx).resolve_left hsettles).answerWithin_eq_none _

end Handler

/-! ## Responses -/

namespace App

variable {app : App}

/-- A request is dispatched alike however often requests may come back to the not-found handler. -/
theorem dispatch?_succ (h : app.notFound.SettlesOrDelegates) (disk : Disk) (depth : Nat)
    (request : Request) : app.dispatcher.dispatch? disk (depth + 1) request =
      app.dispatcher.dispatch? disk 1 request := by
  have hanswer : app.dispatcher.notFound.answerWithin disk (depth + 1) =
      app.dispatcher.notFound.answerWithin disk 1 := h.answerWithin_succ disk depth
  rw [Dispatcher.dispatch?, Dispatcher.reply?, hanswer, Dispatcher.dispatch?, Dispatcher.reply?]

theorem dispatch?_eq_none_iff (disk : Disk) (depth : Nat) (request : Request) :
    app.dispatcher.dispatch? disk depth request = none ↔
      ∃ ctx ∈ (app.dispatcher.handler { request }).handedOver disk
          (app.notFound.answerWithin disk depth),
        app.notFound.answerWithin disk depth ctx = none := by
  rw [Dispatcher.dispatch?, Option.map_eq_none_iff, Dispatcher.reply?, Action.run_eq_none_iff]
  rfl

theorem exists_response_iff_ne_none (h : app.notFound.SettlesOrDelegates) (disk : Disk)
    (request : Request) : (∃ depth r, app.dispatcher.dispatch? disk depth request = some r) ↔
      app.dispatcher.dispatch? disk 1 request ≠ none := by
  constructor
  · rintro ⟨depth, r, hr⟩ hnone
    cases depth with
    | succ depth =>
        rw [dispatch?_succ h, hnone] at hr
        cases hr
    | zero =>
        obtain ⟨reply, hreply, -⟩ := Option.map_eq_some_iff.1 hr
        -- at depth zero nothing that is handed over has an answer
        have hmore : app.dispatcher.reply? disk 1 request = some reply :=
          Action.run_mono (fun ctx r hanswer => by cases hanswer) _ hreply
        rw [Dispatcher.dispatch?, hmore] at hnone
        cases hnone
  · intro hne
    exact ⟨1, Option.ne_none_iff_exists'.1 hne⟩

/-- Let the not-found handler reply to each request by itself, with a response or a failure, or hand
it over, which may depend on the request. Whatever the other handlers and the middlewares do, a
request gets a response if and only if the not-found handler itself replies to all that is handed
over on the way. It then gets it without a request that comes back to the not-found handler. So
every request gets a response if the not-found handler hands nothing over. A request that matches no
route, in an application without middlewares around routing, gets a response if and only if the
not-found handler replies to it. -/
theorem exists_response_iff (h : app.notFound.SettlesOrDelegates) (disk : Disk)
    (request : Request) :
    ((∃ depth r, app.dispatcher.dispatch? disk depth request = some r) ↔
      ∀ ctx ∈ (app.dispatcher.handler { request }).handedOver disk
        (app.notFound.answerWithin disk 1), app.notFound.Settles disk ctx) ∧
    ((∃ depth r, app.dispatcher.dispatch? disk depth request = some r) →
      ∃ r, ∀ depth, app.dispatcher.dispatch? disk (depth + 1) request = some r) ∧
    ((∀ ctx, app.notFound.Settles disk ctx) →
      ∃ r, ∀ depth, app.dispatcher.dispatch? disk (depth + 1) request = some r) ∧
    (app.pre = [] → resolve app.routers { request } = .notFound →
      ((∃ depth r, app.dispatcher.dispatch? disk depth request = some r) ↔
        app.notFound.Settles disk { request })) := by
  have hiff : (∃ depth r, app.dispatcher.dispatch? disk depth request = some r) ↔
      ∀ ctx ∈ (app.dispatcher.handler { request }).handedOver disk
        (app.notFound.answerWithin disk 1), app.notFound.Settles disk ctx := by
    rw [exists_response_iff_ne_none h, Ne, dispatch?_eq_none_iff]
    simp only [h.answerWithin_eq_none_iff 0, not_exists, not_and, Classical.not_not]
  have honce : (∃ depth r, app.dispatcher.dispatch? disk depth request = some r) →
      ∃ r, ∀ depth, app.dispatcher.dispatch? disk (depth + 1) request = some r := by
    intro hresponse
    obtain ⟨r, hr⟩ := Option.ne_none_iff_exists'.1 ((exists_response_iff_ne_none h _ _).1 hresponse)
    exact ⟨r, fun depth => (dispatch?_succ h disk depth request).trans hr⟩
  refine ⟨hiff, honce, fun hsettles => honce (hiff.2 fun ctx _ => hsettles ctx), ?_⟩
  intro hpre hnone
  have hhandler : app.dispatcher.handler { request } = Handler.handOver { request } := by
    show (routing app.routers).compose app.pre { request } = _
    rw [hpre, Handler.compose_nil, routing, hnone]
  rw [hiff, hhandler, Handler.handedOver_handOver]
  simp

/-- A route that hands over to a not-found handler that hands over what is asked for by `GET`. -/
theorem exists_response_iff_by_method :
    let app := ({} : App).build
      [.setNotFound fun ctx =>
          if ctx.request.method = .get then Handler.handOver ctx else Handler.missing ctx,
        .route "/a" [.handle .handOver [.get, .delete]]]
    let uri : Uri := ⟨none, none, "/a", none⟩
    app.notFound.SettlesOrDelegates ∧ ∀ disk,
      (¬ ∃ depth r, app.dispatcher.dispatch? disk depth { method := .get, uri } = some r) ∧
      ∃ r, ∀ depth,
        app.dispatcher.dispatch? disk (depth + 1) { method := .delete, uri } = some r := by
  intro app uri
  have hkinds : app.notFound.SettlesOrDelegates :=
    .ite (fun ctx => ctx.request.method = .get)
      (fun disk ctx => .inr (Handler.delegates_handOver disk ctx))
      (fun disk ctx => .inl (Handler.settles_const _ disk ctx))
  refine ⟨hkinds, fun disk => ⟨?_, ?_⟩⟩
  · obtain ⟨hiff, -⟩ := exists_response_iff hkinds disk { method := .get, uri }
    have hhandler : app.dispatcher.handler { request := { method := .get, uri } } =
        Handler.handOver { request := { method := .get, uri } } := by
      simp only [uri]
      rfl
    have hget : app.notFound.Delegates disk { request := { method := .get, uri } } :=
      Handler.delegates_handOver disk { request := { method := .get, uri } }
    rw [hiff, hhandler, Handler.handedOver_handOver]
    exact fun hall => hget.not_settles (hall _ (List.mem_singleton.2 rfl))
  · obtain ⟨hiff, honce, -⟩ := exists_response_iff hkinds disk { method := .delete, uri }
    have hhandler : app.dispatcher.handler { request := { method := .delete, uri } } =
        Handler.handOver { request := { method := .delete, uri } } := by
      simp only [uri]
      rfl
    have hdelete : app.notFound.Settles disk { request := { method := .delete, uri } } :=
      Handler.settles_const (.error .notFound) disk { request := { method := .delete, uri } }
    refine honce (hiff.2 fun ctx hctx => ?_)
    rw [hhandler, Handler.handedOver_handOver, List.mem_singleton] at hctx
    rw [hctx]
    exact hdelete

/-- A request that matches no route, for a not-found handler that hands every request over. -/
theorem not_exists_response_handOver :
    let app := ({} : App).build [.setNotFound .handOver]
    app.notFound.SettlesOrDelegates ∧ ∀ disk,
      ¬ ∃ depth r, app.dispatcher.dispatch? disk depth { uri := ⟨none, none, "/x", none⟩ } =
        some r := by
  intro app
  refine ⟨fun disk ctx => .inr (Handler.delegates_handOver disk ctx), fun disk => ?_⟩
  rintro ⟨depth, r, hr⟩
  have hnone : app.dispatcher.dispatch? disk depth { uri := ⟨none, none, "/x", none⟩ } = none := by
    rw [dispatch?_eq_none_iff]
    refine ⟨{ request := { uri := ⟨none, none, "/x", none⟩ } }, ?_,
      (Handler.delegates_handOver disk _).answerWithin_eq_none depth⟩
    show _ ∈ (Handler.handOver _).handedOver disk _
    rw [Handler.handedOver_handOver]
    exact List.mem_singleton.2 rfl
  rw [hnone] at hr
  cases hr

end App

end Switchboard
