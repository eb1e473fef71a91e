import Switchboard.Proofs.App.HeaderChecks
import Switchboard.Proofs.Static.Confinement
import Switchboard.Proofs.Static.Digests

set_option autoImplicit false

/-! # What `HEAD` says about `GET`

A response to `HEAD` describes one to `GET` if both are fine and it has the same fields without the
body, or if both fail alike (`Response.Describes`). The handlers for static files look at the method
only when they answer, so that for one state of the disk the two responses agree in this sense,
whatever is served: a file, an index file, a list, or nothing. Middlewares that treat both methods
alike do not change this (`Middleware.EvenHanded`).

For a single file `HEAD` has a handler of its own, which adds the digest of what `GET` gives
(`App.Reached.head_describes_get`).
-/

namespace Switchboard

open Text (Bytes utf8)

/-! ## Responses -/

/-- The response that a reply becomes. -/
def Reply.response : Reply → Response
  | .ok response => response
  | .error f => f.toResponse

namespace Response

/-- What a response to `HEAD` says about the response to `GET`. -/
structure Describes (head get : Response) : Prop where
  ok_iff : head.status = .ok ↔ get.status = .ok
  headers : get.status = .ok → head.headers = get.headers
  body : get.status = .ok → head.body = []
  length : get.status = .ok → get.headers.filter (·.1 = "content-length") =
    [("content-length", toString get.body.length)]
  failed : get.status ≠ .ok → head.status = get.status ∧ 400 ≤ get.status.code

/-- Responses with one error status describe each other. -/
theorem describes_of_failed {head get : Response} (hstatus : head.status = get.status)
    (hcode : 400 ≤ get.status.code) : head.Describes get := by
  have hne : get.status ≠ .ok := by
    intro hok
    rw [hok] at hcode
    exact absurd hcode (by decide)
  refine ⟨by rw [hstatus], ?_, ?_, ?_, fun _ => ⟨hstatus, hcode⟩⟩
  all_goals exact fun hok => absurd hok hne

end Response

theorem Failure.status_toResponse (f : Failure) : f.toResponse.status = f.code := by
  rw [toResponse]
  split <;> rfl

/-! ## Actions -/

namespace Action

variable {α : Type} {disk : Disk} {answer : Context → Option (Reply × List String)}

/-- Both actions come to a reply, and the one describes the other. -/
def Describes (disk : Disk) (answer : Context → Option (Reply × List String))
    (head get : Action Reply) : Prop :=
  ∃ (reply reply' : Reply) (lines lines' : List String),
    head.run disk answer = some (reply, lines) ∧ get.run disk answer = some (reply', lines') ∧
      reply.response.Describes reply'.response

theorem describes_done {reply reply' : Reply} (h : reply.response.Describes reply'.response) :
    Describes disk answer (.done reply) (.done reply') :=
  ⟨reply, reply', [], [], rfl, rfl, h⟩

theorem describes_error {f : Failure} (h : 400 ≤ f.code.code) :
    Describes disk answer (.done (.error f)) (.done (.error f)) := by
  refine describes_done (Response.describes_of_failed rfl ?_)
  show 400 ≤ f.toResponse.status.code
  rw [f.status_toResponse]
  exact h

theorem Describes.note {head get : Action Reply} (h : Describes disk answer head get)
    (line line' : String) : Describes disk answer (.note line head) (.note line' get) := by
  obtain ⟨reply, reply', lines, lines', hhead, hget, hdescribes⟩ := h
  refine ⟨reply, reply', line :: lines, line' :: lines', ?_, ?_, hdescribes⟩
  · rw [run, hhead, Option.map_some]
  · rw [run, hget, Option.map_some]

/-- What is found at a place is the same for both. -/
theorem describes_inspect {path : DiskPath} {f g : Except DiskError DiskEntry → Action Reply}
    (h : Describes disk answer (f (disk.entry path)) (g (disk.entry path))) :
    Describes disk answer (.inspect path f) (.inspect path g) := h

/-- Replies that describe each other may be gone on with. -/
theorem Describes.bind {head get : Action Reply} (h : Describes disk answer head get)
    {f g : Reply → Action Reply}
    (hnext : ∀ reply reply' : Reply, reply.response.Describes reply'.response →
      Describes disk answer (f reply) (g reply')) :
    Describes disk answer (head >>= f) (get >>= g) := by
  obtain ⟨reply, reply', lines, lines', hhead, hget, hdescribes⟩ := h
  obtain ⟨last, last', more, more', hf, hg, hlast⟩ := hnext reply reply' hdescribes
  refine ⟨last, last', lines ++ more, lines' ++ more', ?_, ?_, hlast⟩
  · rw [run_bind, hhead, Option.bind_some, hf, Option.map_some]
  · rw [run_bind, hget, Option.bind_some, hg, Option.map_some]

/-- If requests that are handed over always get an answer, actions always come to their end. -/
theorem exists_run (disk : Disk) (hanswer : ∀ ctx, ∃ r, answer ctx = some r) (act : Action α) :
    ∃ value lines, act.run disk answer = some (value, lines) := by
  induction act with
  | done value => exact ⟨value, [], rfl⟩
  | note line next ih =>
      obtain ⟨value, lines, hnext⟩ := ih
      exact ⟨value, line :: lines, by rw [run, hnext, Option.map_some]⟩
  | inspect path next ih => exact ih _
  | list path next ih => exact ih _
  | handOver ctx next ih =>
      obtain ⟨⟨reply, lines⟩, hctx⟩ := hanswer ctx
      obtain ⟨value, more, hnext⟩ := ih reply
      exact ⟨value, lines ++ more, by simp [run, hctx, hnext]⟩

/-- Actions that begin alike find the same. -/
theorem describes_bind (hanswer : ∀ ctx, ∃ r, answer ctx = some r) (act : Action α)
    {f g : α → Action Reply} (h : ∀ a, Describes disk answer (f a) (g a)) :
    Describes disk answer (act >>= f) (act >>= g) := by
  obtain ⟨value, lines, hact⟩ := exists_run disk hanswer act
  obtain ⟨last, last', more, more', hf, hg, hlast⟩ := h value
  refine ⟨last, last', lines ++ more, lines ++ more', ?_, ?_, hlast⟩
  · rw [run_bind, hact, Option.bind_some, hf, Option.map_some]
  · rw [run_bind, hact, Option.bind_some, hg, Option.map_some]

end Action

/-! ## Handlers -/

/-- The same request with another method. -/
def Context.asking (ctx : Context) (method : Method) : Context :=
  { ctx with request := { ctx.request with method } }

/-- For every request, what the handler makes of it with `HEAD` describes what it makes of it with
`GET`. -/
def Handler.Describes (disk : Disk) (answer : Context → Option (Reply × List String))
    (h : Handler) : Prop :=
  ∀ ctx : Context, Action.Describes disk answer (h (ctx.asking .head)) (h (ctx.asking .get))

namespace Static

variable {disk : Disk} {answer : Context → Option (Reply × List String)}

/-- With a body and its length, the response to `HEAD` is the one to `GET` without the body. -/
theorem answer_describes (ctx : Context) {headers : Headers} (body : Bytes)
    (hfree : ∀ f ∈ headers, f.1 ≠ "content-length") :
    (Static.answer (ctx.asking .head) headers body).Describes
      (Static.answer (ctx.asking .get) headers body) := by
  have hhead : (Static.answer (ctx.asking .head) headers body).body = [] := by
    show (if Method.head = .head then [] else body) = []
    exact if_pos rfl
  have hget : (Static.answer (ctx.asking .get) headers body).body = body := by
    show (if Method.get = .head then [] else body) = body
    exact if_neg (by decide)
  have hfilter : headers.filter (·.1 = "content-length") = [] := by
    rw [List.filter_eq_nil_iff]
    intro f hf
    simpa using hfree f hf
  refine ⟨Iff.rfl, fun _ => rfl, fun _ => hhead, fun _ => ?_, fun hne => absurd rfl hne⟩
  rw [hget, Static.answer, List.filter_append, hfilter]
  rfl

theorem describes_failed (e : DiskError) :
    Action.Describes disk answer (.done (failed e)) (.done (failed e)) := by
  refine Action.describes_error ?_
  show 400 ≤ Status.internalServerError.code
  decide

/-- Requests that are handed over are not found. -/
def AnswersNotFound (answer : Context → Option (Reply × List String)) : Prop :=
  ∀ ctx, answer ctx = some (.error .notFound, [])

theorem AnswersNotFound.exists_answer (h : AnswersNotFound answer) (ctx : Context) :
    ∃ r, answer ctx = some r :=
  ⟨_, h ctx⟩

theorem describes_handOver (h : AnswersNotFound answer) (ctx ctx' : Context) :
    Action.Describes disk answer (Handler.handOver ctx) (Handler.handOver ctx') := by
  refine ⟨.error .notFound, .error .notFound, [], [], ?_, ?_, ?_⟩
  · rw [App.run_handOver, h ctx]
  · rw [App.run_handOver, h ctx']
  · exact Response.describes_of_failed rfl (by decide)

theorem describes_serveFile (h : AnswersNotFound answer) (path : DiskPath) :
    (serveFile path).Describes disk answer := by
  intro ctx
  refine Action.describes_inspect ?_
  cases disk.entry path with
  | ok entry =>
      cases entry with
      | file content => exact Action.describes_done (answer_describes ctx content (by simp))
      | directory => exact describes_handOver h _ _
  | error e =>
      -- what is missing is handed over, any other error is one failure for both
      cases e with
      | notFound => exact describes_handOver h _ _
      | notADirectory | isADirectory | nameTooLong | nulInName | notUtf8 | escapes | other =>
          exact describes_failed _

/-- A list is answered with its type and its length. -/
theorem describes_listing (h : AnswersNotFound answer) (fs : FileSystem) (name : String)
    (ctx : Context) :
    let list (ctx : Context) : Action Reply := do
      match ← fs.names name with
      | .ok names => return .ok (Static.answer ctx [Response.page] (utf8 (listing names)))
      | .error e => return failed e
    Action.Describes disk answer (list (ctx.asking .head)) (list (ctx.asking .get)) := by
  refine Action.describes_bind h.exists_answer _ ?_
  intro found
  cases found with
  | ok names => exact Action.describes_done (answer_describes ctx _ (by simp [Response.page]))
  | error e => exact describes_failed e

theorem describes_serveDirectory (h : AnswersNotFound answer) (fs : FileSystem) (name : String)
    (path : DiskPath) : (serveDirectory fs name path).Describes disk answer := by
  intro ctx
  refine Action.describes_inspect ?_
  cases disk.entry (path.join [indexName]) with
  -- all but a file in this place leads to the list
  | ok entry =>
      cases entry with
      | file content => exact describes_serveFile h _ ctx
      | directory => exact describes_listing h fs name ctx
  | error e => exact describes_listing h fs name ctx

/-- Whatever a file system consists of, its place for a name is looked up alike. -/
theorem describes_serveTree (h : AnswersNotFound answer) (fs : FileSystem) :
    (serveTree fs).Describes disk answer := by
  intro ctx
  refine Action.describes_bind h.exists_answer (fs.place ctx.wildcard) ?_
  intro found
  cases found with
  | error e => exact describes_handOver h _ _
  | ok path =>
      refine Action.describes_inspect ?_
      cases disk.entry path with
      | ok entry =>
          cases entry with
          | file content => exact describes_serveFile h path ctx
          | directory => exact describes_serveDirectory h fs ctx.wildcard path ctx
      | error e => exact describes_failed e

end Static

/-! ## Middlewares -/

namespace Middleware

variable {ms : List Middleware}

/-- Inside the middleware, `HEAD` describes `GET` if it does so for the handler. -/
def EvenHanded (m : Middleware) : Prop :=
  ∀ (disk : Disk) (answer : Context → Option (Reply × List String)) (h : Handler),
    h.Describes disk answer → (m.wrap h).Describes disk answer

theorem EvenHanded.compose (hms : ∀ m ∈ ms, m.EvenHanded) {disk : Disk}
    {answer : Context → Option (Reply × List String)} {h : Handler}
    (hdescribes : h.Describes disk answer) : (h.compose ms).Describes disk answer := by
  induction ms with
  | nil => exact hdescribes
  | cons m ms ih =>
      obtain ⟨hm, hrest⟩ := List.forall_mem_cons.1 hms
      exact hm _ _ _ (ih hrest)

/-- Header checks do not look at the method. -/
theorem evenHanded_headerCheck (checks : List HeaderCheck) :
    (HeaderCheck.middleware checks).EvenHanded := by
  intro disk answer h hdescribes ctx
  rcases HeaderCheck.letThroughAt_or_refusedAt ctx.request checks with ⟨i, hlet⟩ | ⟨i, c, hrefused⟩
  · have hwrap : ∀ method : Method,
        (HeaderCheck.middleware checks).wrap h (ctx.asking method) = h (ctx.asking method) := by
      intro method
      have hlet' : HeaderCheck.LetThroughAt (ctx.asking method).request checks i := hlet
      exact HeaderCheck.middleware_wrap_of_letThroughAt hlet' h
    rw [hwrap, hwrap]
    exact hdescribes ctx
  · have hwrap : ∀ method : Method, (HeaderCheck.middleware checks).wrap h (ctx.asking method) =
        .done (.error (.status .badRequest (c.complaint ctx.request))) := by
      intro method
      have hrefused' : HeaderCheck.RefusedAt (ctx.asking method).request checks i c := hrefused
      exact HeaderCheck.middleware_wrap_of_refusedAt hrefused' h
    rw [hwrap, hwrap]
    exact Action.describes_error (Nat.le_refl 400)

theorem evenHanded_tag (name : String) : (tag name).EvenHanded := by
  intro disk answer h hdescribes ctx
  refine Action.Describes.note ((hdescribes ctx).bind ?_) _ _
  intro reply reply' hreply
  -- the lines may differ, as the two replies may be of different kinds
  cases reply <;> cases reply' <;> exact (Action.describes_done hreply).note _ _

theorem evenHanded_recover : recover.EvenHanded := by
  intro disk answer h hdescribes ctx
  refine (hdescribes ctx).bind ?_
  intro reply reply' hreply
  cases reply <;> cases reply' <;> exact Action.describes_done hreply

/-- Changes to the request that leave the method alone and do not depend on it. -/
theorem evenHanded_change {edit : Request → Except Failure Request}
    (hedit : ∀ (request : Request) (method : Method),
      edit { request with method } = (edit request).map ({ · with method }))
    (hfails : ∀ request f, edit request = .error f → 400 ≤ f.code.code) :
    (change edit).EvenHanded := by
  intro disk answer h hdescribes ctx
  have hwrap : ∀ method : Method, (change edit).wrap h (ctx.asking method) =
      (change edit).wrap (fun inner => h (inner.asking method)) ctx := by
    intro method
    have hasking : edit (ctx.asking method).request =
        (edit ctx.request).map ({ · with method }) := hedit ctx.request method
    simp only [change, hasking]
    cases edit ctx.request <;> rfl
  -- from here on only the handler can see the method
  rw [hwrap, hwrap]
  simp only [change]
  cases hresult : edit ctx.request with
  | ok request => exact hdescribes { ctx with request }
  | error f => exact Action.describes_error (hfails _ f hresult)

theorem evenHanded_setHeader (name value : String) : (setHeader name value).EvenHanded := by
  refine evenHanded_change ?_ ?_
  · intro request method
    cases Headers.name? name with
    | none => rfl
    | some name => by_cases hvalue : Headers.isValue value <;> simp [hvalue, Except.map]
  · intro request f
    cases Headers.name? name with
    | none =>
        intro hf
        cases hf
        decide
    | some name =>
        by_cases hvalue : Headers.isValue value
        · simp [hvalue]
        · intro hf
          simp only [hvalue] at hf
          cases hf
          decide

/-- A request passes the middlewares, and a response passes them unchanged on its way out. -/
def LetsThrough (ms : List Middleware) (ctx : Context) : Prop :=
  ∀ (h : Handler) (disk : Disk) (answer : Context → Option (Reply × List String))
    (response : Response) (lines : List String),
    (h ctx).run disk answer = some (.ok response, lines) →
    ∃ lines', (h.compose ms ctx).run disk answer = some (.ok response, lines')

theorem letsThrough_nil (ctx : Context) : LetsThrough [] ctx :=
  fun _ _ _ _ lines hrun => ⟨lines, hrun⟩

end Middleware

/-! ## Single files -/

namespace Static

variable {disk : Disk} {file : DiskPath} {content : Bytes}

theorem run_serveFile (hfile : disk.entry file = .ok (.file content)) (ctx : Context)
    (answer : Context → Option (Reply × List String)) :
    (serveFile file (ctx.asking .get)).run disk answer =
      some (.ok { headers := [lengthOf content], body := content }, []) := by
  have hbody : (if (ctx.asking .get).request.method = .head then [] else content) = content :=
    if_neg (by decide : ¬ Method.get = .head)
  rw [serveFile, Action.run, hfile]
  simp only [Action.run, Static.answer, List.nil_append, hbody]

theorem run_describeFile (hfile : disk.entry file = .ok (.file content)) (ctx : Context)
    (answer : Context → Option (Reply × List String)) :
    (describeFile file ctx).run disk answer =
      some (.ok { headers := [("etag", Text.hexBytes (Md5.digest content)), lengthOf content] },
        []) := by
  rw [describeFile, Action.run, hfile]
  rfl

end Static

/-! ## Routes -/

theorem Dispatcher.dispatch?_eq (d : Dispatcher) (disk : Disk) (depth : Nat) (request : Request) :
    d.dispatch? disk depth request =
      (d.reply? disk depth request).map fun r => (r.1.response, r.2) := rfl

theorem answersNotFound_missing (disk : Disk) (depth : Nat) :
    Static.AnswersNotFound (Handler.missing.answerWithin disk (depth + 1)) :=
  fun _ => rfl

namespace App

/-- One route answers a request, be it for `HEAD` or for `GET`: for each of the two methods an entry
of the same pattern is the best match. -/
def AnsweredBy (app : App) (request : Request) (head get : Handler) : Prop :=
  ∃ host pattern, Selects app.routes ((Context.host? { request }).getD "") host ∧
    Best (entriesOf app.routes host) .head request.uri.path ⟨.head, pattern, head⟩ ∧
    Best (entriesOf app.routes host) .get request.uri.path ⟨.get, pattern, get⟩

/-- The two handlers are called with the same parameters. -/
theorem AnsweredBy.dispatch? {app : App} {request : Request} {head get : Handler}
    (h : app.AnsweredBy request head get) (happ : app.Reached) (hpre : app.pre = []) :
    ∃ params, ∀ disk depth,
      app.dispatcher.dispatch? disk depth { request with method := .head } =
        ((head (Context.asking { request, params } .head)).run disk
          (app.notFound.answerWithin disk depth)).map (fun r => (r.1.response, r.2)) ∧
      app.dispatcher.dispatch? disk depth { request with method := .get } =
        ((get (Context.asking { request, params } .get)).run disk
          (app.notFound.answerWithin disk depth)).map (fun r => (r.1.response, r.2)) := by
  obtain ⟨host, pattern, hs, hhead, hget⟩ := h
  have hresolves : ∀ method (handler : Handler),
      Best (entriesOf app.routes host) method request.uri.path ⟨method, pattern, handler⟩ →
      resolve app.routers { request := { request with method } } =
        .found handler (Table.sorted (pattern.captures request.uri.path)) := by
    intro method handler hbest
    have hsel : Selects app.routes
        ((Context.host? { request := { request with method } }).getD "") host := hs
    have hres := (happ.of_stable stable_listed).resolves hsel
    exact (hres.unique (.found hbest (binds_sorted (pattern.captures request.uri.path)))).symm
  refine ⟨Table.sorted (pattern.captures request.uri.path), fun disk depth => ⟨?_, ?_⟩⟩
  · rw [Dispatcher.dispatch?_eq, reply?_of_pre_nil hpre, hresolves .head head hhead]
    rfl
  · rw [Dispatcher.dispatch?_eq, reply?_of_pre_nil hpre, hresolves .get get hget]
    rfl

/-- What is listed after a file has been registered: a route for `GET` and one for `HEAD`, each with
a handler of its own. -/
theorem routes_of_staticFile {app : App} {r : Route} {file : DiskPath}
    (h : (app.perform (r.staticFile file)).1 = .ok ()) :
    (app.after (r.staticFile file)).routes = app.routes ++
      app.accepted (r.infos "" r.path (Static.serveFile file) [.get] ++
        r.infos "" r.path (Static.describeFile file) [.head]) := by
  have htable := r.perform_staticFile app file
  split at htable
  · rw [htable] at h
    cases h
  · rw [htable] at h
    have htook := ((r.named "").oneByOne_map app _).accepted h
    rw [after, htable, htook.routes]
    rfl

/-- `HEAD` describes `GET` on every application without middlewares around routing and with the
not-found handler that it has by default.

For a file system that is served below a path, whatever it consists of and whatever the state of the
disk, both methods come to a response, and the one describes the other; the middlewares of the route
may be any that treat the two methods alike, as header checks do.

For a file that can be read, inside middlewares that let the request through, `GET` answers with the
content, both methods with its length, and `HEAD` with its digest, sixteen bytes in small
hexadecimal digits, in whatever pieces the file is read. -/
theorem Reached.head_describes_get {app : App} (happ : app.Reached) (hpre : app.pre = [])
    (hmissing : app.notFound = .missing) :
    (∀ (r : Route) (fs : FileSystem), (app.perform (r.staticFiles fs)).1 = .ok () →
      (app.after (r.staticFiles fs)).routes = app.routes ++
        app.accepted (r.infos "" r.treePath (Static.serveTree fs) [.head, .get])) ∧
    (∀ (r : Route) (file : DiskPath), (app.perform (r.staticFile file)).1 = .ok () →
      (app.after (r.staticFile file)).routes = app.routes ++
        app.accepted (r.infos "" r.path (Static.serveFile file) [.get] ++
          r.infos "" r.path (Static.describeFile file) [.head])) ∧
    (∀ r : Route, (∀ m ∈ r.middlewares, m.EvenHanded) → ∀ m ∈ r.chain, m.EvenHanded) ∧
    (∀ (fs : FileSystem) (ms : List Middleware) (request : Request),
      (∀ m ∈ ms, m.EvenHanded) →
      app.AnsweredBy request ((Static.serveTree fs).compose ms)
        ((Static.serveTree fs).compose ms) →
      ∀ (disk : Disk) (depth : Nat), ∃ head get lines lines',
        app.dispatcher.dispatch? disk (depth + 1) { request with method := .head } =
          some (head, lines) ∧
        app.dispatcher.dispatch? disk (depth + 1) { request with method := .get } =
          some (get, lines') ∧
        head.Describes get) ∧
    ∀ (file : DiskPath) (content : Bytes) (ms : List Middleware) (request : Request),
      app.AnsweredBy request ((Static.describeFile file).compose ms)
        ((Static.serveFile file).compose ms) →
      (∀ method params, method = .head ∨ method = .get →
        Middleware.LetsThrough ms (Context.asking { request, params } method)) →
      ∀ (disk : Disk) (depth : Nat), disk.entry file = .ok (.file content) →
      ∃ etag lines lines',
        app.dispatcher.dispatch? disk depth { request with method := .head } =
          some ({ headers := [("etag", etag), ("content-length", toString content.length)] },
            lines) ∧
        app.dispatcher.dispatch? disk depth { request with method := .get } =
          some ({ headers := [("content-length", toString content.length)], body := content },
            lines') ∧
        (∀ chunks, Md5.Reading 8192 content chunks →
          etag = Text.hexBytes (chunks.foldl Md5.update {}).finish) ∧
        etag = Text.hexBytes (Md5.digest content) ∧ etag.length = 32 ∧
        (∀ c ∈ etag.toList, c ∈ Text.smallHexDigits) ∧
        Text.ofHexBytes? (utf8 etag) = some (Md5.digest content) := by
  refine ⟨?_, fun r file h => routes_of_staticFile h, fun r hms => ?_, ?_, ?_⟩
  · intro r fs h
    have hadded := (r.allOrNothing_staticFiles app fs).added h
    rw [accepted_eq]
    exact hadded.1
  · exact Route.forall_mem_chain hms (Middleware.evenHanded_headerCheck r.checks)
  · -- a tree: what the handler does, inside the middlewares, for the parameters of the match
    intro fs ms request hms hanswered disk depth
    obtain ⟨params, hdispatch⟩ := hanswered.dispatch? happ hpre
    obtain ⟨hheadRun, hgetRun⟩ := hdispatch disk (depth + 1)
    have hdisk : (Static.serveTree fs).Describes disk
        (Handler.missing.answerWithin disk (depth + 1)) :=
      Static.describes_serveTree (answersNotFound_missing disk depth) fs
    obtain ⟨reply, reply', lines, lines', hhead, hget, hdescribes⟩ :=
      Middleware.EvenHanded.compose hms hdisk { request, params }
    rw [hmissing, hhead] at hheadRun
    rw [hmissing, hget] at hgetRun
    exact ⟨_, _, lines, lines', hheadRun, hgetRun, hdescribes⟩
  · -- a file: each method has its own handler, and both replies get through
    intro file content ms request hanswered hthrough disk depth hfile
    obtain ⟨params, hdispatch⟩ := hanswered.dispatch? happ hpre
    obtain ⟨hheadRun, hgetRun⟩ := hdispatch disk depth
    obtain ⟨lines, hhead⟩ := hthrough .head params (.inl rfl) _ _ _ _ _
      (Static.run_describeFile hfile (Context.asking { request, params } .head) _)
    obtain ⟨lines', hget⟩ := hthrough .get params (.inr rfl) _ _ _ _ _
      (Static.run_serveFile hfile { request, params } _)
    rw [hhead] at hheadRun
    rw [hget] at hgetRun
    refine ⟨Text.hexBytes (Md5.digest content), lines, lines', hheadRun, hgetRun, ?_, rfl, ?_,
      fun c hc => Text.mem_smallHexDigits_of_mem_hexBytes hc, Text.ofHexBytes?_hexBytes _⟩
    · intro chunks hreading
      rw [hreading.digest_eq]
    · rw [Text.length_hexBytes, Md5.length_digest]

/-- Of two entries for a method the one that matches alone is the best match. -/
theorem best_of_two {H : Type} {entries : List (Entry H)} {method : Method} {path : String}
    {e : Entry H} (o : Entry H) (hfilter : entries.filter (·.method = method) ∈ [[e, o], [o, e]])
    (he : e.pattern.Matches (pathPieces path)) (ho : ¬ o.pattern.Matches (pathPieces path)) :
    Best entries method path e := by
  have hmem : ∀ x, x ∈ entries ∧ x.method = method ↔ x = e ∨ x = o := by
    intro x
    have hx : x ∈ entries.filter (·.method = method) ↔ x ∈ entries ∧ x.method = method := by
      rw [List.mem_filter, decide_eq_true_iff]
    rw [← hx]
    rcases List.mem_pair.1 hfilter with h | h
    · rw [h, List.mem_pair]
    · rw [h, List.mem_pair, or_comm]
  obtain ⟨hentry, hmethod⟩ := (hmem e).2 (.inl rfl)
  refine ⟨hentry, ⟨hmethod, he⟩, ?_⟩
  rintro x hx ⟨hxmethod, hxmatches⟩ hne
  rcases (hmem x).1 ⟨hx, hxmethod⟩ with rfl | rfl
  · exact absurd rfl hne
  · exact absurd hxmatches ho

theorem eq_of_matches_fixed {text s : String} {p : Pattern} {segs : List String}
    (h : Pattern.Matches (.fixed text :: p) (s :: segs)) : text = s := by
  cases h
  rfl

/-- A file, and a directory that is listed, with a request for the one and one for an entry of the
other. -/
theorem head_describes_get_page_and_tree :
    let app := ({} : App).build [.route "/page" [.staticFile ["srv", "page.txt"]],
      .route "/files" [.staticFiles (FileSystem.directory ["srv"])]]
    let serveTree := Static.serveTree (FileSystem.directory ["srv"])
    let disk : Disk :=
      { entry := fun _ => .ok (.file (utf8 "hello world")), children := fun _ => .ok [] }
    let request (path : String) : Request := { uri := ⟨none, none, path, none⟩ }
    (app.Reached ∧ app.pre = [] ∧
      app.AnsweredBy (request "/page") (Static.describeFile ["srv", "page.txt"])
        (Static.serveFile ["srv", "page.txt"]) ∧
      app.AnsweredBy (request "/files/a") serveTree serveTree) ∧
    (∃ head get lines lines',
      app.dispatcher.dispatch? disk 1 { request "/files/a" with method := .head } =
        some (head, lines) ∧
      app.dispatcher.dispatch? disk 1 { request "/files/a" with method := .get } =
        some (get, lines') ∧
      head.Describes get) ∧
    ∃ etag lines lines',
      app.dispatcher.dispatch? disk 0 { request "/page" with method := .head } =
        some ({ headers := [("etag", etag), ("content-length", "11")] }, lines) ∧
      app.dispatcher.dispatch? disk 0 { request "/page" with method := .get } =
        some ({ headers := [("content-length", "11")], body := utf8 "hello world" }, lines') ∧
      etag.length = 32 := by
  intro app serveTree disk request
  have hreached : app.Reached := ⟨{}, _, rfl⟩
  have hentries : entriesOf app.routes "" =
      [⟨.get, [.fixed "page"], Static.serveFile ["srv", "page.txt"]⟩,
        ⟨.head, [.fixed "page"], Static.describeFile ["srv", "page.txt"]⟩,
        ⟨.head, [.fixed "files", .wildcard], serveTree⟩,
        ⟨.get, [.fixed "files", .wildcard], serveTree⟩] := rfl
  have hhost : ∀ path,
      Selects app.routes ((Context.host? { request := request path }).getD "") "" :=
    fun path => .named ⟨_, List.mem_cons_self, rfl⟩
  have hpage : pathPieces "/page" = ["page"] := by decide
  have hfiles : pathPieces "/files/a" = ["files", "a"] := by decide
  have hnotPage : ¬ Pattern.Matches [.fixed "page"] (pathPieces "/files/a") := by
    rw [hfiles]
    exact fun h => absurd (eq_of_matches_fixed h) (by decide)
  have hnotFiles : ¬ Pattern.Matches [.fixed "files", .wildcard] (pathPieces "/page") := by
    rw [hpage]
    exact fun h => absurd (eq_of_matches_fixed h) (by decide)
  have hpageBy : app.AnsweredBy (request "/page") (Static.describeFile ["srv", "page.txt"])
      (Static.serveFile ["srv", "page.txt"]) := by
    have hmatches : Pattern.Matches [.fixed "page"] (pathPieces "/page") := by
      rw [hpage]
      exact .fixed .nil
    refine ⟨"", [.fixed "page"], hhost _,
      best_of_two ⟨.head, [.fixed "files", .wildcard], serveTree⟩ ?_ hmatches hnotFiles,
      best_of_two ⟨.get, [.fixed "files", .wildcard], serveTree⟩ ?_ hmatches hnotFiles⟩
    · rw [hentries]
      exact List.mem_cons_self
    · rw [hentries]
      exact List.mem_cons_self
  have hfilesBy : app.AnsweredBy (request "/files/a") serveTree serveTree := by
    have hmatches : Pattern.Matches [.fixed "files", .wildcard] (pathPieces "/files/a") := by
      rw [hfiles]
      exact .fixed .wildcard
    refine ⟨"", [.fixed "files", .wildcard], hhost _,
      best_of_two ⟨.head, [.fixed "page"], Static.describeFile ["srv", "page.txt"]⟩ ?_ hmatches
        hnotPage,
      best_of_two ⟨.get, [.fixed "page"], Static.serveFile ["srv", "page.txt"]⟩ ?_ hmatches
        hnotPage⟩
    · rw [hentries]
      exact List.mem_cons_of_mem _ List.mem_cons_self
    · rw [hentries]
      exact List.mem_cons_of_mem _ List.mem_cons_self
  obtain ⟨-, -, -, htree, hfile⟩ := hreached.head_describes_get rfl rfl
  refine ⟨⟨hreached, rfl, hpageBy, hfilesBy⟩, ?_, ?_⟩
  · exact htree _ [] (request "/files/a") (fun _ hm => absurd hm List.not_mem_nil) hfilesBy disk 0
  · obtain ⟨etag, lines, lines', hhead, hget, -, -, hlength, -⟩ :=
      hfile _ (utf8 "hello world") [] (request "/page") hpageBy
        (fun _ _ _ => Middleware.letsThrough_nil _) disk 0 rfl
    exact ⟨etag, lines, lines', hhead, hget, hlength⟩

end App

end Switchboard
