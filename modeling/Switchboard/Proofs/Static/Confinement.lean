import Switchboard.Proofs.App.Scan

set_option autoImplicit false

/-! # What a served directory can show of the disk

An action asks the world questions one after another, so what it can learn of the disk is visible
in its questions. `Action.LooksAt` says that it asks about certain places only and never for the
entries of a directory; two disks that agree on these places then give the same (`LooksAt.run_eq`).

For a route that serves a directory there are two such places at most, both below the directory:
the place that the wildcard names and the index file there. If the wildcard names a step out of a
directory, there is none (`App.Reached.directory_confined`).
-/

namespace Switchboard

/-! ## The places that an action looks at -/

namespace Action

variable {α : Type}

/-- Whatever the answers are, the action asks only about places of which `P` holds, and never what
a directory holds. -/
def LooksAt (P : DiskPath → Prop) : Action α → Prop
  | .done _ => True
  | .note _ next => next.LooksAt P
  | .inspect path next => P path ∧ ∀ found, (next found).LooksAt P
  | .list _ _ => False
  | .handOver _ next => ∀ reply, (next reply).LooksAt P

variable {P : DiskPath → Prop}

/-- Disks that agree on the places that an action looks at are the same to it. -/
theorem LooksAt.run_eq {act : Action α} (h : act.LooksAt P) {disk disk' : Disk}
    (hagree : ∀ path, P path → disk.entry path = disk'.entry path)
    (answer : Context → Option (Reply × List String)) :
    act.run disk answer = act.run disk' answer := by
  induction act with
  | done value => rfl
  | note line next ih => rw [run, run, ih h]
  | inspect path next ih => rw [run, run, hagree path h.1, ih _ (h.2 _)]
  | list path next => exact h.elim
  | handOver ctx next ih =>
      rw [run, run]
      cases answer ctx with
      | none => rfl
      | some replied => simp [ih replied.1 (h replied.1)]

end Action

/-! ## Middlewares that leave the disk alone -/

namespace Middleware

/-- The middleware does not look at the disk, and it calls the handler, if at all, with the
parameters that it was called with. -/
structure Transparent (m : Middleware) : Prop where
  congr : ∀ (params : Params) (h h' : Handler),
    (∀ ctx : Context, ctx.params = params → h ctx = h' ctx) →
      ∀ ctx : Context, ctx.params = params → m.wrap h ctx = m.wrap h' ctx
  looksAt : ∀ (P : DiskPath → Prop) (params : Params) (h : Handler),
    (∀ ctx : Context, ctx.params = params → (h ctx).LooksAt P) →
      ∀ ctx : Context, ctx.params = params → (m.wrap h ctx).LooksAt P

/-- Header checks look at the request only. -/
theorem transparent_headerCheck (checks : List HeaderCheck) :
    (HeaderCheck.middleware checks).Transparent := by
  constructor
  · intro params h h' heq ctx hctx
    simp only [HeaderCheck.middleware]
    cases HeaderCheck.run ctx.request checks with
    | error f => rfl
    | ok u => exact heq ctx hctx
  · intro P params h hlooks ctx hctx
    simp only [HeaderCheck.middleware]
    cases HeaderCheck.run ctx.request checks with
    | error f => trivial
    | ok u => exact hlooks ctx hctx

variable {ms : List Middleware}

theorem compose_congr (hms : ∀ m ∈ ms, m.Transparent) {params : Params} {h h' : Handler}
    (heq : ∀ ctx : Context, ctx.params = params → h ctx = h' ctx) :
    ∀ ctx : Context, ctx.params = params → h.compose ms ctx = h'.compose ms ctx := by
  induction ms with
  | nil => exact heq
  | cons m ms ih =>
      rw [List.forall_mem_cons] at hms
      exact hms.1.congr params _ _ (ih hms.2)

theorem compose_looksAt (hms : ∀ m ∈ ms, m.Transparent) {P : DiskPath → Prop} {params : Params}
    {h : Handler} (hlooks : ∀ ctx : Context, ctx.params = params → (h ctx).LooksAt P) :
    ∀ ctx : Context, ctx.params = params → (h.compose ms ctx).LooksAt P := by
  induction ms with
  | nil => exact hlooks
  | cons m ms ih =>
      rw [List.forall_mem_cons] at hms
      exact hms.1.looksAt P params _ (ih hms.2)

end Middleware

/-! ## Serving a directory -/

namespace Static

/-- The handler that answers with what is below a directory and lists nothing. -/
def serveBelow (root : DiskPath) : Handler := serveTree (FileSystem.directory root).onlyFiles

/-- The place that a name leads to, and the index file there: the directory followed by the steps
of the name that are neither empty nor a dot. -/
def Reads (root : DiskPath) (name : String) (path : DiskPath) : Prop :=
  path = root.join ((pathPieces name).filter (· ≠ ".")) ∨
    path = (root.join ((pathPieces name).filter (· ≠ "."))).join [indexName]

variable {P : DiskPath → Prop} {root : DiskPath} {ctx : Context}

theorem looksAt_serveFile {path : DiskPath} (h : P path) (ctx : Context) :
    (serveFile path ctx).LooksAt P := by
  refine ⟨h, fun found => ?_⟩
  cases found with
  | ok entry =>
      cases entry with
      | file content => trivial
      | directory => exact fun _ => trivial
  | error e =>
      -- what is missing is handed over, every other error is a reply
      cases e with
      | notFound => exact fun _ => trivial
      | notADirectory | isADirectory | nameTooLong | nulInName | notUtf8 | escapes | other =>
          trivial

/-- The index file is looked at, and no list is made but the empty one. -/
theorem looksAt_serveDirectory {path : DiskPath} (h : P (path.join [indexName])) (name : String)
    (ctx : Context) :
    (serveDirectory (FileSystem.directory root).onlyFiles name path ctx).LooksAt P := by
  refine ⟨h, fun found => ?_⟩
  cases found with
  | ok entry =>
      cases entry with
      | file content => exact looksAt_serveFile h ctx
      | directory => trivial
  | error e => trivial

/-- A name with a step out of a directory is handed over to the not-found handler. -/
theorem serveBelow_of_escapes (h : ".." ∈ pathPieces ctx.wildcard) :
    serveBelow root ctx = Handler.handOver ctx := by
  have hresolve : FileSystem.resolve root ctx.wildcard = .error (.escapes ctx.wildcard) := by
    rw [FileSystem.resolve, if_pos h]
  have hplace : (FileSystem.directory root).onlyFiles.place ctx.wildcard =
      .done (.error (.escapes ctx.wildcard)) := by
    simp only [FileSystem.onlyFiles, FileSystem.directory, hresolve]
  rw [serveBelow, serveTree, hplace]
  rfl

/-- Otherwise the place of the name is looked at, and the index file there. -/
theorem looksAt_serveBelow (h : ".." ∉ pathPieces ctx.wildcard) :
    (serveBelow root ctx).LooksAt (Reads root ctx.wildcard) := by
  have hresolve : FileSystem.resolve root ctx.wildcard =
      .ok (root.join (FileSystem.steps ctx.wildcard)) := by
    rw [FileSystem.resolve, if_neg h]
  have hplace : (FileSystem.directory root).onlyFiles.place ctx.wildcard =
      .inspect (root.join (FileSystem.steps ctx.wildcard)) fun found =>
        .done (found.map fun _ => root.join (FileSystem.steps ctx.wildcard)) := by
    simp only [FileSystem.onlyFiles, FileSystem.directory, hresolve]
  have hname : Reads root ctx.wildcard (root.join (FileSystem.steps ctx.wildcard)) := .inl rfl
  rw [serveBelow, serveTree, hplace]
  refine ⟨hname, fun found => ?_⟩
  cases found with
  | error e => exact fun _ => trivial
  | ok entry =>
      refine ⟨hname, fun found => ?_⟩
      cases found with
      | error e => trivial
      | ok entry =>
          cases entry with
          | file content => exact looksAt_serveFile hname ctx
          | directory => exact looksAt_serveDirectory (.inr rfl) _ ctx

end Static

/-! ## Requests below a served directory -/

theorem Pattern.wildcard_last_of_ofPieces {seen : List String} {ps : List (List Char)} {p : Pattern}
    (h : ofPieces seen (ps ++ [['*']]) = .ok p) : ∃ front, p = front ++ [.wildcard] := by
  induction ps generalizing seen p with
  | nil => cases h; exact ⟨[], rfl⟩
  | cons piece ps ih =>
      rw [List.cons_append, ofPieces.eq_def] at h
      split at h
      · next e => cases e
      · next name rest e =>
        obtain ⟨-, rfl⟩ := List.cons.inj e
        dsimp only at h
        split at h
        · cases h
        · split at h
          · cases h
          · obtain ⟨q, hq, rfl⟩ := eq_ok_of_map h
            obtain ⟨front, rfl⟩ := ih hq
            exact ⟨_ :: front, rfl⟩
      · next name rest e =>
        -- more follows, so no wildcard is read here
        obtain ⟨-, rfl⟩ := List.cons.inj e
        simp at h
        split at h <;> cases h
      · next text rest _ _ e =>
        obtain ⟨-, rfl⟩ := List.cons.inj e
        obtain ⟨q, hq, rfl⟩ := eq_ok_of_map h
        obtain ⟨front, rfl⟩ := ih hq
        exact ⟨_ :: front, rfl⟩

/-- The path under which a tree of files is served ends in a wildcard. -/
theorem Route.wildcard_last_of_treePath {r : Route} {p : Pattern}
    (h : Pattern.parse r.treePath = .ok p) : ∃ front, p = front ++ [.wildcard] := by
  obtain ⟨cs, hcs⟩ : ∃ cs, r.treePath.toList = cs ++ ['/', '*'] := by
    rw [treePath]
    split
    · exact ⟨[], rfl⟩
    · exact ⟨_, by rw [String.toList_append]; rfl⟩
  have hpieces : (Text.splitOn '/' r.treePath.toList).filter (!·.isEmpty) =
      (Text.splitOn '/' cs).filter (!·.isEmpty) ++ [['*']] := by
    rw [hcs, Text.splitOn_append_last cs (by decide), List.filter_append]
    rfl
  simp only [Pattern.parse, hpieces] at h
  split at h
  · cases h
  · split at h
    · cases h
    · exact Pattern.wildcard_last_of_ofPieces h

/-- What is listed after a file system has been registered: the routes as the filter and the
modifier leave them, with the handler that serves it, under a path that ends in a wildcard. -/
theorem App.routes_of_staticFiles {app : App} {r : Route} {fs : FileSystem}
    (h : (app.perform (r.staticFiles fs)).1 = .ok ()) :
    (∃ front, Pattern.parse r.treePath = .ok (front ++ [.wildcard])) ∧
      (app.after (r.staticFiles fs)).routes = app.routes ++
        app.accepted (r.infos "" r.treePath (Static.serveTree fs) [.head, .get]) := by
  constructor
  · cases hp : Pattern.parse r.treePath with
    | ok p =>
        obtain ⟨front, rfl⟩ := Route.wildcard_last_of_treePath hp
        exact ⟨front, rfl⟩
    | error cause =>
        rw [Route.staticFiles, perform_bind] at h
        split at h
        · cases h
        · rw [Route.perform_registerAs, hp] at h
          cases h
  · have hadded := (r.allOrNothing_staticFiles app fs).added h
    rw [accepted_eq]
    exact hadded.1

/-- What the wildcard at the end of a pattern captures: the decoded rest of the path from its
segment on. A parameter that is called like a wildcard does not get in its way. -/
theorem Context.wildcard_of_binds {request : Request} {params : Params} {front : Pattern}
    (h : Binds params (Pattern.captures request.uri.path (front ++ [.wildcard]))) :
    Context.wildcard { request, params } =
      Text.Percent.decode (rawTail request.uri.path front.length) := by
  rw [Pattern.captures_append_wildcard] at h
  rw [wildcard, param?, h.value?_of_concat, if_pos rfl, Option.getD_some]

namespace App

/-- What an application without middlewares around routing does for a request that comes to the
directory `root`, inside the middlewares `ms`, with the parameters `params`. -/
structure Confined (app : App) (root : DiskPath) (ms : List Middleware) (request : Request)
    (params : Params) : Prop where
  /-- A name with a step out of a directory is for the not-found handler, and the disk is not
  asked. -/
  escapes : ".." ∈ pathPieces (Context.wildcard { request, params }) →
    routing app.routers { request } = Handler.handOver.compose ms { request, params }
  /-- Any other name leads to two places, and the disk is asked about these only. -/
  looksAt : ".." ∉ pathPieces (Context.wildcard { request, params }) →
    (routing app.routers { request }).LooksAt
      (Static.Reads root (Context.wildcard { request, params }))
  /-- Disks that agree on the places that are looked at, if any, get the same response. -/
  agree : ∀ (disk disk' : Disk) (depth : Nat), app.pre = [] →
    (∀ ctx, app.notFound.answerWithin disk depth ctx =
      app.notFound.answerWithin disk' depth ctx) →
    (".." ∉ pathPieces (Context.wildcard { request, params }) →
      ∀ path, Static.Reads root (Context.wildcard { request, params }) path →
        disk.entry path = disk'.entry path) →
    app.dispatcher.dispatch? disk depth request = app.dispatcher.dispatch? disk' depth request

theorem routing_of_found {routers : Routers} {request : Request} {handler : Handler}
    {params : Params} (h : resolve routers { request } = .found handler params) :
    routing routers { request } = handler { request, params } := by
  rw [routing, h]

theorem dispatch?_eq_of_run_eq {app : App} (hpre : app.pre = []) {disk disk' : Disk} {depth : Nat}
    {request : Request}
    (h : (routing app.routers { request }).run disk (app.notFound.answerWithin disk depth) =
      (routing app.routers { request }).run disk' (app.notFound.answerWithin disk' depth)) :
    app.dispatcher.dispatch? disk depth request = app.dispatcher.dispatch? disk' depth request := by
  have hhandler : app.dispatcher.handler = routing app.routers := by
    show (routing app.routers).compose app.pre = _
    rw [hpre, Handler.compose_nil]
  rw [Dispatcher.dispatch?, Dispatcher.dispatch?, Dispatcher.reply?, Dispatcher.reply?, hhandler]
  exact congrArg _ h

/-- A request that is resolved to the handler of a served directory is confined to it. -/
theorem confined_of_found {app : App} {root : DiskPath} {ms : List Middleware}
    (hms : ∀ m ∈ ms, m.Transparent) {request : Request} {params : Params}
    (h : resolve app.routers { request } = .found ((Static.serveBelow root).compose ms) params) :
    app.Confined root ms request params := by
  have hescapes : ".." ∈ pathPieces (Context.wildcard { request, params }) →
      routing app.routers { request } = Handler.handOver.compose ms { request, params } := by
    intro hname
    rw [routing_of_found h]
    refine Middleware.compose_congr hms (fun ctx hctx => Static.serveBelow_of_escapes ?_) _ rfl
    rwa [Context.wildcard, Context.param?, hctx]
  have hlooks : ".." ∉ pathPieces (Context.wildcard { request, params }) →
      (routing app.routers { request }).LooksAt
        (Static.Reads root (Context.wildcard { request, params })) := by
    intro hname
    rw [routing_of_found h]
    refine Middleware.compose_looksAt hms (fun ctx hctx => ?_) { request, params } rfl
    have hwildcard : ctx.wildcard = Context.wildcard { request, params } := by
      rw [Context.wildcard, Context.param?, hctx, Context.wildcard, Context.param?]
    rw [← hwildcard] at hname ⊢
    exact Static.looksAt_serveBelow hname
  refine ⟨hescapes, hlooks, fun disk disk' depth hpre hmissing hagree => ?_⟩
  refine dispatch?_eq_of_run_eq hpre ?_
  rw [← funext hmissing]
  by_cases hname : ".." ∈ pathPieces (Context.wildcard { request, params })
  · -- handing over asks nothing of the disk
    have hnowhere : (routing app.routers { request }).LooksAt fun _ => False := by
      rw [hescapes hname]
      have hhandOver : ∀ ctx : Context, ctx.params = params →
          (Handler.handOver ctx).LooksAt fun _ => False := fun _ _ _ => trivial
      exact Middleware.compose_looksAt hms hhandOver { request, params } rfl
    exact hnowhere.run_eq (fun path hpath => hpath.elim) _
  · exact (hlooks hname).run_eq (hagree hname) _

/-- A served directory confines what its route reads. However an application was built, the routes
that it lists for a directory have the handler that serves it, inside the middlewares of the route
and its header checks. If one of them is the best match of a request, then the wildcard binds the
decoded rest of the path, and the request is confined: a name with a step out of a directory is for
the not-found handler, any other name leads to two places below the directory, and nothing else on
the disk, nor what any directory holds, makes a difference to the response. -/
theorem Reached.directory_confined {app : App} (happ : app.Reached) (root : DiskPath) :
    (∀ r : Route, (app.perform (r.staticDirectory root)).1 = .ok () →
      (∃ front, Pattern.parse r.treePath = .ok (front ++ [.wildcard])) ∧
        (app.after (r.staticDirectory root)).routes = app.routes ++
          app.accepted (r.infos "" r.treePath (Static.serveBelow root) [.head, .get]) ∧
        ((∀ m ∈ r.middlewares, m.Transparent) → ∀ m ∈ r.chain, m.Transparent)) ∧
    ∀ (ms : List Middleware) (request : Request) (host : String) (e : Entry Handler),
      (∀ m ∈ ms, m.Transparent) →
      Selects app.routes ((Context.host? { request }).getD "") host →
      Best (entriesOf app.routes host) request.method request.uri.path e →
      e.value = (Static.serveBelow root).compose ms →
      ∃ params, Binds params (e.pattern.captures request.uri.path) ∧
        (∀ front, e.pattern = front ++ [.wildcard] → Context.wildcard { request, params } =
          Text.Percent.decode (rawTail request.uri.path front.length)) ∧
        app.Confined root ms request params := by
  refine ⟨fun r h => ?_, fun ms request host e hms hs he hvalue => ?_⟩
  · obtain ⟨hpattern, hroutes⟩ := routes_of_staticFiles h
    have hcheck := Middleware.transparent_headerCheck r.checks
    exact ⟨hpattern, hroutes, fun hms => Route.forall_mem_chain hms hcheck⟩
  have hres := (happ.of_stable stable_listed).resolves hs
  have hbinds := binds_sorted (e.pattern.captures request.uri.path)
  have hfound := (hres.unique (.found he hbinds)).symm
  rw [hvalue] at hfound
  refine ⟨_, hbinds, ?_, confined_of_found hms hfound⟩
  intro front hfront
  rw [hfront] at hbinds ⊢
  exact Context.wildcard_of_binds hbinds

/-- The request for `/files/a%2F..%2Fb` where the directory `srv` is served below `/files`. -/
theorem directory_confined_encoded_dots :
    let app := ({} : App).build [.route "/files" [.staticDirectory ["srv"]]]
    let request : Request := { method := .get, uri := ⟨none, none, "/files/a%2F..%2Fb", none⟩ }
    app.Reached ∧ ∃ params, Context.wildcard { request, params } = "a/../b" ∧
      routing app.routers { request } = Handler.handOver { request, params } ∧
      app.Confined ["srv"] [] request params := by
  intro app request
  have hreached : app.Reached := ⟨{}, _, rfl⟩
  have hentries : entriesOf app.routes "" =
      [⟨.head, [.fixed "files", .wildcard], Static.serveBelow ["srv"]⟩,
        ⟨.get, [.fixed "files", .wildcard], Static.serveBelow ["srv"]⟩] := rfl
  have hhost : Selects app.routes ((Context.host? { request }).getD "") "" := by
    refine .named ?_
    exact ⟨_, List.mem_cons_self, rfl⟩
  have hbest : Best (entriesOf app.routes "") request.method request.uri.path
      ⟨.get, [.fixed "files", .wildcard], Static.serveBelow ["srv"]⟩ := by
    have hpieces : pathPieces request.uri.path = ["files", "a%2F..%2Fb"] := by decide
    rw [hentries]
    refine ⟨by simp, ⟨rfl, ?_⟩, ?_⟩
    · rw [hpieces]
      exact .fixed .wildcard
    · rintro o ho hfits hne
      rcases List.mem_cons.1 ho with rfl | ho
      · exact absurd hfits.1 (by decide)
      · exact absurd (List.mem_singleton.1 ho) hne
  obtain ⟨params, -, hname, hconfined⟩ := (hreached.directory_confined ["srv"]).2 [] request "" _
    (fun _ hm => absurd hm List.not_mem_nil) hhost hbest rfl
  have hdecoded : Text.Percent.decode (rawTail "/files/a%2F..%2Fb" 1) = "a/../b" := by
    decide +kernel
  have hwildcard : Context.wildcard { request, params } = "a/../b" :=
    (hname [.fixed "files"] rfl).trans hdecoded
  refine ⟨hreached, params, hwildcard, hconfined.escapes ?_, hconfined⟩
  rw [hwildcard]
  decide

end App

end Switchboard
