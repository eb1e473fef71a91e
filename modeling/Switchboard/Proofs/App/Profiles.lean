import Switchboard.Profiles
import Switchboard.Proofs.App.Replay
import Switchboard.Proofs.Routing.Filling
import Switchboard.Proofs.Static.HeadRequests

set_option autoImplicit false

/-! # Profiles under their names

A profile is served below `/debug/pprof/` under its name, written with percent signs where it has
to be. The piece of the path that stands for the name is compared as it is written with the names
of the dedicated routes; three of these serve the profile of that name, and one, for the arguments
of the process, does not. So every profile is served, except one that is called like that route
(`App.Reached.serves_profile`).
-/

namespace Switchboard

open Text (Bytes utf8)
open Text.Percent (encode decode)

namespace Profiles

variable (ps : Profiles) (arguments : List String)

/-- A pattern one part below the path that all routes of profiles are below. -/
def below (part : Part) : Pattern := [.fixed "debug", .fixed "pprof", part]

/-- The names that have a route of their own. -/
def dedicated : List String := ["cmdline", "profile", "symbol", "trace"]

theorem parse_wildcard : Pattern.parse (base ++ "/" ++ "*") = .ok (below .wildcard) := by
  decide +kernel

theorem parse_dedicated :
    ∀ text ∈ dedicated, Pattern.parse (base ++ "/" ++ text) = .ok (below (.fixed text)) := by
  decide +kernel

theorem entriesOf_routes : entriesOf (ps.routes arguments) "" =
    [⟨.get, below .wildcard, ps.serveIndex⟩,
      ⟨.get, below (.fixed "cmdline"), serveArguments arguments⟩,
      ⟨.get, below (.fixed "profile"), ps.serve "profile"⟩,
      ⟨.get, below (.fixed "symbol"), ps.serve "symbol"⟩,
      ⟨.post, below (.fixed "symbol"), ps.serve "symbol"⟩,
      ⟨.get, below (.fixed "trace"), ps.serve "trace"⟩] := by
  have hall : (ps.routes arguments).filter (Text.lowercase ·.host = "") = ps.routes arguments :=
    rfl
  rw [entriesOf, hall, routes]
  simp only [List.filterMap_cons, List.filterMap_nil, RouteInfo.parsed?, parse_wildcard,
    parse_dedicated "cmdline" (by decide),
    parse_dedicated "profile" (by decide),
    parse_dedicated "symbol" (by decide),
    parse_dedicated "trace" (by decide)]

/-- The handler for `GET` of the route of its own that a name has. -/
def handlerOf (text : String) : Handler :=
  if text = "cmdline" then serveArguments arguments else ps.serve text

theorem decode_dedicated {text : String} (h : text ∈ dedicated) : decode text = text := by
  have hall : ∀ text ∈ dedicated, decode text = text := by decide +kernel
  exact hall text h

/-- The methods and the paths of the routes. -/
def keys : List (Method × String) :=
  [(.get, "*"), (.get, "cmdline"), (.get, "profile"), (.get, "symbol"), (.post, "symbol"),
    (.get, "trace")].map fun key => (key.1, base ++ "/" ++ key.2)

theorem map_routes :
    (ps.routes arguments).map (fun info => (info.method, info.path)) = keys := rfl

theorem exists_parse_of_mem_keys {key : Method × String} (h : key ∈ keys) :
    ∃ p, Pattern.parse key.2 = .ok p := by
  have hall : ∀ key ∈ keys, (Pattern.parse key.2).isOk := by decide +kernel
  have hok := hall key h
  cases hp : Pattern.parse key.2 with
  | error cause =>
      rw [hp] at hok
      cases hok
  | ok p => exact ⟨p, rfl⟩

theorem keys_apart :
    keys.Pairwise fun a b => ¬ (a.1 = b.1 ∧ RouteInfo.pathsClash a.2 b.2) := by
  decide +kernel

variable {e : Entry Handler} {path s : String}

theorem mem_entriesOf_dedicated {text : String} (h : text ∈ dedicated) :
    ⟨.get, below (.fixed text), ps.handlerOf arguments text⟩ ∈
      entriesOf (ps.routes arguments) "" := by
  rw [entriesOf_routes]
  revert text
  simp [dedicated, handlerOf]

theorem eq_of_mem_entriesOf (h : e ∈ entriesOf (ps.routes arguments) "")
    (hmethod : e.method = .get) :
    e = ⟨.get, below .wildcard, ps.serveIndex⟩ ∨
      ∃ text ∈ dedicated, e = ⟨.get, below (.fixed text), ps.handlerOf arguments text⟩ := by
  rw [entriesOf_routes] at h
  simp only [List.mem_cons, List.not_mem_nil, or_false] at h
  rcases h with rfl | rfl | rfl | rfl | rfl | rfl
  · exact .inl rfl
  · exact .inr ⟨"cmdline", by decide, rfl⟩
  · exact .inr ⟨"profile", by decide, rfl⟩
  · exact .inr ⟨"symbol", by decide, rfl⟩
  · exact absurd (show Method.post = .get from hmethod) (by decide)
  · exact .inr ⟨"trace", by decide, rfl⟩

theorem matches_wildcard : (below .wildcard).Matches ["debug", "pprof", s] :=
  .fixed (.fixed .wildcard)

theorem matches_fixed_iff {text : String} :
    (below (.fixed text)).Matches ["debug", "pprof", s] ↔ text = s := by
  constructor
  · intro h
    cases h with
    | fixed h =>
      cases h with
      | fixed h => exact App.eq_of_matches_fixed h
  · rintro rfl
    exact .fixed (.fixed (.fixed .nil))

/-- A name with a route of its own is found by this route. -/
theorem best_dedicated (hpieces : pathPieces path = ["debug", "pprof", s]) (hs : s ∈ dedicated) :
    Best (entriesOf (ps.routes arguments) "") .get path
      ⟨.get, below (.fixed s), ps.handlerOf arguments s⟩ := by
  refine ⟨mem_entriesOf_dedicated ps arguments hs, ⟨rfl, ?_⟩, ?_⟩
  · rw [hpieces, matches_fixed_iff]
  · rintro o ho ⟨hmethod, hmatches⟩ hne
    rw [hpieces] at hmatches
    rcases eq_of_mem_entriesOf ps arguments ho hmethod with rfl | ⟨text, htext, rfl⟩
    · exact .tail (.tail (.head (by simp [Part.rank])))
    · rw [matches_fixed_iff] at hmatches
      exact absurd (hmatches ▸ rfl) hne

/-- Any other name is found by the wildcard. -/
theorem best_wildcard (hpieces : pathPieces path = ["debug", "pprof", s]) (hs : s ∉ dedicated) :
    Best (entriesOf (ps.routes arguments) "") .get path
      ⟨.get, below .wildcard, ps.serveIndex⟩ := by
  refine ⟨?_, ⟨rfl, ?_⟩, ?_⟩
  · rw [entriesOf_routes]
    exact List.mem_cons_self
  · rw [hpieces]
    exact matches_wildcard
  · rintro o ho ⟨hmethod, hmatches⟩ hne
    rw [hpieces] at hmatches
    rcases eq_of_mem_entriesOf ps arguments ho hmethod with rfl | ⟨text, htext, rfl⟩
    · exact absurd rfl hne
    · rw [matches_fixed_iff] at hmatches
      exact absurd (hmatches ▸ htext) hs

/-! ## The data of a profile -/

theorem run_notes {α : Type} (lines : List String) (value : α) (disk : Disk)
    (answer : Context → Option (Reply × List String)) :
    (lines.foldr Action.note (.done value)).run disk answer = some (value, lines) := by
  induction lines with
  | nil => rfl
  | cons line lines ih => rw [List.foldr_cons, Action.run, ih, Option.map_some]

theorem isValue_append (a b : String) :
    Headers.isValue (a ++ b) = (Headers.isValue a && Headers.isValue b) := by
  rw [Headers.isValue, String.toList_append, List.all_append]
  rfl

theorem isValue_attachment {name : String} (h : Headers.isValue name) :
    Headers.isValue s!"attachment; filename=\"{name}\"" := by
  show Headers.isValue ("attachment; filename=\"" ++ name ++ "\"") = true
  rw [isValue_append, isValue_append, h]
  decide

/-- A profile that yields data is shown with them, whatever else the request asks for. -/
theorem exists_run_serve {name : String} {profile : Profile} {bytes : Bytes} {ctx : Context}
    (hprofile : ps.table.value? name = some profile) (hvalue : Headers.isValue name)
    (hbytes : profile (flagOf ctx "debug") = .ok bytes) :
    ∃ response lines, response.status = .ok ∧ response.body = bytes ∧
      ∀ disk answer, (ps.serve name ctx).run disk answer = some (.ok response, lines) := by
  have hshown : ∃ response : Response, response.status = .ok ∧ response.body = bytes ∧
      shown name (flagOf ctx "debug" ≠ 0) bytes = .ok response := by
    rw [shown]
    split
    · exact ⟨_, rfl, rfl, rfl⟩
    · dsimp only
      rw [Response.withField, if_pos (isValue_attachment hvalue)]
      exact ⟨_, rfl, rfl, rfl⟩
  obtain ⟨response, hstatus, hbody, hshown⟩ := hshown
  refine ⟨response, if name = "heap" ∧ 0 < flagOf ctx "gc" then ps.collect.getD [] else [],
    hstatus, hbody, fun disk answer => ?_⟩
  rw [serve, hprofile]
  dsimp only
  rw [hbytes]
  dsimp only
  rw [hshown]
  exact run_notes _ _ disk answer

theorem serveIndex_of_ne {ctx : Context} (h : ctx.wildcard ≠ "") :
    ps.serveIndex ctx = ps.serve ctx.wildcard ctx := by
  have hne : ¬ ctx.wildcard.isEmpty := fun hempty => h (String.isEmpty_iff.1 hempty)
  rw [serveIndex, if_neg hne]

/-! ## The path of a profile -/

/-- The path of a piece below the path that all routes of profiles are below. -/
def pathOf (s : String) : String := base ++ "/" ++ s

theorem pathOf_eq (s : String) :
    pathOf s = "/" ++ ("debug" ++ "/" ++ ("pprof" ++ "/" ++ s)) := by
  have hbase : base = "/" ++ ("debug" ++ "/" ++ "pprof") := by decide
  rw [pathOf, hbase]
  simp only [String.append_assoc]

theorem isPiece_debug : IsPiece "debug" := ⟨by decide, by decide⟩

theorem isPiece_pprof : IsPiece "pprof" := ⟨by decide, by decide⟩

theorem pathPieces_pathOf (h : IsPiece s) : pathPieces (pathOf s) = ["debug", "pprof", s] := by
  rw [pathOf_eq, pathPieces_slash_append, pathPieces_append_slash, pathPieces_append_slash,
    isPiece_debug.pathPieces_eq, isPiece_pprof.pathPieces_eq, h.pathPieces_eq]
  rfl

theorem rawTail_pathOf (h : IsPiece s) : rawTail (pathOf s) 2 = s := by
  have hend : (s ++ "").toList.getLast? ≠ some '/' := by
    rw [String.append_empty]
    exact fun hlast => h.no_slash (List.mem_of_getLast? hlast)
  rw [pathOf_eq, rawTail_slash_append, isPiece_debug.rawTail_succ, isPiece_pprof.rawTail_succ]
  have htail := h.rawTail_zero hend
  rwa [String.append_empty] at htail

theorem wildcard_of_binds {request : Request} {params : Params} (h : IsPiece s)
    (hpath : request.uri.path = pathOf s)
    (hbinds : Binds params ((below .wildcard).captures request.uri.path)) :
    Context.wildcard { request, params } = decode s := by
  have hpattern : below .wildcard = [.fixed "debug", .fixed "pprof"] ++ [.wildcard] := rfl
  rw [hpattern] at hbinds
  rw [Context.wildcard_of_binds hbinds, hpath]
  exact congrArg decode (rawTail_pathOf h)

end Profiles

/-- Routes of no host in particular count for every request. -/
theorem Selects.eq_empty {routes : List RouteInfo} {requested host : String}
    (h : Selects routes requested host) (hhosts : ∀ info ∈ routes, info.host = "") : host = "" := by
  have hempty : ∀ {host}, HasHost routes host → host = "" := by
    rintro host ⟨info, hinfo, rfl⟩
    rw [hhosts info hinfo]
    rfl
  cases h with
  | named hhost => exact hempty hhost
  | withoutPort _ _ hhost => exact hempty hhost
  | default => rfl

namespace App

open Profiles

variable {app : App} {ps : Profiles} {arguments : List String} {request : Request} {s : String}

/-- What a request for a piece below the path of all profiles is resolved to. -/
theorem Reached.resolve_of_best (happ : app.Reached) (hroutes : app.routes = ps.routes arguments)
    {e : Entry Handler}
    (hbest : Best (entriesOf (ps.routes arguments) "") request.method request.uri.path e) :
    resolve app.routers { request } =
      .found e.value (Table.sorted (e.pattern.captures request.uri.path)) := by
  obtain ⟨host, hs⟩ := exists_selects app.routes ((Context.host? { request }).getD "")
  have hhosts : ∀ info ∈ ps.routes arguments, info.host = "" := by
    simp [Profiles.routes]
  obtain rfl : host = "" := hs.eq_empty (hroutes ▸ hhosts)
  have hres := (happ.of_stable stable_listed).resolves hs
  rw [hroutes] at hres
  exact (hres.unique (.found hbest (binds_sorted _))).symm

/-- The routes of profiles can be added to an application that has nothing yet. -/
theorem perform_addRoutes_profiles (config : AppConfig) (ps : Profiles) (arguments : List String) :
    ∃ app, ({ config } : App).perform (addRoutes (ps.routes arguments)) = (.ok (), app) ∧
      app.Reached ∧ app.pre = [] ∧ app.routes = ps.routes arguments := by
  have hparsed : ∀ info ∈ ps.routes arguments, info.parsed?.isSome := by
    intro info hinfo
    have hkey : (info.method, info.path) ∈ keys := by
      rw [← map_routes ps arguments]
      exact List.mem_map.2 ⟨info, hinfo, rfl⟩
    exact RouteInfo.parsed?_isSome_iff.2 (exists_parse_of_mem_keys hkey)
  have hadd : ∃ after, addAll [] (ps.routes arguments) = .ok after := by
    rw [tidy_nil.addAll_ok_iff]
    refine ⟨fun info hinfo => ⟨hparsed info hinfo, fun old hold => by cases hold⟩, ?_⟩
    have hapart := keys_apart
    rw [← map_routes ps arguments, List.pairwise_map] at hapart
    refine hapart.imp fun hkey hclash => hkey ⟨hclash.2.1, ?_⟩
    exact RouteInfo.pathsClash_iff.2 hclash.2.2
  obtain ⟨after, hadd⟩ := hadd
  have hlowered : (ps.routes arguments).map RouteInfo.lowered = ps.routes arguments := rfl
  have hbare : ({ config } : App).Bare := ⟨rfl, rfl, rfl⟩
  have hperform := hbare.perform_addRoutes hparsed (hlowered.symm ▸ hadd)
  refine ⟨_, hperform, ⟨config, [.addRoutes (ps.routes arguments)], ?_⟩, rfl, ?_⟩
  · show _ = ({ config } : App).after (addRoutes (ps.routes arguments))
    rw [App.after, hperform]
  · rw [hlowered]
    rfl

/-- A handler that makes its reply without handing over replies to what it is found for. -/
theorem dispatch?_of_run (hpre : app.pre = []) {handler : Handler} {params : Params}
    (hfound : resolve app.routers { request } = .found handler params) {reply : Reply}
    {lines : List String}
    (hrun : ∀ disk answer, (handler { request, params }).run disk answer = some (reply, lines))
    (disk : Disk) (depth : Nat) :
    app.dispatcher.dispatch? disk depth request = some (reply.response, lines) := by
  rw [Dispatcher.dispatch?_eq, reply?_of_pre_nil hpre, hfound, answer, hrun, Option.map_some]

/-- The piece that is called like the route for the arguments gets the arguments. -/
theorem Reached.serves_arguments (happ : app.Reached) (hpre : app.pre = [])
    (hroutes : app.routes = ps.routes arguments) (hmethod : request.method = .get)
    (hpath : request.uri.path = pathOf "cmdline") (disk : Disk) (depth : Nat) :
    app.dispatcher.dispatch? disk depth request =
      some ({ headers := [Response.noSniff, Response.plainText]
              body := utf8 ("\x00".intercalate arguments) }, []) := by
  have hpieces : pathPieces request.uri.path = ["debug", "pprof", "cmdline"] := by
    rw [hpath, pathPieces_pathOf ⟨by decide, by decide⟩]
  have hbest := best_dedicated ps arguments hpieces (by decide)
  rw [← hmethod] at hbest
  exact dispatch?_of_run hpre (happ.resolve_of_best hroutes hbest) (fun _ _ => rfl) disk depth

/-- Any other piece gets the data of the profile whose name it decodes to. -/
theorem Reached.serves_piece (happ : app.Reached) (hpre : app.pre = [])
    (hroutes : app.routes = ps.routes arguments) (hs : IsPiece s) (hother : s ≠ "cmdline")
    (hname : decode s ≠ "") (hvalue : Headers.isValue (decode s)) {profile : Profile}
    (hprofile : ps.table.value? (decode s) = some profile) (hmethod : request.method = .get)
    (hpath : request.uri.path = pathOf s) {bytes : Bytes}
    (hbytes : profile (flagOf { request } "debug") = .ok bytes) :
    ∃ response lines, response.status = .ok ∧ response.body = bytes ∧
      ∀ disk depth, app.dispatcher.dispatch? disk depth request = some (response, lines) := by
  have hpieces : pathPieces request.uri.path = ["debug", "pprof", s] := by
    rw [hpath, pathPieces_pathOf hs]
  -- the query is all that is looked at besides the name
  have hflag : ∀ params, flagOf { request, params } "debug" = flagOf { request } "debug" :=
    fun _ => rfl
  by_cases hdedicated : s ∈ dedicated
  · have hbest := best_dedicated ps arguments hpieces hdedicated
    rw [← hmethod] at hbest
    have hfound := happ.resolve_of_best hroutes hbest
    have hserve : ps.handlerOf arguments s = ps.serve (decode s) := by
      rw [handlerOf, if_neg hother, decode_dedicated hdedicated]
    rw [hserve] at hfound
    obtain ⟨response, lines, hstatus, hbody, hrun⟩ :=
      ps.exists_run_serve hprofile hvalue (hflag _ ▸ hbytes)
    exact ⟨response, lines, hstatus, hbody, dispatch?_of_run hpre hfound hrun⟩
  · have hbest := best_wildcard ps arguments hpieces hdedicated
    rw [← hmethod] at hbest
    have hfound := happ.resolve_of_best hroutes hbest
    let ctx : Context :=
      { request, params := Table.sorted ((below .wildcard).captures request.uri.path) }
    have hwildcard : ctx.wildcard = decode s := wildcard_of_binds hs hpath (binds_sorted _)
    obtain ⟨response, lines, hstatus, hbody, hrun⟩ :=
      ps.exists_run_serve hprofile hvalue (hflag ctx.params ▸ hbytes)
    have hindex : ∀ disk answer, (ps.serveIndex ctx).run disk answer =
        some (.ok response, lines) := by
      rw [ps.serveIndex_of_ne (hwildcard.symm ▸ hname), hwildcard]
      exact hrun
    exact ⟨response, lines, hstatus, hbody, dispatch?_of_run hpre hfound hindex⟩

/-- A profile is served under its name. Let an application without middlewares around routing hold
the routes of some profiles and no others. One of the profiles may have any name that is not empty
and may stand in a header; its path is the one of its name, with percent signs for all but letters
and digits of ASCII and four marks. `GET` for this path, whatever its query and its host are,
answers with the bytes that the profile yields for the number that the query asks for, in a
response with status 200.

There is one exception. The route for the arguments of the process comes before a profile of that
name: the path of the profile gets the arguments, and the profile is found under other spellings of
its name only. -/
theorem Reached.serves_profile (happ : app.Reached) (hpre : app.pre = [])
    (hroutes : app.routes = ps.routes arguments) {name : String} (hname : name ≠ "")
    (hvalue : Headers.isValue name) {profile : Profile}
    (hprofile : ps.table.value? name = some profile) (hmethod : request.method = .get)
    {bytes : Bytes} (hbytes : profile (flagOf { request } "debug") = .ok bytes) :
    (name ≠ "cmdline" → request.uri.path = base ++ "/" ++ encode name →
      ∃ response lines, response.status = .ok ∧ response.body = bytes ∧
        ∀ disk depth, app.dispatcher.dispatch? disk depth request = some (response, lines)) ∧
    (name = "cmdline" → request.uri.path = base ++ "/" ++ encode name →
      ∀ disk depth, app.dispatcher.dispatch? disk depth request =
        some ({ headers := [Response.noSniff, Response.plainText]
                body := utf8 ("\x00".intercalate arguments) }, [])) ∧
    ∀ s, IsPiece s → decode s = name → s ≠ "cmdline" → request.uri.path = base ++ "/" ++ s →
      ∃ response lines, response.status = .ok ∧ response.body = bytes ∧
        ∀ disk depth, app.dispatcher.dispatch? disk depth request = some (response, lines) := by
  have hspelled : ∀ s, IsPiece s → decode s = name → s ≠ "cmdline" →
      request.uri.path = base ++ "/" ++ s →
      ∃ response lines, response.status = .ok ∧ response.body = bytes ∧
        ∀ disk depth, app.dispatcher.dispatch? disk depth request = some (response, lines) := by
    rintro s hs rfl hother hpath
    exact happ.serves_piece hpre hroutes hs hother hname hvalue hprofile hmethod hpath hbytes
  have hdecode : decode (encode name) = name := Text.Percent.decode_encode name
  refine ⟨fun hother hpath => ?_, ?_, hspelled⟩
  · refine hspelled _ (Pattern.isPiece_encode hname) hdecode (fun hencoded => hother ?_) hpath
    rw [← hdecode, hencoded, decode_dedicated List.mem_cons_self]
  · rintro rfl hpath
    have hencode : encode "cmdline" = "cmdline" := by decide +kernel
    rw [hencode] at hpath
    exact happ.serves_arguments hpre hroutes hmethod hpath

/-- A profile whose name has to be written with percent signs. -/
theorem serves_profile_encoded :
    let profile : Profile := fun debug => .ok (if debug = 1 then [1] else [0])
    let ps := ({} : Profiles).register "a b/c" profile
    let uri : Uri := ⟨none, none, "/debug/pprof/a%20b%2Fc", some "debug=1"⟩
    ∃ app, ({} : App).perform (addRoutes (ps.routes ["server"])) = (.ok (), app) ∧
      (app.Reached ∧ app.pre = [] ∧ app.routes = ps.routes ["server"]) ∧
      ps.table.value? "a b/c" = some profile ∧
      profile (flagOf { request := { uri } } "debug") = .ok [1] ∧
      ∃ response lines, response.status = .ok ∧ response.body = [1] ∧
        ∀ disk depth, app.dispatcher.dispatch? disk depth { uri } = some (response, lines) := by
  intro profile ps uri
  obtain ⟨app, hperform, hreached, hpre, hroutes⟩ := perform_addRoutes_profiles {} ps ["server"]
  have hprofile : ps.table.value? "a b/c" = some profile := rfl
  have hflag : flagOf { request := { uri } } "debug" = 1 := by decide +kernel
  have hbytes : profile (flagOf { request := { uri } } "debug") = .ok [1] := by
    rw [hflag]
    rfl
  have hpath : uri.path = base ++ "/" ++ encode "a b/c" := by decide +kernel
  obtain ⟨hserved, -⟩ :=
    hreached.serves_profile hpre hroutes (by decide) (by decide) hprofile rfl hbytes
  exact ⟨app, hperform, ⟨hreached, hpre, hroutes⟩, hprofile, hbytes, hserved (by decide) hpath⟩

/-- A profile that is called like the route for the arguments. -/
theorem hidden_profile :
    let profile : Profile := fun _ => .ok [0]
    let ps := ({} : Profiles).register "cmdline" profile
    let uri : Uri := ⟨none, none, base ++ "/" ++ encode "cmdline", none⟩
    ∃ app, ({} : App).perform (addRoutes (ps.routes ["server"])) = (.ok (), app) ∧
      ps.table.value? "cmdline" = some profile ∧ Headers.isValue "cmdline" ∧
      profile (flagOf { request := { uri } } "debug") = .ok [0] ∧
      ¬ ∃ disk depth response lines, response.body = [0] ∧
        app.dispatcher.dispatch? disk depth { uri } = some (response, lines) := by
  intro profile ps uri
  obtain ⟨app, hperform, hreached, hpre, hroutes⟩ := perform_addRoutes_profiles {} ps ["server"]
  have hencode : encode "cmdline" = "cmdline" := by decide +kernel
  have hpath : uri.path = pathOf "cmdline" := congrArg (base ++ "/" ++ ·) hencode
  refine ⟨app, hperform, rfl, by decide, rfl, ?_⟩
  rintro ⟨disk, depth, response, lines, hbody, hresponse⟩
  rw [hreached.serves_arguments hpre hroutes rfl hpath disk depth] at hresponse
  cases hresponse
  revert hbody
  decide +kernel

end App

end Switchboard
