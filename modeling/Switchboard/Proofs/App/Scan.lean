import Switchboard.App.Dispatcher
import Switchboard.Proofs.App.Program
import Switchboard.Proofs.Routing.Resolution

set_option autoImplicit false

/-! # Routing against the list of routes

The list of routes says all that there is to say about routing. `Selects` names the host whose
routes count for a request, `entriesOf` are the entries of the listed routes of a host, and
`Listed` says that the routers hold exactly these entries. It is a stable property, so it holds for
every application that can be built, and dispatching a request answers it as the entries of the
selected host resolve (`App.Reached.reply?_eq_answer`). -/

namespace Switchboard

/-! ## Hosts and ports -/

/-- The host is the name with a port: a colon and digits, at least one. -/
def HasPort (host name : String) : Prop :=
  ∃ digits : List Char, digits ≠ [] ∧ (∀ c ∈ digits, c.isDigit) ∧
    host.toList = name.toList ++ ':' :: digits

theorem withoutPort?_of_hasPort {host name : String} (h : HasPort host name) :
    withoutPort? host = some name := by
  obtain ⟨digits, hne, hdigits, happ⟩ := h
  have hrev : host.toList.reverse = digits.reverse ++ ':' :: name.toList.reverse := by
    rw [happ, List.reverse_append, List.reverse_cons, List.append_assoc, List.singleton_append]
  have htake : host.toList.reverse.takeWhile (· ≠ ':') = digits.reverse := by
    rw [hrev, List.takeWhile_append_of_pos]
    · simp
    · intro c hc
      refine decide_eq_true ?_
      rintro rfl
      exact absurd (hdigits _ (List.mem_reverse.1 hc)) (by decide)
  have hall : digits.reverse.all Char.isDigit = true :=
    List.all_eq_true.2 fun c hc => hdigits c (List.mem_reverse.1 hc)
  rw [withoutPort?, htake, hrev, List.drop_left]
  simp [hne, hall]

theorem hasPort_of_withoutPort? {host name : String} (h : withoutPort? host = some name) :
    HasPort host name := by
  have hsplit := List.takeWhile_append_dropWhile (p := (· ≠ ':')) (l := host.toList.reverse)
  have hdrop : host.toList.reverse.drop (host.toList.reverse.takeWhile (· ≠ ':')).length =
      host.toList.reverse.dropWhile (· ≠ ':') := by
    conv => lhs; arg 2; rw [← hsplit]
    rw [List.drop_left]
  rw [withoutPort?, hdrop] at h
  generalize hds : host.toList.reverse.takeWhile (· ≠ ':') = ds at h hsplit
  cases hrest : host.toList.reverse.dropWhile (· ≠ ':') with
  | nil => rw [hrest] at h; cases h
  | cons c rest =>
      have hc : c = ':' := by
        have hhead := List.head?_dropWhile_not (· ≠ ':') host.toList.reverse
        rw [hrest] at hhead
        simpa using hhead
      subst hc
      rw [hrest] at h hsplit
      dsimp only at h
      split at h
      · next hcond =>
        obtain rfl := Option.some.inj h
        rw [Bool.and_eq_true, List.all_eq_true] at hcond
        refine ⟨ds.reverse, by simpa using hcond.1, ?_, ?_⟩
        · intro c hc
          exact hcond.2 c (List.mem_reverse.1 hc)
        · have hreversed := congrArg List.reverse hsplit
          simpa using hreversed.symm
      · cases h

theorem withoutPort?_eq_some_iff {host name : String} :
    withoutPort? host = some name ↔ HasPort host name :=
  ⟨hasPort_of_withoutPort?, withoutPort?_of_hasPort⟩

theorem HasPort.unique {host name name' : String} (h : HasPort host name)
    (h' : HasPort host name') : name' = name := by
  rw [← withoutPort?_eq_some_iff] at h h'
  exact Option.some.inj (h'.symm.trans h)

/-! ## The list of routes -/

/-- Some listed route has this host, given in small letters. -/
def HasHost (routes : List RouteInfo) (host : String) : Prop :=
  ∃ info ∈ routes, Text.lowercase info.host = host

/-- The host whose routes count for a request: the requested one if a listed route has it, else
the one without the port, else no host in particular. -/
inductive Selects (routes : List RouteInfo) (requested : String) : String → Prop
  | named : HasHost routes requested → Selects routes requested requested
  | withoutPort {host : String} : ¬ HasHost routes requested → HasPort requested host →
      HasHost routes host → Selects routes requested host
  | default : ¬ HasHost routes requested →
      (∀ host, HasPort requested host → ¬ HasHost routes host) → Selects routes requested ""

theorem Selects.unique {routes : List RouteInfo} {requested a b : String}
    (ha : Selects routes requested a) (hb : Selects routes requested b) : b = a := by
  cases ha with
  | named h =>
      cases hb with
      | named => rfl
      | withoutPort hno => exact absurd h hno
      | default hno => exact absurd h hno
  | withoutPort hno hport h =>
      cases hb with
      | named h' => exact absurd h' hno
      | withoutPort _ hport' => exact hport.unique hport'
      | default _ hnone => exact absurd h (hnone _ hport)
  | default hno hnone =>
      cases hb with
      | named h => exact absurd h hno
      | withoutPort _ hport h => exact absurd h (hnone _ hport)
      | default => rfl

theorem exists_selects (routes : List RouteInfo) (requested : String) :
    ∃ host, Selects routes requested host := by
  by_cases h : HasHost routes requested
  · exact ⟨_, .named h⟩
  · by_cases h' : ∃ host, HasPort requested host ∧ HasHost routes host
    · obtain ⟨host, hport, hhost⟩ := h'
      exact ⟨_, .withoutPort h hport hhost⟩
    · exact ⟨_, .default h fun host hport hhost => h' ⟨host, hport, hhost⟩⟩

/-- The entry that a listed route stands for. -/
def RouteInfo.parsed? (info : RouteInfo) : Option (Entry Handler) :=
  match Pattern.parse info.path with
  | .ok pattern => some ⟨info.method, pattern, info.handler⟩
  | .error _ => none

theorem RouteInfo.parsed?_of_parse {info : RouteInfo} {p : Pattern}
    (h : Pattern.parse info.path = .ok p) :
    info.parsed? = some ⟨info.method, p, info.handler⟩ := by
  rw [parsed?, h]

/-- The entries of the listed routes of a host. -/
def entriesOf (routes : List RouteInfo) (host : String) : List (Entry Handler) :=
  (routes.filter (Text.lowercase ·.host = host)).filterMap RouteInfo.parsed?

theorem entriesOf_append (routes routes' : List RouteInfo) (host : String) :
    entriesOf (routes ++ routes') host = entriesOf routes host ++ entriesOf routes' host := by
  rw [entriesOf, List.filter_append, List.filterMap_append, entriesOf, entriesOf]

theorem entriesOf_singleton_self {info : RouteInfo} {p : Pattern}
    (h : Pattern.parse info.path = .ok p) :
    entriesOf [info] (Text.lowercase info.host) = [⟨info.method, p, info.handler⟩] := by
  simp [entriesOf, RouteInfo.parsed?_of_parse h]

theorem entriesOf_singleton_of_ne {info : RouteInfo} {host : String}
    (h : Text.lowercase info.host ≠ host) : entriesOf [info] host = [] := by
  simp [entriesOf, h]

theorem entriesOf_eq_nil {routes : List RouteInfo} {host : String} (h : ¬ HasHost routes host) :
    entriesOf routes host = [] := by
  rw [entriesOf, List.filter_eq_nil_iff.2, List.filterMap_nil]
  intro info hinfo hhost
  exact h ⟨info, hinfo, of_decide_eq_true hhost⟩

/-! ## Routers that hold the listed routes -/

namespace App

/-- The routers hold the listed routes, each under its host in small letters, and nothing else. -/
structure Listed (routers : Routers) (routes : List RouteInfo) : Prop where
  readable : ∀ info ∈ routes, info.parsed?.isSome
  present : ∀ host, (Table.value? routers host).isSome ↔ HasHost routes host
  holds : ∀ host, (routerOf routers host).Holds (entriesOf routes host)

theorem listed_nil : Listed [] [] where
  readable _ h := nomatch h
  present host := by simp [HasHost]
  holds _ := Router.holds_empty

theorem routerOf_put (routers : Routers) (host host' : String) (router : Router Handler) :
    routerOf (Table.put routers host router) host' =
      if host' = host then router else routerOf routers host' := by
  rw [routerOf, Table.value?_put]
  split <;> rfl

/-- Adding one route that its router accepts. -/
theorem Listed.add {routers : Routers} {routes : List RouteInfo} (h : Listed routers routes)
    {info : RouteInfo} {router : Router Handler}
    (hadd : (routerOf routers (Text.lowercase info.host)).add info.method info.path info.handler =
      (router, .ok ())) :
    Listed (Table.put routers (Text.lowercase info.host) router) (routes ++ [info]) := by
  obtain ⟨p, hp, -⟩ := Router.parse_of_add_ok (congrArg Prod.snd hadd)
  constructor
  · intro i hi
    rcases List.mem_append.1 hi with hi | hi
    · exact h.readable i hi
    · obtain rfl := List.mem_singleton.1 hi
      rw [RouteInfo.parsed?_of_parse hp]
      rfl
  · intro host
    rw [Table.value?_put]
    split
    · next e => simp [HasHost, e]
    · next ne =>
      rw [h.present]
      simp [HasHost, or_and_right, exists_or, Ne.symm ne]
  · intro host
    rw [routerOf_put, entriesOf_append]
    split
    · next e =>
      subst e
      have hr := (h.holds _).add hp (congrArg Prod.snd hadd)
      rw [hadd] at hr
      rw [entriesOf_singleton_self hp]
      exact hr
    · next ne =>
      rw [entriesOf_singleton_of_ne (Ne.symm ne), List.append_nil]
      exact h.holds host

theorem stable_listed : Stable Listed where
  empty := listed_nil
  added := by
    intro routers after routes infos h hadd
    induction infos generalizing routers routes with
    | nil =>
        cases hadd
        rwa [List.append_nil]
    | cons info rest ih =>
        rw [addAll] at hadd
        rcases hr : (routerOf routers (Text.lowercase info.host)).add info.method info.path
          info.handler with ⟨router, cause | _⟩
        · rw [hr] at hadd
          cases hadd
        · rw [hr] at hadd
          rw [List.append_cons]
          exact ih (h.add hr) hadd

section Select

variable {routers : Routers} {routes : List RouteInfo}

theorem Listed.value?_eq_none (h : Listed routers routes) {host : String}
    (hno : ¬ HasHost routes host) : Table.value? routers host = none := by
  rw [← Option.not_isSome_iff_eq_none, h.present]
  exact hno

/-- The selected router is the one of the selected host. -/
theorem Listed.selectRouter? (h : Listed routers routes) {requested : Option String}
    {host : String} (hs : Selects routes (requested.getD "") host) :
    selectRouter? routers requested = Table.value? routers host := by
  cases requested with
  | none =>
      -- the empty text has no port, so only the host of no name is left
      show Table.value? routers "" = _
      cases hs with
      | named => rfl
      | withoutPort _ hport =>
          obtain ⟨digits, -, -, happ⟩ := hport
          simp at happ
      | default => rfl
  | some requested =>
      rw [Option.getD_some] at hs
      rw [App.selectRouter?, Option.bind_some]
      cases hs with
      | named hhost =>
          obtain ⟨router, hr⟩ := Option.isSome_iff_exists.1 ((h.present _).2 hhost)
          simp [hr]
      | withoutPort hno hport hhost =>
          obtain ⟨router, hr⟩ := Option.isSome_iff_exists.1 ((h.present _).2 hhost)
          have hnone : Table.value? routers requested = none := h.value?_eq_none hno
          simp [hnone, withoutPort?_of_hasPort hport, hr]
      | default hno hnone =>
          have hnone' : Table.value? routers requested = none := h.value?_eq_none hno
          cases hport : withoutPort? requested with
          | none => simp [hnone']
          | some name =>
              have hwithout := h.value?_eq_none (hnone name (hasPort_of_withoutPort? hport))
              simp [hnone', hwithout]

theorem Listed.resolves (h : Listed routers routes) {ctx : Context} {host : String}
    (hs : Selects routes (ctx.host?.getD "") host) :
    Resolves (entriesOf routes host) ctx.request.method ctx.path (resolve routers ctx) := by
  rw [resolve, h.selectRouter? hs]
  cases hr : Table.value? routers host with
  | none =>
      have hno : ¬ HasHost routes host := by
        rw [← h.present, hr]
        exact Bool.false_ne_true
      rw [entriesOf_eq_nil hno]
      exact .notFound fun _ _ he => nomatch he
  | some router =>
      have hholds := h.holds host
      rw [routerOf, hr] at hholds
      exact hholds.resolves _ _

end Select

/-! ## Dispatching -/

/-- What becomes of a request once it is known what its path resolves to: the handler that was
found runs with its parameters, or the response names the methods that the path has, or the
not-found handler runs. -/
def answer (app : App) (disk : Disk) (depth : Nat) (request : Request) :
    Match Handler → Option (Reply × List String)
  | .found handler params =>
    (handler { request, params }).run disk (app.notFound.answerWithin disk depth)
  | .methodNotAllowed allowed =>
    let allow := ", ".intercalate (allowed.map (·.name))
    some (.ok { status := .methodNotAllowed, headers := [("allow", allow)] }, [])
  | .notFound => app.notFound.answerWithin disk depth { request }

theorem run_handOver (disk : Disk) (answer : Context → Option (Reply × List String))
    (ctx : Context) : (Handler.handOver ctx).run disk answer = answer ctx := by
  rw [Handler.handOver, Action.run]
  cases answer ctx with
  | none => rfl
  | some r => simp [Action.run]

/-- Without middlewares around routing, the reply is what the routers resolve the request to. -/
theorem reply?_of_pre_nil {app : App} (hpre : app.pre = []) (disk : Disk) (depth : Nat)
    (request : Request) :
    app.dispatcher.reply? disk depth request =
      app.answer disk depth request (resolve app.routers { request }) := by
  show ((routing app.routers).compose app.pre { request }).run disk _ = _
  rw [hpre, Handler.compose_nil, routing]
  cases resolve app.routers { request } with
  | found handler params => rfl
  | methodNotAllowed allowed => rfl
  | notFound => exact run_handOver _ _ _

/-- An application without middlewares around routing answers each request as a look through the
list of its routes would, however it was built. The routers hold what is listed and nothing else;
exactly one host is selected; the listed routes of that host give exactly one answer; and this
answer becomes the reply. -/
theorem Reached.reply?_eq_answer {app : App} (h : app.Reached) (hpre : app.pre = []) :
    Listed app.routers app.routes ∧
    ∀ disk depth (request : Request), ∃ host result,
      (Selects app.routes ((Context.host? { request }).getD "") host ∧
        ∀ o, Selects app.routes ((Context.host? { request }).getD "") o → o = host) ∧
      (Resolves (entriesOf app.routes host) request.method request.uri.path result ∧
        ∀ o, Resolves (entriesOf app.routes host) request.method request.uri.path o →
          o = result) ∧
      app.dispatcher.reply? disk depth request = app.answer disk depth request result := by
  have hlisted := h.of_stable stable_listed
  refine ⟨hlisted, fun disk depth request => ?_⟩
  obtain ⟨host, hs⟩ := exists_selects app.routes ((Context.host? { request }).getD "")
  have hres := hlisted.resolves hs
  refine ⟨host, _, ⟨hs, ?_⟩, ⟨hres, ?_⟩, reply?_of_pre_nil hpre disk depth request⟩
  · intro o ho
    exact hs.unique ho
  · intro o ho
    exact hres.unique ho

theorem reply?_eq_answer_hosted_group :
    let app := ({} : App).build [.group "/users" (.route "/:id"
      [.onHost "Example.COM", .handle (.text .ok "user") [.get, .put]] .done)]
    app.pre = [] ∧ ∀ disk depth (request : Request), ∃ host result,
      Selects app.routes ((Context.host? { request }).getD "") host ∧
      Resolves (entriesOf app.routes host) request.method request.uri.path result ∧
      app.dispatcher.reply? disk depth request = app.answer disk depth request result := by
  intro app
  have hreached : app.Reached := ⟨{}, _, rfl⟩
  have hpre : app.pre = [] := rfl
  refine ⟨hpre, fun disk depth request => ?_⟩
  have h := hreached.reply?_eq_answer hpre
  obtain ⟨host, result, hs, hr, hreply⟩ := h.2 disk depth request
  exact ⟨host, result, hs.1, hr.1, hreply⟩

end App

end Switchboard
