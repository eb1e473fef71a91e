import Switchboard.Proofs.App.Scan
import Switchboard.Proofs.Routing.Conflicts

set_option autoImplicit false

/-! # Which routes an application accepts

Whether a route can be added depends on the routes that are listed, and on nothing else: its path
can be read, and it clashes with no listed route of its host and its method
(`App.Tidy.addAll_ok_iff`). For this the routers must hold what is listed and be grown, and no two
listed routes may clash. All this is a stable property, so it holds for every application that can
be built.
-/

namespace Switchboard

namespace Pattern

/-- Whether two patterns clash, part by part. -/
def clashes : Pattern → Pattern → Bool
  | [], q => q.isEmpty
  | .param name :: p, .param other :: q => name ≠ other || clashes p q
  | a :: p, b :: q => a = b && clashes p q
  | _ :: _, [] => false

theorem clashes_iff {p q : Pattern} : p.clashes q ↔ p.Clashes q := by
  induction p generalizing q with
  | nil => rw [clashes_nil_iff, clashes, List.isEmpty_iff]
  | cons a p ih =>
      cases q with
      | nil => cases a <;> simp [clashes, clashes_cons_iff]
      | cons b q =>
          cases a with
          | fixed text =>
              cases b with
              | fixed other => simp [clashes, clashes_fixed_iff, ih, @eq_comm _ other text]
              | param | wildcard => simp [clashes, clashes_fixed_iff]
          | wildcard => cases b <;> simp [clashes, clashes_cons_iff, ih]
          | param name =>
              cases b with
              | param other =>
                  rw [clashes_param_iff]
                  simp only [clashes, Bool.or_eq_true, decide_eq_true_eq, ih]
                  constructor
                  · intro h
                    refine ⟨other, q, rfl, ?_⟩
                    intro heq
                    exact h.resolve_left (not_not_intro heq)
                  · rintro ⟨_, _, ⟨⟩, h⟩
                    by_cases heq : name = other
                    · exact .inr (h heq)
                    · exact .inl heq
              | fixed | wildcard => simp [clashes, clashes_param_iff]

end Pattern

namespace RouteInfo

/-- Two routes that cannot be listed together: they have the same host and the same method, and
their patterns clash. -/
def Clashes (a b : RouteInfo) : Prop :=
  Text.lowercase a.host = Text.lowercase b.host ∧ a.method = b.method ∧
    ∃ p q, Pattern.parse a.path = .ok p ∧ Pattern.parse b.path = .ok q ∧ p.Clashes q

theorem Clashes.symm {a b : RouteInfo} (h : a.Clashes b) : b.Clashes a := by
  obtain ⟨hhost, hmethod, p, q, hp, hq, hclash⟩ := h
  exact ⟨hhost.symm, hmethod.symm, q, p, hq, hp, hclash.symm⟩

/-- Whether the patterns of two paths clash. -/
def pathsClash (path path' : String) : Bool :=
  match Pattern.parse path, Pattern.parse path' with
  | .ok p, .ok q => p.clashes q
  | _, _ => false

theorem pathsClash_iff {path path' : String} : pathsClash path path' ↔
    ∃ p q, Pattern.parse path = .ok p ∧ Pattern.parse path' = .ok q ∧ p.Clashes q := by
  rw [pathsClash]
  cases Pattern.parse path with
  | error cause => simp
  | ok p =>
      cases Pattern.parse path' with
      | error cause => simp
      | ok q => simp [Pattern.clashes_iff]

instance (a b : RouteInfo) : Decidable (a.Clashes b) :=
  decidable_of_iff
    (Text.lowercase a.host = Text.lowercase b.host ∧ a.method = b.method ∧
      pathsClash a.path b.path)
    (by rw [Clashes, pathsClash_iff])

theorem parsed?_isSome_iff {info : RouteInfo} :
    info.parsed?.isSome ↔ ∃ p, Pattern.parse info.path = .ok p := by
  rw [parsed?]
  cases hp : Pattern.parse info.path with
  | error cause =>
      constructor
      · intro h
        cases h
      · rintro ⟨p, hp'⟩
        cases hp'
  | ok p => exact iff_of_true rfl ⟨p, rfl⟩

end RouteInfo

theorem mem_entriesOf_iff {routes : List RouteInfo} {host : String} {e : Entry Handler} :
    e ∈ entriesOf routes host ↔ ∃ info ∈ routes, Text.lowercase info.host = host ∧
      ∃ p, Pattern.parse info.path = .ok p ∧ e = ⟨info.method, p, info.handler⟩ := by
  have hparsed : ∀ info : RouteInfo, info.parsed? = some e ↔
      ∃ p, Pattern.parse info.path = .ok p ∧ e = ⟨info.method, p, info.handler⟩ := by
    intro info
    rw [RouteInfo.parsed?]
    cases Pattern.parse info.path with
    | error cause => simp
    | ok p => simp [eq_comm]
  rw [entriesOf, List.mem_filterMap]
  simp only [List.mem_filter, decide_eq_true_eq, hparsed, and_assoc]

/-- A registration that passes the three checks that do not look at the routers. -/
theorem Route.perform_registerAs_of_ok (r : Route) (app : App) (name : String) {path : String}
    (handler : Handler) {methods : List Method} {p : Pattern} (hmethods : methods ≠ [])
    (hp : Pattern.parse path = .ok p) (hmax : r.chain.length ≤ app.config.middlewareMax.toNat) :
    app.perform (r.registerAs name path handler methods) =
      (app.noteAll (Middleware.notesOf r.chain)).perform
        (App.register (r.infos name path handler methods)) := by
  have hsome : ¬ methods.isEmpty := by
    rw [List.isEmpty_iff]
    exact hmethods
  rw [perform_registerAs, if_neg hsome, hp]
  dsimp only
  rw [if_neg (Nat.not_lt.2 hmax)]

namespace App

variable {routers : Routers} {routes : List RouteInfo}

/-- A router that holds what is listed accepts a route exactly if its path can be read and it
clashes with no listed route. -/
theorem Listed.add_ok_iff (h : Listed routers routes) (hg : ∀ host, (routerOf routers host).Grown)
    (info : RouteInfo) :
    ((routerOf routers (Text.lowercase info.host)).add info.method info.path info.handler).2 =
        .ok () ↔
      info.parsed?.isSome ∧ ∀ old ∈ routes, ¬ info.Clashes old := by
  rw [(h.holds _).add_ok_iff (hg _), RouteInfo.parsed?_isSome_iff]
  constructor
  · rintro ⟨p, hp, hapart⟩
    refine ⟨⟨p, hp⟩, ?_⟩
    rintro old hold ⟨hhost, hmethod, p', q, hp', hq, hclash⟩
    obtain rfl := Except.ok.inj (hp.symm.trans hp')
    have hentry : (⟨old.method, q, old.handler⟩ : Entry Handler) ∈
        entriesOf routes (Text.lowercase info.host) :=
      mem_entriesOf_iff.2 ⟨old, hold, hhost.symm, q, hq, rfl⟩
    exact hapart _ hentry hmethod.symm hclash
  · rintro ⟨⟨p, hp⟩, hapart⟩
    refine ⟨p, hp, ?_⟩
    intro e he hmethod hclash
    obtain ⟨old, hold, hhost, q, hq, rfl⟩ := mem_entriesOf_iff.1 he
    exact hapart old hold ⟨hhost.symm, hmethod.symm, p, q, hp, hq, hclash⟩

/-- The routers hold the listed routes and nothing else, without nodes that lead nowhere, and no
two listed routes clash. -/
structure Tidy (routers : Routers) (routes : List RouteInfo) : Prop where
  listed : Listed routers routes
  grown : ∀ host, (routerOf routers host).Grown
  apart : routes.Pairwise fun a b => ¬ a.Clashes b

theorem tidy_nil : Tidy [] [] := ⟨listed_nil, fun _ => Router.grown_new, .nil⟩

/-- Adding one route that its router accepts. -/
theorem Tidy.add (h : Tidy routers routes) {info : RouteInfo} {router : Router Handler}
    (hadd : (routerOf routers (Text.lowercase info.host)).add info.method info.path info.handler =
      (router, .ok ())) :
    Tidy (Table.put routers (Text.lowercase info.host) router) (routes ++ [info]) := by
  have hgrown := (h.grown (Text.lowercase info.host)).add info.method info.path info.handler
  rw [hadd] at hgrown
  have haccepted := (h.listed.add_ok_iff h.grown info).1 (congrArg Prod.snd hadd)
  refine ⟨h.listed.add hadd, ?_, ?_⟩
  · intro host
    rw [routerOf_put]
    by_cases hhost : host = Text.lowercase info.host
    · rw [if_pos hhost]
      exact hgrown
    · rw [if_neg hhost]
      exact h.grown host
  · rw [List.pairwise_append]
    refine ⟨h.apart, List.pairwise_singleton _ _, ?_⟩
    intro old hold new hnew hclash
    obtain rfl := List.mem_singleton.1 hnew
    exact haccepted.2 old hold hclash.symm

theorem Tidy.addAll {after : Routers} {infos : List RouteInfo} (h : Tidy routers routes)
    (hadd : addAll routers infos = .ok after) : Tidy after (routes ++ infos) := by
  induction infos generalizing routers routes with
  | nil =>
      cases hadd
      rwa [List.append_nil]
  | cons info rest ih =>
      rw [App.addAll] at hadd
      rcases hr : (routerOf routers (Text.lowercase info.host)).add info.method info.path
        info.handler with ⟨router, cause | _⟩
      · rw [hr] at hadd
        cases hadd
      · rw [hr] at hadd
        rw [List.append_cons]
        exact ih (h.add hr) hadd

theorem stable_tidy : Stable Tidy := ⟨tidy_nil, fun h hadd => h.addAll hadd⟩

/-- A list of routes is accepted as a whole exactly if all paths can be read and no two routes
clash, be they listed before or new. -/
theorem Tidy.addAll_ok_iff (h : Tidy routers routes) (infos : List RouteInfo) :
    (∃ after, App.addAll routers infos = .ok after) ↔
      (∀ info ∈ infos, info.parsed?.isSome ∧ ∀ old ∈ routes, ¬ info.Clashes old) ∧
        infos.Pairwise fun a b => ¬ a.Clashes b := by
  induction infos generalizing routers routes with
  | nil =>
      refine iff_of_true ⟨routers, rfl⟩ ⟨?_, .nil⟩
      intro info hinfo
      cases hinfo
  | cons info rest ih =>
      have hfirst := h.listed.add_ok_iff h.grown info
      rw [List.forall_mem_cons, List.pairwise_cons, ← hfirst, App.addAll]
      rcases hr : (routerOf routers (Text.lowercase info.host)).add info.method info.path
        info.handler with ⟨router, cause | _⟩
      · constructor
        · rintro ⟨after, hafter⟩
          cases hafter
        · rintro ⟨⟨hok, -⟩, -⟩
          cases hok
      · dsimp only
        rw [ih (h.add hr)]
        -- the first route is one of those that the others must not clash with
        have hrest : ∀ b : RouteInfo, (∀ old ∈ routes ++ [info], ¬ b.Clashes old) ↔
            (∀ old ∈ routes, ¬ b.Clashes old) ∧ ¬ info.Clashes b := by
          intro b
          rw [List.forall_mem_append, List.forall_mem_singleton]
          exact and_congr_right fun _ => not_congr ⟨.symm, .symm⟩
        simp only [hrest]
        constructor
        · rintro ⟨hall, hpair⟩
          exact ⟨⟨trivial, fun b hb => ⟨(hall b hb).1, (hall b hb).2.1⟩⟩,
            fun b hb => (hall b hb).2.2, hpair⟩
        · rintro ⟨⟨-, hall⟩, hapart, hpair⟩
          exact ⟨fun b hb => ⟨(hall b hb).1, (hall b hb).2, hapart b hb⟩, hpair⟩

end App

/-! ## Submissions -/

/-- What is handed in for registration: a handler for some methods of a path, with the middlewares
to be put around it. -/
structure Submission where
  name : String
  host : String
  path : String
  handler : Handler
  methods : List Method
  chain : List Middleware

namespace Submission

/-- The routes that a submission asks for. -/
def infos (s : Submission) : List RouteInfo :=
  s.methods.map fun method =>
    { name := s.name, host := s.host, path := s.path, method, handler := s.handler.compose s.chain }

/-- What it takes for a submission to be accepted beside the listed routes. -/
structure Accepted (config : AppConfig) (routes : List RouteInfo) (s : Submission) : Prop where
  fits : s.chain.length ≤ config.middlewareMax.toNat
  methods : s.methods ≠ []
  path : ∃ p, Pattern.parse s.path = .ok p
  nodup : s.methods.Nodup
  apart : ∀ info ∈ s.infos, ∀ old ∈ routes, ¬ info.Clashes old

instance (config : AppConfig) (routes : List RouteInfo) (s : Submission) :
    Decidable (s.Accepted config routes) :=
  have hpath : (Pattern.parse s.path).isOk ↔ ∃ p, Pattern.parse s.path = .ok p := by
    cases Pattern.parse s.path <;> simp [Except.isOk, Except.toBool]
  decidable_of_iff
    (s.chain.length ≤ config.middlewareMax.toNat ∧ s.methods ≠ [] ∧ (Pattern.parse s.path).isOk ∧
      s.methods.Nodup ∧ ∀ info ∈ s.infos, ∀ old ∈ routes, ¬ info.Clashes old)
    ⟨fun ⟨h₁, h₂, h₃, h₄, h₅⟩ => ⟨h₁, h₂, hpath.1 h₃, h₄, h₅⟩,
      fun ⟨h₁, h₂, h₃, h₄, h₅⟩ => ⟨h₁, h₂, hpath.2 h₃, h₄, h₅⟩⟩

/-- The list of routes after some submissions, one after another up to the first that is refused. -/
def record (config : AppConfig) (routes : List RouteInfo) : List Submission → List RouteInfo
  | [] => routes
  | s :: rest =>
    if s.Accepted config routes then record config (routes ++ s.infos) rest else routes

/-- The routes of one submission clash if a method is there twice. -/
theorem pairwise_infos_iff {s : Submission} {p : Pattern} (hp : Pattern.parse s.path = .ok p) :
    (s.infos.Pairwise fun a b => ¬ a.Clashes b) ↔ s.methods.Nodup := by
  rw [infos, List.pairwise_map]
  refine List.Pairwise.iff fun m m' => not_congr ?_
  constructor
  · rintro ⟨-, hmethod, -⟩
    exact hmethod
  · rintro rfl
    exact ⟨rfl, rfl, p, p, hp, hp, .same p⟩

end Submission

/-- What a route hands in under a name and a path. -/
def Route.submission (r : Route) (name path : String) (handler : Handler)
    (methods : List Method) : Submission :=
  { name, host := r.host, path, handler, methods, chain := r.chain }

namespace App

variable {app : App}

theorem perform_register_ok (hfilter : app.filter = none) (hmodifier : app.modifier = none)
    {batch : List RouteInfo} {after : Routers} (hadd : addAll app.routers batch = .ok after) :
    app.perform (register batch) =
      (.ok (), { app with routers := after, routes := app.routes ++ batch }) := by
  rw [perform_register_of_none hfilter hmodifier, hadd]

theorem perform_register_error (hfilter : app.filter = none) (hmodifier : app.modifier = none)
    {batch : List RouteInfo} {cause : AddError} (hadd : addAll app.routers batch = .error cause) :
    app.perform (register batch) = (.error (.refused cause), app) := by
  rw [perform_register_of_none hfilter hmodifier, hadd]

/-- An application in which nothing stands between what is handed in and the routers. -/
structure Direct (app : App) : Prop where
  filter : app.filter = none
  modifier : app.modifier = none
  tidy : Tidy app.routers app.routes

/-- Noting lines does not concern the routes. -/
theorem Direct.noteAll (h : app.Direct) (lines : List String) : (app.noteAll lines).Direct :=
  ⟨h.filter, h.modifier, h.tidy⟩

section Submit

variable {r : Route} {name path : String} {handler : Handler} {methods : List Method}

/-- The chain is too long, so nothing is looked at any further. -/
theorem perform_registerAs_of_lt (app : App)
    (h : app.config.middlewareMax.toNat < r.chain.length) :
    ∃ e, app.perform (r.registerAs name path handler methods) = (.error e, app) := by
  rw [Route.perform_registerAs]
  by_cases hmethods : methods.isEmpty
  · rw [if_pos hmethods]
    exact ⟨_, rfl⟩
  · rw [if_neg hmethods]
    cases Pattern.parse path with
    | error cause => exact ⟨_, rfl⟩
    | ok p =>
        dsimp only
        rw [if_pos h]
        exact ⟨_, rfl⟩

theorem Direct.perform_registerAs_of_accepted (h : app.Direct)
    (hs : (r.submission name path handler methods).Accepted app.config app.routes) :
    ∃ routers, app.perform (r.registerAs name path handler methods) =
      (.ok (), { app.noteAll (Middleware.notesOf r.chain) with
        routers, routes := app.routes ++ (r.submission name path handler methods).infos }) := by
  obtain ⟨p, hp⟩ := hs.path
  have hadd : ∃ after, addAll app.routers (r.submission name path handler methods).infos =
      .ok after := by
    rw [h.tidy.addAll_ok_iff]
    refine ⟨?_, (Submission.pairwise_infos_iff hp).2 hs.nodup⟩
    intro info hinfo
    refine ⟨?_, hs.apart info hinfo⟩
    obtain ⟨method, -, rfl⟩ := List.mem_map.1 hinfo
    exact RouteInfo.parsed?_isSome_iff.2 ⟨p, hp⟩
  obtain ⟨after, hafter⟩ := hadd
  refine ⟨after, ?_⟩
  have hmethods : methods ≠ [] := hs.methods
  have hpath : Pattern.parse path = .ok p := hp
  rw [r.perform_registerAs_of_ok app name handler hmethods hpath hs.fits]
  exact perform_register_ok (h.noteAll _).filter (h.noteAll _).modifier hafter

theorem Direct.perform_registerAs_of_not_accepted (h : app.Direct)
    (hs : ¬ (r.submission name path handler methods).Accepted app.config app.routes) :
    ∃ e lines, app.perform (r.registerAs name path handler methods) =
      (.error e, app.noteAll lines) := by
  by_cases hfits : app.config.middlewareMax.toNat < r.chain.length
  · obtain ⟨e, he⟩ := app.perform_registerAs_of_lt hfits
    refine ⟨e, [], ?_⟩
    rw [noteAll_nil]
    exact he
  · by_cases hmethods : methods = []
    · refine ⟨.noMethods, [], ?_⟩
      rw [Route.perform_registerAs, hmethods, noteAll_nil]
      rfl
    · cases hp : Pattern.parse path with
      | error cause =>
          refine ⟨.malformed path cause, [], ?_⟩
          have hsome : ¬ methods.isEmpty := by
            rw [List.isEmpty_iff]
            exact hmethods
          rw [Route.perform_registerAs, if_neg hsome, hp, noteAll_nil]
      | ok p =>
          -- all that is left is that the routers refuse a route
          rw [r.perform_registerAs_of_ok app name handler hmethods hp (Nat.le_of_not_lt hfits)]
          cases hadd : addAll app.routers (r.infos name path handler methods) with
          | error cause =>
              refine ⟨.refused cause, Middleware.notesOf r.chain, ?_⟩
              exact perform_register_error (h.noteAll _).filter (h.noteAll _).modifier hadd
          | ok after =>
              refine absurd ?_ hs
              obtain ⟨hnew, hpair⟩ := (h.tidy.addAll_ok_iff _).1 ⟨after, hadd⟩
              exact ⟨Nat.le_of_not_lt hfits, hmethods, ⟨p, hp⟩,
                (Submission.pairwise_infos_iff (s := r.submission name path handler methods)
                  hp).1 hpair, fun info hinfo => (hnew info hinfo).2⟩

end Submit

end App

end Switchboard
