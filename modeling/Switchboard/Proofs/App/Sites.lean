import Switchboard.Proofs.App.Acceptance

set_option autoImplicit false

/-! # The text of a program

What a program registers can be read off its text. A step that is taken with a route stands inside
groups, to which middlewares were added before, and after other steps with the same route. All this
is its `Site`. It determines the path of what the step hands in for registration and the middlewares
around it (`Place.path`, `Site.chain`), and no state of an application or a group is looked at.
-/

namespace Switchboard

/-! ## What a site says -/

/-- A group around a route, as it is when the route or the next group inside is made. -/
structure Frame where
  base : String
  /-- The group leaves out the middlewares around it. -/
  alone : Bool
  /-- The middlewares that it is made with. -/
  given : List Middleware
  /-- The middlewares that were added to it since. -/
  added : List Middleware := []

/-- The path of nested groups, of which the innermost is the first. -/
def framesPath : List Frame → String
  | [] => ""
  | f :: outer => framesPath outer ++ Text.trimSlashes f.base

/-- The middlewares that nested groups hand down, where `outermost` are those around them. -/
def handedDown (outermost : List Middleware) : List Frame → List Middleware
  | [] => outermost
  | f :: outer => (if f.alone then [] else handedDown outermost outer) ++ f.given ++ f.added

namespace RouteStep

/-- The middlewares that a step adds. -/
def added : RouteStep → List Middleware
  | .addMiddlewares ms => ms
  | _ => []

/-- The step drops all middlewares so far. -/
def clears : RouteStep → Bool
  | .withoutMiddlewares => true
  | _ => false

/-- The header check that a step adds. -/
def check? : RouteStep → Option HeaderCheck
  | .requireHeader key values => some ⟨Text.lowercase key, values⟩
  | _ => none

def host? : RouteStep → Option String
  | .onHost host => some (Text.lowercase host)
  | _ => none

def name? : RouteStep → Option String
  | .named name => some name
  | _ => none

end RouteStep

/-- The steps after the last one that has dropped all middlewares. -/
def sinceCleared (steps : List RouteStep) : List RouteStep :=
  (steps.reverse.takeWhile (!·.clears)).reverse

/-- The header checks that some steps add. -/
def checksOf (steps : List RouteStep) : List HeaderCheck := steps.filterMap RouteStep.check?

/-- The host that some steps restrict a route to; the last one counts. -/
def hostOf (steps : List RouteStep) : String := ((steps.filterMap RouteStep.host?).getLast?).getD ""

/-- The name that some steps give a route; the last one counts. -/
def nameOf (steps : List RouteStep) : String := ((steps.filterMap RouteStep.name?).getLast?).getD ""

/-- Where a route is made. -/
structure Place where
  /-- The middlewares of the application when the outermost group was made, or the route if there
  is no group around it. -/
  outermost : List Middleware
  frames : List Frame
  /-- The path that the route is made with. -/
  last : String

namespace Place

variable (p : Place) (steps : List RouteStep)

/-- The paths of the groups, and the route's own path behind them. -/
def path : String := framesPath p.frames ++ p.last

/-- The middlewares after some steps with the route: those that were handed down, unless they have
been dropped, and those that were added since. -/
def middlewares : List Middleware :=
  (if steps.any RouteStep.clears then [] else handedDown p.outermost p.frames) ++
    (sinceCleared steps).flatMap RouteStep.added

end Place

/-- A step with a route, with all that is around it and before it. -/
structure Site extends Place where
  before : List RouteStep
  step : RouteStep

namespace Site

variable (s : Site)

/-- The middlewares of the route, and inside them the header check if there is any. -/
def chain : List Middleware :=
  s.middlewares s.before ++
    if checksOf s.before = [] then [] else [HeaderCheck.middleware (checksOf s.before)]

/-- What is handed in under a name and a path. -/
def submission (name path : String) (handler : Handler) (methods : List Method) : Submission :=
  { name, host := hostOf s.before, path, handler, methods, chain := s.chain }

end Site

/-! ## What a step hands in -/

/-- A path without parameters and wildcards. -/
def isStaticPath (path : String) : Bool := !(path.toList.contains ':' || path.toList.contains '*')

section Submissions

variable (config : AppConfig) (name path : String)
  (make : String → String → Handler → List Method → Submission)

/-- What the handlers of a resource hand in. Nothing is handed in for a kind that is mapped to
nothing, nor behind one that is mapped to a text that is no method. -/
def resourceSubmissions (type : String) : List (String × Handler) → List Submission
  | [] => []
  | (kind, handler) :: rest =>
    match config.methodMapping.value? kind with
    | none => resourceSubmissions type rest
    | some method =>
      match Method.ofName? method with
      | none => []
      | some method =>
        make (type ++ "_" ++ Text.lowercase kind)
          ((if path = "/" then "" else path) ++ "/" ++ type ++ "/" ++ Text.lowercase kind)
          handler [method] :: resourceSubmissions type rest

/-- What a step with a route of this name and path hands in, in order. -/
def RouteStep.submissions : RouteStep → List Submission
  | .handle handler methods => [make name path handler methods]
  | .any handler => [make name path handler Method.standard]
  | .map handlers => handlers.map fun entry => make name path entry.2 [entry.1]
  | .mapResource resource =>
    resourceSubmissions config path make (Text.lowercase resource.type) resource.handlers
  | .redirect status location method =>
    if status.isRedirection then [make name path (.redirect status location) [method]] else []
  | .staticFile file =>
    if isStaticPath path then
      [make "" path (Static.serveFile file) [.get], make "" path (Static.describeFile file) [.head]]
    else []
  | .staticFiles fs =>
    if isStaticPath path then
      [make "" (Route.treePath { path }) (Static.serveTree fs) [.head, .get]]
    else []
  | .staticDirectory root =>
    if isStaticPath path then
      [make "" (Route.treePath { path }) (Static.serveTree (FileSystem.directory root).onlyFiles)
        [.head, .get]]
    else []
  | _ => []

/-- The step registers under paths below that of the route, not under the path itself. -/
def RouteStep.goesBelow : RouteStep → Bool
  | .mapResource _ | .staticFiles _ | .staticDirectory _ => true
  | _ => false

variable {config name path make}

theorem mem_resourceSubmissions {type : String} {handlers : List (String × Handler)}
    {s : Submission} (h : s ∈ resourceSubmissions config path make type handlers) :
    ∃ name' path' handler methods, s = make name' path' handler methods := by
  induction handlers with
  | nil => cases h
  | cons entry rest ih =>
      obtain ⟨kind, handler⟩ := entry
      rw [resourceSubmissions] at h
      split at h
      · exact ih h
      · split at h
        · cases h
        · rcases List.mem_cons.1 h with rfl | hrest
          · exact ⟨_, _, _, _, rfl⟩
          · exact ih hrest

/-- What a step hands in is made in the given way, and under the path of the route unless the step
goes below it. -/
theorem RouteStep.mem_submissions {step : RouteStep} {s : Submission}
    (h : s ∈ step.submissions config name path make) :
    ∃ name' path' handler methods, s = make name' path' handler methods ∧
      (¬ step.goesBelow → path' = path) := by
  cases step with
  | handle handler methods | any handler =>
      obtain rfl := List.mem_singleton.1 h
      exact ⟨_, _, _, _, rfl, fun _ => rfl⟩
  | map handlers =>
      obtain ⟨entry, -, rfl⟩ := List.mem_map.1 h
      exact ⟨_, _, _, _, rfl, fun _ => rfl⟩
  | mapResource resource =>
      obtain ⟨name', path', handler, methods, hs⟩ := mem_resourceSubmissions h
      exact ⟨name', path', handler, methods, hs, fun hbelow => absurd rfl hbelow⟩
  | redirect status location method =>
      rw [submissions] at h
      split at h
      · obtain rfl := List.mem_singleton.1 h
        exact ⟨_, _, _, _, rfl, fun _ => rfl⟩
      · cases h
  | staticFile file =>
      rw [submissions] at h
      split at h
      · rcases List.mem_pair.1 h with rfl | rfl
        · exact ⟨_, _, _, _, rfl, fun _ => rfl⟩
        · exact ⟨_, _, _, _, rfl, fun _ => rfl⟩
      · cases h
  | staticFiles fs | staticDirectory root =>
      rw [submissions] at h
      split at h
      · obtain rfl := List.mem_singleton.1 h
        exact ⟨_, _, _, _, rfl, fun hbelow => absurd rfl hbelow⟩
      · cases h
  | named | onHost | addMiddlewares | withoutMiddlewares | requireHeader => cases h

end Submissions

/-- What the step of a site hands in. -/
def Site.submissions (config : AppConfig) (s : Site) : List Submission :=
  s.step.submissions config (nameOf s.before) s.path s.submission

/-- The routes that a site asks for have the middlewares of the site around their handlers, and the
host and the path of the site, unless its step goes below the path. -/
theorem Site.of_mem_infos {config : AppConfig} {site : Site} {s : Submission} {info : RouteInfo}
    (hs : s ∈ site.submissions config) (hinfo : info ∈ s.infos) :
    (∃ handler : Handler, info.handler = handler.compose site.chain) ∧
      info.host = hostOf site.before ∧ (¬ site.step.goesBelow → info.path = site.path) := by
  obtain ⟨name, path, handler, methods, rfl, hpath⟩ := RouteStep.mem_submissions hs
  obtain ⟨method, -, rfl⟩ := List.mem_map.1 hinfo
  exact ⟨⟨handler, rfl⟩, rfl, hpath⟩

/-! ## The sites of a program -/

/-- The path begins with a slash. -/
def IsRooted (path : String) : Prop := path.toList.head? = some '/'

instance (path : String) : Decidable (IsRooted path) :=
  inferInstanceAs (Decidable (path.toList.head? = some '/'))

/-- The sites of the steps that are taken with a route after some other steps. -/
def Place.sites (p : Place) (before : List RouteStep) : List RouteStep → List Site
  | [] => []
  | step :: rest => { p with before, step } :: p.sites (before ++ [step]) rest

/-- The sites of a program for a group, which stands inside other groups. A route or a group whose
path does not begin with a slash has none. -/
def GroupProgram.sites (outermost : List Middleware) (outer : List Frame) (f : Frame) :
    GroupProgram → List Site
  | .done => []
  | .addMiddlewares ms rest => rest.sites outermost outer { f with added := f.added ++ ms }
  | .route path steps rest =>
    (if IsRooted path then Place.sites ⟨outermost, f :: outer, path⟩ [] steps else []) ++
      rest.sites outermost outer f
  | .group base given inner rest =>
    (if IsRooted (Text.trimSlashes base) then
        inner.sites outermost (f :: outer) { base, alone := false, given }
      else []) ++
      rest.sites outermost outer f
  | .groupAlone base given inner rest =>
    (if IsRooted (Text.trimSlashes base) then
        inner.sites outermost (f :: outer) { base, alone := true, given }
      else []) ++
      rest.sites outermost outer f

/-- The sites of a program for an application with these middlewares. -/
def App.sites (ms : List Middleware) : List AppStep → List Site
  | [] => []
  | .addMiddlewares new :: rest => sites (ms ++ new) rest
  | .route path steps :: rest =>
    (if IsRooted path then Place.sites ⟨ms, [], path⟩ [] steps else []) ++ sites ms rest
  | .group base program :: rest =>
    (if IsRooted (Text.trimSlashes base) then
        program.sites ms [] { base, alone := false, given := [] }
      else []) ++
      sites ms rest
  | _ :: rest => sites ms rest

/-- The list of routes after the step of a site. -/
def collect (config : AppConfig) (routes : List RouteInfo) (s : Site) : List RouteInfo :=
  Submission.record config routes (s.submissions config)

end Switchboard
