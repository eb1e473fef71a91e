import Switchboard.App.Basic
import Switchboard.Text.Quoted

set_option autoImplicit false

/-! # Profiles

Routes under `/debug/pprof/` that show what an application records about itself: an index, each
profile under its name, and the arguments of the process.
-/

namespace Switchboard

open Text (Bytes utf8)

/-- A source of one kind of data about the running process. The argument asks for text when it is
not zero. An error comes as its message. -/
abbrev Profile := Int → Except String Bytes

/-- The profiles that the routes serve. -/
structure Profiles where
  table : Dictionary Profile := .empty
  /-- The lines noted when garbage is collected before a heap profile, if it is collected. -/
  collect : Option (List String) := none

namespace Profiles

/-- The path that all routes are below. -/
def base : String := "/debug/pprof"

variable (ps : Profiles)

/-- Adds a profile, in place of one of the same name. -/
def register (name : String) (profile : Profile) : Profiles :=
  { ps with table := ps.table.insert name profile }

/-- The names, ascending. -/
def names : List String := ps.table.keys

/-- A one-line summary. -/
def summary : String := "Profiles \x7b profiles: " ++ Text.quotedList ps.names ++ " \x7d"

/-- A whole number of 32 bits in decimal digits after an optional sign; zero for anything else. -/
def flag (s : String) : Int :=
  let (negative, digits) := match s.toList with
    | '-' :: cs => (true, cs)
    | '+' :: cs => (false, cs)
    | cs => (false, cs)
  if digits.isEmpty || !digits.all Char.isDigit then 0
  else
    let n : Int := digits.foldl (fun n c => n * 10 + (c.toNat - '0'.toNat : Nat)) 0
    let n := if negative then -n else n
    if -2147483648 ≤ n ∧ n ≤ 2147483647 then n else 0

/-- The number that a query field asks for; zero if it is absent. -/
def flagOf (ctx : Context) (key : String) : Int := ((ctx.query? key).map flag).getD 0

/-- The response for a name that no profile has. -/
def unknown : Response :=
  { status := .notFound
    headers := [Response.noSniff, Response.plainText]
    body := utf8 "Unknown profile\n" }

/-- The response with the data of a profile: shown as text, or saved under its name. -/
def shown (name : String) (asText : Bool) (body : Bytes) : Reply :=
  if asText then .ok { headers := [Response.noSniff, Response.plainText], body }
  else
    let headers := [Response.noSniff, ("content-type", "application/octet-stream")]
    Response.withField { headers, body } "content-disposition" s!"attachment; filename=\"{name}\""

/-- Answers with the profile of that name. -/
def serve (name : String) : Handler := fun ctx =>
  match ps.table.value? name with
  | none => .done (.ok unknown)
  | some profile =>
    let debug := flagOf ctx "debug"
    let reply := match profile debug with
      | .error message => .error (.internal message)
      | .ok body => shown name (debug ≠ 0) body
    let collected := if name = "heap" ∧ 0 < flagOf ctx "gc" then ps.collect.getD [] else []
    -- garbage is collected first, also if the profile then fails
    collected.foldr .note (.done reply)

/-- The line for a profile in the index. -/
def indexLine (name : String) : String :=
  s!"<li><a href=\"{name}?debug=1\">{name}</a></li>\n"

/-- The page that lists the profiles. -/
def index : Response where
  headers := [Response.page]
  body := utf8 <|
    "<html>\n<head><title>/debug/pprof/</title></head>\n<body>\n/debug/pprof/<br>\n<br>\n" ++
    "profiles:<br>\n<ul>\n" ++ String.join (ps.names.map indexLine) ++
    "<li><a href=\"cmdline\">cmdline</a></li>\n</ul>\n</body>\n</html>\n"

/-- Answers with the index, or with the profile that the wildcard names. -/
def serveIndex : Handler := fun ctx =>
  if ctx.wildcard.isEmpty then .done (.ok ps.index) else ps.serve ctx.wildcard ctx

/-- Answers with the arguments of the process, a NUL between each two. -/
def serveArguments (arguments : List String) : Handler :=
  .const <| .ok
    { headers := [Response.noSniff, Response.plainText]
      body := utf8 ("\x00".intercalate arguments) }

/-- The routes that serve the profiles of a process with these arguments. -/
def routes (arguments : List String) : List RouteInfo :=
  let route (name path : String) (method : Method) (handler : Handler) : RouteInfo :=
    { name := "pprof_" ++ name, host := "", path := base ++ "/" ++ path, method, handler }
  [ route "index" "*" .get ps.serveIndex,
    route "cmdline" "cmdline" .get (serveArguments arguments),
    route "profile" "profile" .get (ps.serve "profile"),
    route "symbol" "symbol" .get (ps.serve "symbol"),
    route "symbol" "symbol" .post (ps.serve "symbol"),
    route "trace" "trace" .get (ps.serve "trace") ]

end Profiles

end Switchboard
