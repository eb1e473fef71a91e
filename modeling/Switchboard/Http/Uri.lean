set_option autoImplicit false

/-! # Request targets

The target of a request has one of four forms: a path with an optional query, a lone asterisk, an
absolute form with scheme and authority, or an authority alone. A fragment is dropped.
-/

namespace Switchboard

/-- The target of a request. -/
structure Uri where
  scheme : Option String
  authority : Option String
  /-- The raw path: empty for an authority alone, and never empty otherwise. -/
  path : String
  query : Option String
deriving DecidableEq, Repr

/-- Why a text is no request target. -/
inductive UriError where
  | empty
  | tooLong
  | invalidCharacter
  | invalidFormat
  | invalidAuthority
  | schemeTooLong
deriving DecidableEq, Repr

def UriError.message : UriError → String
  | .empty => "empty string"
  | .tooLong => "uri too long"
  | .invalidCharacter => "invalid uri character"
  | .invalidFormat => "invalid format"
  | .invalidAuthority => "invalid authority"
  | .schemeTooLong => "scheme too long"

namespace Uri

/-- The target as it is written. A path is always written, also where it was left out before a
query. -/
def text (u : Uri) : String :=
  (u.scheme.map (· ++ "://")).getD "" ++ u.authority.getD "" ++ u.path ++
    (u.query.map ("?" ++ ·)).getD ""

/-- Whether the character may stand in a path. -/
def isPathChar (c : Char) : Bool :=
  c = '!' || ('$' ≤ c && c ≤ ';') || c = '=' || ('@' ≤ c && c ≤ '_') || ('a' ≤ c && c ≤ 'z') ||
    c ∈ ['|', '~', '"', '\x7b', '\x7d']

/-- Whether the character may stand in a query. -/
def isQueryChar (c : Char) : Bool :=
  c = '!' || ('$' ≤ c && c ≤ ';') || c = '=' || ('?' ≤ c && c ≤ '~')

/-- Whether the character may stand in an authority besides the signs that `Authority` scans for. -/
def isHostChar (c : Char) : Bool :=
  c.isAlphanum || c ∈ ['!', '$', '&', '\'', '(', ')', '*', '+', ',', '-', '.', ';', '=', '_', '~']

/-- Whether the character may stand in a scheme. -/
def isSchemeChar (c : Char) : Bool := c.isAlphanum || c ∈ ['+', '-', '.', '~']

/-- Reads a query up to the end or a fragment. -/
def scanQuery : List Char → Except UriError (List Char)
  | [] => .ok []
  | c :: cs =>
    if c = '#' then .ok []
    else if isQueryChar c then (scanQuery cs).map (c :: ·)
    else .error .invalidCharacter

/-- Reads a path and the query after it, up to the end or a fragment. -/
def scanPath : List Char → Except UriError (List Char × Option (List Char))
  | [] => .ok ([], none)
  | c :: cs =>
    if c = '?' then (scanQuery cs).map fun q => ([], some q)
    else if c = '#' then .ok ([], none)
    else if isPathChar c then (scanPath cs).map fun r => (c :: r.1, r.2)
    else .error .invalidCharacter

/-- What has been seen of an authority. -/
structure AuthorityScan where
  /-- Colons that may announce a port. -/
  colons : Nat := 0
  opened : Bool := false
  closed : Bool := false
  /-- A percent sign that is not part of the user information so far. -/
  percent : Bool := false
  /-- The last character was an at sign. -/
  afterAt : Bool := false

/-- Takes one character of an authority into account. -/
def AuthorityScan.step (s : AuthorityScan) (c : Char) : Except UriError AuthorityScan :=
  let s := { s with afterAt := false }
  match c with
  | ':' => if s.colons ≥ 8 then .error .invalidAuthority else .ok { s with colons := s.colons + 1 }
  | '[' =>
    if s.percent || s.opened then .error .invalidAuthority else .ok { s with opened := true }
  -- the colons and percent signs so far belong to the host in brackets
  | ']' =>
    if !s.opened || s.closed then .error .invalidAuthority
    else .ok { s with closed := true, colons := 0, percent := false }
  -- the colons and percent signs so far belong to the user information
  | '@' => .ok { s with colons := 0, percent := false, afterAt := true }
  | '%' => .ok { s with percent := true }
  | c => if isHostChar c then .ok s else .error .invalidCharacter

/-- Whether an authority may end here: brackets in pairs, at most one port, a host after an at
sign, and no percent sign outside the user information and the brackets. -/
def AuthorityScan.mayEnd (s : AuthorityScan) : Bool :=
  s.opened == s.closed && s.colons ≤ 1 && !s.afterAt && !s.percent

/-- Splits an authority off the front, up to a slash, a question mark or a number sign. -/
def scanAuthority (s : AuthorityScan) : List Char → Except UriError (List Char × List Char)
  | [] => if s.mayEnd then .ok ([], []) else .error .invalidAuthority
  | c :: cs =>
    if c = '/' || c = '?' || c = '#' then
      if s.mayEnd then .ok ([], c :: cs) else .error .invalidAuthority
    else do
      let r ← scanAuthority (← s.step c) cs
      .ok (c :: r.1, r.2)

/-- Splits a scheme and the `://` after it off the front, if the text begins with such. The two
common schemes are recognised in any case. -/
def splitScheme (cs : List Char) : Except UriError (Option String × List Char) :=
  let lower := (cs.take 8).map Char.toLower
  if lower.take 7 = "http://".toList then .ok (some "http", cs.drop 7)
  else if lower = "https://".toList then .ok (some "https", cs.drop 8)
  else
    let scheme := cs.takeWhile isSchemeChar
    let rest := cs.drop scheme.length
    if rest.take 3 = "://".toList && cs.length > 3 then
      if scheme.length > 64 then .error .schemeTooLong
      else .ok (some (String.ofList scheme), rest.drop 3)
    else .ok (none, cs)

/-- The target with the given parts; an empty path is written as a slash. -/
def ofPath (scheme authority : Option String) (path : List Char)
    (query : Option (List Char)) : Uri :=
  { scheme, authority
    path := if path.isEmpty then "/" else String.ofList path
    query := query.map String.ofList }

/-- Reads an absolute form or a lone authority. -/
def parseAbsolute (cs : List Char) : Except UriError Uri := do
  let (scheme, rest) ← splitScheme cs
  let (authority, rest) ← scanAuthority {} rest
  match scheme with
  | none =>
    -- a lone authority ends the text
    if rest.isEmpty then .ok ⟨none, some (String.ofList authority), "", none⟩
    else .error (if cs.length = 1 then .invalidCharacter else .invalidFormat)
  | some scheme =>
    if authority.isEmpty then .error .invalidFormat
    let (path, query) ← scanPath rest
    .ok (ofPath (some scheme) (some (String.ofList authority)) path query)

/-- Reads a request target. -/
def parse (s : String) : Except UriError Uri :=
  match s.toList with
  | [] => .error .empty
  | ['*'] => .ok ⟨none, none, "*", none⟩
  | c :: cs =>
    if s.utf8ByteSize > 65534 then .error .tooLong
    else if c = '/' then do
      let (path, query) ← scanPath (c :: cs)
      .ok (ofPath none none path query)
    else parseAbsolute (c :: cs)

end Uri

end Switchboard
