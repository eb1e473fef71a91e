import Switchboard.Disk.Tree
import Switchboard.Proofs.Routing.Offsets
import Switchboard.Proofs.Static.HeadRequests
import Switchboard.Proofs.Static.Listing
import Switchboard.Proofs.Text.Escapes

set_option autoImplicit false

/-! # Where the links of a list lead

A list of entries writes each name into a link as it is, while the wildcard of the route decodes
what it takes. So a link leads to its entry exactly if there is no escape in the name of the entry
(`App.Reached.links_open_entries`); with one it leads to another entry or to none
(`App.link_opens_other_entry`).
-/

namespace Switchboard

open Text (fromPiece fromPiece_nil fromPiece_sep fromPiece_succ_append fromPiece_succ_of_not_mem
  fromPiece_zero_append fromPiece_zero_of_not_mem pieceInduction)
open Text.Percent (decode HasEscape)

/-! ## Paths that go on with one more piece -/

section Parts

variable {α : Type} {f : String → List α}

/-- For a function that reads a path part by part: the text from a piece on, in a path that goes on
with one more piece. -/
theorem apply_fromPiece_append (hnil : f "" = []) (hf : ∀ s t, f (s ++ "/" ++ t) = f s ++ f t)
    {t : List Char} (ht : '/' ∉ t) (cs : List Char) :
    ∀ n ≤ (pathPieces (String.ofList cs)).length,
      f (String.ofList (fromPiece '/' n (cs ++ '/' :: t))) =
        f (String.ofList (fromPiece '/' n cs)) ++ f (String.ofList t) := by
  have hempty : f (String.ofList []) = [] := hnil
  induction cs using pieceInduction '/' with
  | last p hp =>
      intro n hn
      by_cases hne : p = []
      · subst hne
        obtain rfl : n = 0 := Nat.le_zero.1 hn
        rw [List.nil_append, fromPiece_sep, fromPiece_zero_of_not_mem ht, fromPiece_nil,
          hempty, List.nil_append]
      · rw [(isPiece_ofList hne hp).pathPieces_eq] at hn
        match n with
        | 0 =>
          rw [fromPiece_zero_append hp hne, ofList_append_slash, hf,
            fromPiece_zero_of_not_mem hp]
        | 1 =>
          rw [fromPiece_succ_append hp hne, fromPiece_zero_of_not_mem ht,
            fromPiece_succ_of_not_mem hp, hempty, List.nil_append]
        | n + 2 =>
          simp at hn
  | step p cs hp ih =>
      intro n hn
      rw [ofList_append_slash, pathPieces_append_slash] at hn
      rw [List.append_assoc, List.cons_append]
      by_cases hne : p = []
      · subst hne
        rw [List.nil_append, List.nil_append, fromPiece_sep, fromPiece_sep]
        exact ih n hn
      · rw [(isPiece_ofList hne hp).pathPieces_eq, List.singleton_append] at hn
        cases n with
        | zero =>
            rw [fromPiece_zero_append hp hne, fromPiece_zero_append hp hne, ofList_append_slash,
              ofList_append_slash, ofList_append_slash, hf, hf, hf, List.append_assoc]
        | succ n =>
            rw [fromPiece_succ_append hp hne, fromPiece_succ_append hp hne]
            exact ih n (Nat.le_of_succ_le_succ hn)

theorem apply_rawTail_append (hnil : f "" = []) (hf : ∀ s t, f (s ++ "/" ++ t) = f s ++ f t)
    {t : String} (ht : '/' ∉ t.toList) {path : String} {n : Nat}
    (hn : n ≤ (pathPieces path).length) :
    f (rawTail (path ++ "/" ++ t) n) = f (rawTail path n) ++ f t := by
  have hslash : ∀ s, f (s ++ "/") = f s := by
    intro s
    have h := hf s ""
    rwa [String.append_empty, hnil, List.append_nil] at h
  have hlist : (path ++ "/" ++ t).toList = path.toList ++ '/' :: t.toList := by
    rw [String.toList_append, Text.toList_append_slash, List.append_assoc, List.singleton_append]
  have hparts := apply_fromPiece_append hnil hf ht path.toList n
    (by rwa [String.ofList_toList])
  rw [rawTail_eq_trimSlashes, rawTail_eq_trimSlashes, apply_trimSlashes hslash,
    apply_trimSlashes hslash, hlist, hparts, String.ofList_toList]

end Parts

/-- The pieces that a wildcard takes, after decoding. -/
theorem pathPieces_decode_rawTail_append {path t : String} (ht : '/' ∉ t.toList) {n : Nat}
    (hn : n ≤ (pathPieces path).length) :
    pathPieces (decode (rawTail (path ++ "/" ++ t) n)) =
      pathPieces (decode (rawTail path n)) ++ pathPieces (decode t) := by
  have hf : ∀ s t, pathPieces (decode (s ++ "/" ++ t)) =
      pathPieces (decode s) ++ pathPieces (decode t) := by
    intro s t
    rw [Text.Percent.decode_append_slash, pathPieces_append_slash]
  have hnil : pathPieces (decode "") = [] := by
    rw [Text.Percent.decode_empty, pathPieces_empty]
  exact apply_rawTail_append (f := fun s => pathPieces (decode s)) hnil hf ht hn

/-- A pattern with a wildcard at the end takes longer paths, too, if it takes a path. -/
theorem Pattern.matches_append_of_wildcard {front : Pattern} {segs : List String}
    (h : Matches (front ++ [.wildcard]) segs) :
    front.length ≤ segs.length ∧ ∀ more, Matches (front ++ [.wildcard]) (segs ++ more) := by
  induction front generalizing segs with
  | nil => exact ⟨Nat.zero_le _, fun more => .wildcard⟩
  | cons part front ih =>
      rw [List.cons_append] at h ⊢
      generalize hrest : front ++ [.wildcard] = rest at h ih ⊢
      cases h with
      | fixed h =>
          obtain ⟨hlength, hmore⟩ := ih h
          exact ⟨Nat.succ_le_succ hlength, fun more => .fixed (hmore more)⟩
      | param h =>
          obtain ⟨hlength, hmore⟩ := ih h
          exact ⟨Nat.succ_le_succ hlength, fun more => .param (hmore more)⟩
      | wildcard => exact absurd hrest (List.append_ne_nil_of_right_ne_nil _ (List.cons_ne_nil _ _))

/-! ## Names of entries -/

/-- What a directory on disk can have as the name of an entry. -/
structure IsEntryName (name : String) : Prop extends IsPiece name where
  ne_dot : name ≠ "."
  ne_dots : name ≠ ".."

/-- A piece of a path is not longer than the path. -/
theorem length_le_of_mem_pathPieces {path s : String} (h : s ∈ pathPieces path) :
    s.length ≤ path.length := by
  rw [← map_text_segments] at h
  obtain ⟨segment, hsegment, rfl⟩ := List.mem_map.1 h
  obtain ⟨-, front, back, hpath, -, -, -⟩ := Segment.mem_segments_iff.1 hsegment
  rw [hpath, String.length_append, String.length_append]
  omega

namespace FileSystem

variable {root place : DiskPath} {name link : String}

theorem join_cons (p : DiskPath) (step : String) (rest : List String) :
    p.join (step :: rest) =
      (if p.getLast? = some "" then p.dropLast else p) ++ step :: rest := rfl

/-- Different steps lead from a place to different places. -/
theorem join_left_cancel {p : DiskPath} {more more' : List String} (hmore : "" ∉ more)
    (hmore' : "" ∉ more') (h : p.join more = p.join more') : more = more' := by
  -- going on leads away
  have haway : ∀ step rest, step ≠ "" → p ≠ p.join (step :: rest) := by
    intro step rest hstep heq
    rw [join_cons] at heq
    by_cases hlast : p.getLast? = some ""
    · obtain ⟨front, rfl⟩ := List.getLast?_eq_some_iff.1 hlast
      rw [if_pos hlast, List.dropLast_concat, List.append_cancel_left_eq] at heq
      exact hstep (List.cons.inj heq).1.symm
    · rw [if_neg hlast, List.self_eq_append_right] at heq
      cases heq
  match more, more' with
  | [], [] => rfl
  | [], step :: rest => exact absurd h (haway step rest fun e => hmore' (e ▸ List.mem_cons_self))
  | step :: rest, [] =>
    exact absurd h.symm (haway step rest fun e => hmore (e ▸ List.mem_cons_self))
  | step :: rest, step' :: rest' =>
    rw [join_cons, join_cons] at h
    exact List.append_cancel_left h

theorem empty_not_mem_steps (name : String) : "" ∉ steps name := by
  intro h
  exact (isPiece_of_mem_pathPieces (List.mem_of_mem_filter h)).ne_empty rfl

/-- Steps from a place that names have led to. -/
theorem join_steps_append (root : DiskPath) (name : String) (more : List String) :
    root.join (steps name ++ more) = (root.join (steps name)).join more := by
  have hempty := empty_not_mem_steps name
  cases hsteps : steps name with
  | nil => rfl
  | cons step rest =>
      rw [hsteps] at hempty
      cases more with
      | nil => rw [List.append_nil]; rfl
      | cons step' more =>
          have hlast : (root.join (step :: rest)).getLast? ≠ some "" := by
            intro h
            rw [join_cons, List.getLast?_append_of_ne_nil _ (List.cons_ne_nil step rest)] at h
            exact hempty (List.mem_of_getLast? h)
          rw [join_cons (root.join _), if_neg hlast, List.cons_append, join_cons, join_cons,
            List.append_assoc, List.cons_append]

theorem resolve_eq_ok_iff :
    resolve root name = .ok place ↔ ".." ∉ pathPieces name ∧ place = root.join (steps name) := by
  rw [resolve]
  split
  · next h => simp [h]
  · next h => simp [h, eq_comm]

/-- A link leads from a place to the entry of its name exactly if no escape is decoded in it. -/
theorem resolve_link_iff (hplace : resolve root name = .ok place) {entry : String}
    (hentry : IsEntryName entry)
    (hlink : pathPieces link = pathPieces name ++ pathPieces (decode entry)) :
    resolve root link = .ok (place.join [entry]) ↔ ¬ HasEscape entry := by
  obtain ⟨hdots, rfl⟩ := resolve_eq_ok_iff.1 hplace
  have hsteps : steps link = steps name ++ steps (decode entry) := by
    rw [steps, hlink, List.filter_append, steps, steps]
  rw [resolve_eq_ok_iff, hsteps, join_steps_append, hlink]
  constructor
  · rintro ⟨-, heq⟩ hesc
    have hone : [entry] = steps (decode entry) := by
      refine join_left_cancel ?_ (empty_not_mem_steps _) heq
      rw [List.mem_singleton]
      exact hentry.ne_empty.symm
    -- what was decoded is shorter than the name
    have hmem : entry ∈ pathPieces (decode entry) :=
      List.mem_of_mem_filter (hone ▸ List.mem_singleton_self entry)
    have hle := length_le_of_mem_pathPieces hmem
    have hlt := Text.Percent.length_decode_lt hesc
    omega
  · intro hesc
    have hpieces : pathPieces (decode entry) = [entry] := by
      rw [Text.Percent.decode_of_not_hasEscape hesc, hentry.pathPieces_eq]
    have hstay : steps (decode entry) = [entry] := by
      simp [steps, hpieces, hentry.ne_dot]
    refine ⟨?_, by rw [hstay]⟩
    rw [hpieces, List.mem_append, List.mem_singleton, not_or]
    exact ⟨hdots, fun h => hentry.ne_dots h.symm⟩

end FileSystem

/-! ## What a link leads to -/

namespace Static

open FileSystem (sortedNames)
open Text (utf8)
open Text.Html (unescape)

/-- An entry as it is listed, with a slash after the name of a directory. -/
def shown (e : String × Bool) : String := if e.2 then e.1 ++ "/" else e.1

/-- The request path leads to the entry of a directory at `place`: a route for `front` and a
wildcard takes it, and what the wildcard takes names the entry, unless the name of the entry is
changed by decoding. -/
structure Leads (root place : DiskPath) (front : Pattern) (above path entry : String) : Prop where
  fits : Pattern.Matches (front ++ [.wildcard]) (pathPieces path)
  /-- The pieces that the wildcard takes: those for the directory, and those of the decoded name. -/
  takes : pathPieces (decode (rawTail path front.length)) =
    pathPieces (decode (rawTail above front.length)) ++ pathPieces (decode entry)
  opens : FileSystem.resolve root (decode (rawTail path front.length)) = .ok (place.join [entry]) ↔
    ¬ HasEscape entry

variable {root place : DiskPath} {front : Pattern} {above : String}

theorem leads_shown (hfits : Pattern.Matches (front ++ [.wildcard]) (pathPieces above))
    (hplace : FileSystem.resolve root (decode (rawTail above front.length)) = .ok place)
    {e : String × Bool} (he : IsEntryName e.1) :
    Leads root place front above (above ++ "/" ++ shown e) e.1 := by
  obtain ⟨hlength, hmore⟩ := Pattern.matches_append_of_wildcard hfits
  -- the slash after the name of a directory counts neither for the pieces nor for the raw text
  have hpieces : pathPieces (above ++ "/" ++ shown e) = pathPieces above ++ [e.1] := by
    rw [pathPieces_append_slash, shown]
    split
    · rw [pathPieces_concat_slash, he.pathPieces_eq]
    · rw [he.pathPieces_eq]
  have hraw : rawTail (above ++ "/" ++ shown e) front.length =
      rawTail (above ++ "/" ++ e.1) front.length := by
    rw [shown]
    split
    · rw [← String.append_assoc, rawTail_concat_slash]
    · rfl
  have htakes : pathPieces (decode (rawTail (above ++ "/" ++ shown e) front.length)) =
      pathPieces (decode (rawTail above front.length)) ++ pathPieces (decode e.1) := by
    rw [hraw, pathPieces_decode_rawTail_append he.no_slash hlength]
  exact ⟨hpieces ▸ hmore [e.1], htakes, FileSystem.resolve_link_iff hplace he htakes⟩

/-- What comes of a request for what stands at `place`: a file is the body, a directory is served,
and anything else is missing. -/
def opened (root place : DiskPath) (ctx : Context) (disk : Disk)
    (answer : Context → Option (Reply × List String)) : Option (Reply × List String) :=
  match disk.entry place with
  | .ok (.file content) => some (.ok (Static.answer ctx [] content), [])
  | .ok .directory =>
    (serveDirectory (FileSystem.directory root) ctx.wildcard place ctx).run disk answer
  | .error _ => (Handler.handOver ctx).run disk answer

variable {ctx : Context} {disk : Disk} {answer : Context → Option (Reply × List String)}

theorem run_serveTree (hplace : FileSystem.resolve root ctx.wildcard = .ok place) :
    (serveTree (FileSystem.directory root) ctx).run disk answer =
      opened root place ctx disk answer := by
  have hlooked : (FileSystem.directory root).place ctx.wildcard =
      .inspect place fun found => .done (found.map fun _ => place) := by
    simp only [FileSystem.directory, hplace]
  rw [serveTree, hlooked, opened]
  show Action.run _ _ (Action.inspect _ _) = _
  rw [Action.run]
  cases hentry : disk.entry place with
  | error e => rfl
  | ok entry =>
      show (Action.inspect place _).run disk answer = _
      rw [Action.run, hentry]
      cases entry with
      | file content =>
          show (serveFile place ctx).run disk answer = _
          rw [serveFile, Action.run, hentry]
          rfl
      | directory => rfl

theorem run_listed {entries : List (String × Bool)}
    (hplace : FileSystem.resolve root ctx.wildcard = .ok place)
    (hdirectory : disk.entry place = .ok .directory)
    (hindex : ∀ content, disk.entry (place.join [indexName]) ≠ .ok (.file content))
    (hentries : disk.children place = .ok entries) :
    opened root place ctx disk answer = some
      (.ok (Static.answer ctx [Response.page] (utf8 (listing (sortedNames entries)))), []) := by
  have hnames : ((FileSystem.directory root).names ctx.wildcard).run disk answer =
      some (.ok (sortedNames entries), []) := by
    simp only [FileSystem.directory, hplace, Action.run, hentries]
    rfl
  rw [opened, hdirectory]
  exact run_serveDirectory hindex hnames

/-- Every entry has an anchor in the list, and the value of its `href`, without entities, is the
entry as it is listed. -/
theorem exists_anchor (entries : List (String × Bool)) :
    ∃ as, anchors? (listing (sortedNames entries)) = some as ∧
      as.map (unescape ·.href) = sortedNames entries ∧
      ∀ e ∈ entries, ∃ a ∈ as, unescape a.href = shown e := by
  refine ⟨_, anchors?_listing _, (map_unescape_anchors _).1, fun e he => ?_⟩
  have hmem : shown e ∈ sortedNames entries := by
    rw [sortedNames, List.mem_mergeSort]
    exact List.mem_map_of_mem he
  exact ⟨anchorFor (shown e), List.mem_map_of_mem hmem, Text.Html.unescape_escape (shown e)⟩

end Static

namespace App

open FileSystem (sortedNames)
open Static (Leads anchors? listing opened shown)
open Text (utf8)
open Text.Html (unescape)

/-- The best match of a request answers it, and the wildcard at the end of its pattern binds the
decoded rest of the path. -/
theorem Reached.routing_of_best {app : App} (happ : app.Reached) (front : Pattern)
    {request : Request} {host : String} {o : Entry Handler}
    (hs : Selects app.routes ((Context.host? { request }).getD "") host)
    (ho : Best (entriesOf app.routes host) request.method request.uri.path o)
    (hpattern : o.pattern = front ++ [.wildcard]) :
    ∃ params, routing app.routers { request } = o.value { request, params } ∧
      Context.wildcard { request, params } = decode (rawTail request.uri.path front.length) := by
  have hres := (happ.of_stable stable_listed).resolves hs
  have hbinds := binds_sorted (o.pattern.captures request.uri.path)
  have hfound := (hres.unique (.found ho hbinds)).symm
  refine ⟨_, routing_of_found hfound, ?_⟩
  rw [hpattern] at hbinds ⊢
  exact Context.wildcard_of_binds hbinds

/-- Where only one route is listed, for `HEAD` and `GET`, it is the best match of all that it
takes. -/
theorem best_of_pair {H : Type} {p : Pattern} {value : H} {path : String}
    (h : p.Matches (pathPieces path)) :
    Best [⟨.head, p, value⟩, ⟨.get, p, value⟩] .get path ⟨.get, p, value⟩ := by
  refine ⟨by simp, ⟨rfl, h⟩, ?_⟩
  have hmethods : Method.head ≠ Method.get := by decide
  rintro o ho ⟨hmethod, -⟩ hne
  rcases List.mem_cons.1 ho with rfl | ho
  · exact absurd hmethod hmethods
  · exact absurd (List.mem_singleton.1 ho) hne

/-- An application that serves a directory on disk below `/files`. -/
def serving : App :=
  ({} : App).build [.route "/files" [.staticFiles (FileSystem.directory ["pub"])]]

theorem reached_serving : serving.Reached := ⟨{}, _, rfl⟩

/-- A request for `/files` itself comes to the directory. -/
theorem best_serving :
    Selects serving.routes
        ((Context.host? { request := { uri := ⟨none, none, "/files", none⟩ } }).getD "") "" ∧
      Best (entriesOf serving.routes "") .get "/files"
        ⟨.get, [.fixed "files", .wildcard], Static.serveTree (FileSystem.directory ["pub"])⟩ := by
  have hentries : entriesOf serving.routes "" =
      [⟨.head, [.fixed "files", .wildcard], Static.serveTree (FileSystem.directory ["pub"])⟩,
        ⟨.get, [.fixed "files", .wildcard], Static.serveTree (FileSystem.directory ["pub"])⟩] := rfl
  have hpieces : pathPieces "/files" = ["files"] := by decide
  refine ⟨.named ⟨_, List.mem_cons_self, rfl⟩, ?_⟩
  rw [hentries]
  refine best_of_pair ?_
  rw [hpieces]
  exact .fixed .wildcard

/-- The links of a list lead to its entries, as far as their names are not changed by decoding. A
directory on disk is served under a path that ends in a wildcard, and the wildcard binds the decoded
rest of the path of a request; what stands at the place of this name is opened, and a directory
without an index file is answered with the list of its entries. The list has an anchor for each
entry. If the value of its `href`, without entities, goes on the path of the request, then the route
takes that path, too. The wildcard then names the entry in the directory, without the slash after
the name of a directory, exactly if there is no escape in the name of the entry. With an escape the
pieces after those for the directory are the pieces of the decoded name, and the entry is not what
is opened. -/
theorem Reached.links_open_entries {app : App} (happ : app.Reached) (root : DiskPath) :
    (∀ r : Route, (app.perform (r.staticFiles (FileSystem.directory root))).1 = .ok () →
      (∃ front, Pattern.parse r.treePath = .ok (front ++ [.wildcard])) ∧
        (app.after (r.staticFiles (FileSystem.directory root))).routes = app.routes ++
          app.accepted (r.infos "" r.treePath (Static.serveTree (FileSystem.directory root))
            [.head, .get])) ∧
    (∀ (ctx : Context) (place : DiskPath) (disk : Disk)
      (answer : Context → Option (Reply × List String)),
      FileSystem.resolve root ctx.wildcard = .ok place →
      (Static.serveTree (FileSystem.directory root) ctx).run disk answer =
        opened root place ctx disk answer) ∧
    ∀ (front : Pattern) (ms : List Middleware) (request : Request) (host : String)
      (o : Entry Handler), Selects app.routes ((Context.host? { request }).getD "") host →
      Best (entriesOf app.routes host) request.method request.uri.path o →
      o.pattern = front ++ [.wildcard] →
      o.value = (Static.serveTree (FileSystem.directory root)).compose ms →
      ∃ params, routing app.routers { request } =
          (Static.serveTree (FileSystem.directory root)).compose ms { request, params } ∧
        Context.wildcard { request, params } = decode (rawTail request.uri.path front.length) ∧
        ∀ (disk : Disk) (place : DiskPath) (entries : List (String × Bool)),
          FileSystem.resolve root (Context.wildcard { request, params }) = .ok place →
          disk.children place = .ok entries → (∀ e ∈ entries, IsEntryName e.1) →
          (disk.entry place = .ok .directory →
            (∀ content, disk.entry (place.join [Static.indexName]) ≠ .ok (.file content)) →
            ∀ answer, opened root place { request, params } disk answer =
              some (.ok (Static.answer { request, params } [Response.page]
                (utf8 (listing (sortedNames entries)))), [])) ∧
          ∃ as, anchors? (listing (sortedNames entries)) = some as ∧
            as.map (unescape ·.href) = sortedNames entries ∧
            ∀ e ∈ entries, ∃ a ∈ as, unescape a.href = shown e ∧
              Leads root place front request.uri.path
                (request.uri.path ++ "/" ++ unescape a.href) e.1 := by
  refine ⟨fun r h => routes_of_staticFiles h,
    fun ctx place disk answer hplace => Static.run_serveTree hplace, ?_⟩
  intro front ms request host o hs ho hpattern hvalue
  obtain ⟨params, hrouting, hwildcard⟩ := happ.routing_of_best front hs ho hpattern
  rw [hvalue] at hrouting
  refine ⟨params, hrouting, hwildcard, fun disk place entries hplace hentries hnames =>
    ⟨fun hdirectory hindex answer => Static.run_listed hplace hdirectory hindex hentries, ?_⟩⟩
  rw [hwildcard] at hplace
  have hfits := ho.fits.2
  rw [hpattern] at hfits
  obtain ⟨as, has, hhrefs, hanchor⟩ := Static.exists_anchor entries
  refine ⟨as, has, hhrefs, fun e he => ?_⟩
  obtain ⟨a, ha, hhref⟩ := hanchor e he
  refine ⟨a, ha, hhref, ?_⟩
  rw [hhref]
  exact Static.leads_shown hfits hplace (hnames e he)

theorem sortedNames_of_sorted {entries : List (String × Bool)}
    (h : (entries.map shown).Pairwise (· ≤ ·)) : sortedNames entries = entries.map shown := by
  rw [sortedNames]
  exact List.mergeSort_of_pairwise (h.imp fun hle => decide_eq_true hle)

/-- A file with an ampersand in its name and a directory, in a directory that is served. -/
theorem links_open_entries_of_two :
    let request : Request := { uri := ⟨none, none, "/files", none⟩ }
    let entries := [("a&b", false), ("sub", true)]
    let disk := (DiskTree.directory [("pub", .directory [("a&b", .file (utf8 "x")),
      ("sub", .directory [])])]).toDisk
    serving.Reached ∧ disk.children ["pub"] = .ok entries ∧ ∃ params as,
      opened ["pub"] ["pub"] { request, params } disk (fun _ => none) =
        some (.ok (Static.answer { request, params } [Response.page]
          (utf8 (listing ["a&b", "sub/"]))), []) ∧
      anchors? (listing ["a&b", "sub/"]) = some as ∧
      ∀ e ∈ entries, ∃ a ∈ as, unescape a.href = shown e ∧
        FileSystem.resolve ["pub"] (decode (rawTail ("/files" ++ "/" ++ unescape a.href) 1)) =
          .ok ["pub", e.1] := by
  intro request entries disk
  have hnames : ∀ e ∈ entries, IsEntryName e.1 := by
    have hname : ∀ name : String, name ≠ "" ∧ '/' ∉ name.toList ∧ name ≠ "." ∧ name ≠ ".." →
        IsEntryName name := fun _ ⟨h1, h2, h3, h4⟩ => ⟨⟨h1, h2⟩, h3, h4⟩
    exact fun e he => hname e.1 (by revert e he; decide)
  have hplain : ∀ e ∈ entries, ¬ HasEscape e.1 := by
    simp only [← Text.Percent.decode_eq_self_iff]
    decide +kernel
  have hsorted : sortedNames entries = ["a&b", "sub/"] :=
    sortedNames_of_sorted (by decide)
  obtain ⟨hhost, hbest⟩ := best_serving
  obtain ⟨-, -, hserved⟩ := reached_serving.links_open_entries ["pub"]
  obtain ⟨params, -, hwildcard, hlinks⟩ :=
    hserved [.fixed "files"] [] request "" _ hhost hbest rfl rfl
  have hplace : FileSystem.resolve ["pub"] (Context.wildcard { request, params }) =
      .ok ["pub"] := by
    rw [hwildcard]
    decide +kernel
  obtain ⟨hlist, as, has, -, hleads⟩ := hlinks disk ["pub"] entries hplace rfl hnames
  rw [hsorted] at hlist has
  have hindex : ∀ content, disk.entry ["pub", "index.html"] ≠ .ok (.file content) := by
    intro content h
    cases h
  refine ⟨reached_serving, rfl, params, as, hlist rfl hindex _, has, fun e he => ?_⟩
  obtain ⟨a, ha, hhref, hlead⟩ := hleads e he
  exact ⟨a, ha, hhref, hlead.opens.2 (hplain e he)⟩

/-- The link for one entry leads to another one. In the name of the first an escape stands for the
letter in which the names differ. -/
theorem link_opens_other_entry :
    let app := serving
    let request (path : String) : Request := { uri := ⟨none, none, path, none⟩ }
    let disk := (DiskTree.directory [("pub", .directory [("a%41", .file (utf8 "x")),
      ("aA", .file (utf8 "y"))])]).toDisk
    let page := listing ["a%41", "aA"]
    disk.children ["pub"] = .ok [("a%41", false), ("aA", false)] ∧
      disk.entry ["pub", "a%41"] = .ok (.file (utf8 "x")) ∧
      (app.dispatcher.dispatch? disk 0 (request "/files")).map (·.1.body) = some (utf8 page) ∧
      (anchors? page).map (·.map (unescape ·.href)) = some ["a%41", "aA"] ∧
      app.dispatcher.dispatch? disk 0 (request ("/files" ++ "/" ++ "a%41")) =
        some ({ headers := [("content-length", "1")], body := utf8 "y" }, []) := by
  intro app request disk page
  obtain ⟨hhost, hbest⟩ := best_serving
  obtain ⟨params, hrouting, hwildcard⟩ :=
    reached_serving.routing_of_best [.fixed "files"] hhost hbest rfl
  have hplace : FileSystem.resolve ["pub"]
      (Context.wildcard { request := request "/files", params }) = .ok ["pub"] := by
    rw [hwildcard]
    decide +kernel
  have hindex : ∀ content, disk.entry ["pub", "index.html"] ≠ .ok (.file content) := by
    intro content h
    cases h
  have hsorted : sortedNames [("a%41", false), ("aA", false)] = ["a%41", "aA"] :=
    sortedNames_of_sorted (by decide)
  have hlist : opened ["pub"] ["pub"] { request := request "/files", params } disk
      (app.notFound.answerWithin disk 0) = some (.ok (Static.answer
        { request := request "/files", params } [Response.page]
        (utf8 (listing (sortedNames [("a%41", false), ("aA", false)])))), []) :=
    Static.run_listed hplace rfl hindex rfl
  rw [hsorted, ← Static.run_serveTree hplace] at hlist
  refine ⟨rfl, rfl, ?_, ?_, by decide +kernel⟩
  · have hdispatch : app.dispatcher.dispatch? disk 0 (request "/files") =
        ((routing app.routers { request := request "/files" }).run disk
          (app.notFound.answerWithin disk 0)).map fun r => (r.1.response, r.2) := rfl
    rw [hdispatch, hrouting, hlist]
    rfl
  · rw [Static.anchors?_listing, Option.map_some, (Static.map_unescape_anchors _).1]

end App

end Switchboard
