import Switchboard.Proofs.Handling.Passage
import Switchboard.Proofs.Text.Html
import Switchboard.Static.Serve

set_option autoImplicit false

/-! # Reading a list of entries

`Static.anchors?` reads the page that lists a directory: between its fixed first and last line it
finds the anchors, each with the value of its `href` and the text inside it, both still with their
entities. The page can be read in no other way, and the anchors are those of the entries in their
order, so the names can be told from the page (`Static.listing_tells_names`).
-/

namespace Switchboard.Static

open Text (utf8)
open Text.Html (escape unescape)

/-! ## Anchors -/

/-- An anchor of a page, with its texts as they are written. -/
structure Anchor where
  href : String
  text : String
deriving DecidableEq, Repr

/-- The line of an anchor. -/
def Anchor.line (a : Anchor) : String := "<a href=\"" ++ a.href ++ "\">" ++ a.text ++ "</a>\n"

/-- Reads the line of an anchor. The value of the `href` lasts up to the first quotation mark, and
the text inside up to the first tag. -/
def readAnchor? (cs : List Char) : Option (Anchor × List Char) := do
  let href ← cs.dropPrefix? "<a href=\"".toList
  let text ← (href.dropWhile (· ≠ '"')).dropPrefix? "\">".toList
  let rest ← (text.dropWhile (· ≠ '<')).dropPrefix? "</a>\n".toList
  return (⟨String.ofList (href.takeWhile (· ≠ '"')), String.ofList (text.takeWhile (· ≠ '<'))⟩,
    rest)

theorem length_le_of_dropPrefix? {cs front rest : List Char}
    (h : cs.dropPrefix? front = some rest) : rest.length + front.length = cs.length := by
  obtain ⟨front', rfl, hfront⟩ := List.dropPrefix?_eq_some_iff.1 h
  obtain rfl : front' = front := by simpa using hfront
  simp [Nat.add_comm]

theorem length_readAnchor?_lt {cs rest : List Char} {a : Anchor}
    (h : readAnchor? cs = some (a, rest)) : rest.length < cs.length := by
  simp only [readAnchor?, Option.bind_eq_bind, Option.bind_eq_some_iff, Option.pure_def,
    Option.some.injEq, Prod.mk.injEq] at h
  obtain ⟨href, hhref, text, htext, rest, hrest, -, rfl⟩ := h
  have h1 := length_le_of_dropPrefix? hhref
  have h2 := length_le_of_dropPrefix? htext
  have h3 := length_le_of_dropPrefix? hrest
  have h4 : (href.dropWhile (· ≠ '"')).length ≤ href.length := (List.dropWhile_sublist _).length_le
  have h5 : (text.dropWhile (· ≠ '<')).length ≤ text.length := (List.dropWhile_sublist _).length_le
  have hfront : ("<a href=\"".toList).length = 9 := rfl
  omega

/-- Reads anchors up to the last line of the page, which must be all that is left. -/
def readAnchors? (cs : List Char) : Option (List Anchor) :=
  if cs = "</pre>\n".toList then some []
  else
    match h : readAnchor? cs with
    | none => none
    | some (a, rest) =>
      have := length_readAnchor?_lt h
      (readAnchors? rest).map (a :: ·)
termination_by cs.length

/-- The anchors of a page that lists a directory. -/
def anchors? (page : String) : Option (List Anchor) :=
  (page.toList.dropPrefix? "<pre>\n".toList).bind readAnchors?

/-! ## Reading what was written -/

theorem dropPrefix?_append (front rest : List Char) :
    (front ++ rest).dropPrefix? front = some rest :=
  List.dropPrefix?_append_of_beq rest (BEq.refl front)

theorem span_append {c : Char} {p : List Char} (h : c ∉ p) (rest : List Char) :
    (p ++ c :: rest).takeWhile (· ≠ c) = p ∧ (p ++ c :: rest).dropWhile (· ≠ c) = c :: rest := by
  have hp : ∀ d ∈ p, decide (d ≠ c) = true := by
    intro d hd
    have hne : d ≠ c := fun e => h (e ▸ hd)
    simpa using hne
  rw [List.takeWhile_append_of_pos hp, List.dropWhile_append_of_pos hp]
  simp

/-- An anchor is read back, whatever comes after it, if its texts cannot end too early. -/
theorem readAnchor?_line_append {a : Anchor} (hhref : '"' ∉ a.href.toList)
    (htext : '<' ∉ a.text.toList) (rest : List Char) :
    readAnchor? (a.line.toList ++ rest) = some (a, rest) := by
  -- the line from the text on, and from the `href` on
  let fromText := a.text.toList ++ '<' :: ("/a>\n".toList ++ rest)
  let fromHref := a.href.toList ++ '"' :: '>' :: fromText
  have hline : a.line.toList ++ rest = "<a href=\"".toList ++ fromHref := by
    simp [Anchor.line, fromHref, fromText]
  obtain ⟨hhrefTake, hhrefDrop⟩ := span_append hhref ('>' :: fromText)
  obtain ⟨htextTake, htextDrop⟩ := span_append htext ("/a>\n".toList ++ rest)
  have hmiddle : ('"' :: '>' :: fromText).dropPrefix? "\">".toList = some fromText :=
    dropPrefix?_append "\">".toList fromText
  have hend : ('<' :: ("/a>\n".toList ++ rest)).dropPrefix? "</a>\n".toList = some rest :=
    dropPrefix?_append "</a>\n".toList rest
  rw [hline, readAnchor?, dropPrefix?_append]
  simp only [Option.bind_eq_bind, Option.bind_some, fromHref, hhrefDrop, hhrefTake, hmiddle]
  simp only [fromText, htextDrop, htextTake, hend, Option.bind_some, Option.pure_def,
    String.ofList_toList]

/-- The page from a point between two anchors on. -/
def pageFrom (as : List Anchor) : List Char :=
  as.flatMap (·.line.toList) ++ "</pre>\n".toList

theorem pageFrom_nil : pageFrom [] = "</pre>\n".toList := rfl

theorem pageFrom_cons (a : Anchor) (as : List Anchor) :
    pageFrom (a :: as) = a.line.toList ++ pageFrom as := by
  rw [pageFrom, List.flatMap_cons, List.append_assoc, pageFrom]

/-- The anchors from a point between two of them on are read back. -/
theorem readAnchors?_pageFrom {as : List Anchor}
    (h : ∀ a ∈ as, '"' ∉ a.href.toList ∧ '<' ∉ a.text.toList) :
    readAnchors? (pageFrom as) = some as := by
  induction as with
  | nil => rw [readAnchors?, if_pos pageFrom_nil]
  | cons a as ih =>
      obtain ⟨⟨hhref, htext⟩, hrest⟩ := List.forall_mem_cons.1 h
      have hread := readAnchor?_line_append hhref htext (pageFrom as)
      rw [← pageFrom_cons] at hread
      -- the last line begins in another way than an anchor
      have hne : pageFrom (a :: as) ≠ "</pre>\n".toList := by
        intro heq
        have hnone : readAnchor? "</pre>\n".toList = none := by decide
        rw [heq, hnone] at hread
        cases hread
      rw [readAnchors?, if_neg hne]
      split
      · next hnone =>
        rw [hread] at hnone
        cases hnone
      · next b rest hsome =>
        rw [hread, Option.some.injEq, Prod.mk.injEq] at hsome
        obtain ⟨rfl, rfl⟩ := hsome
        rw [ih hrest, Option.map_some]

/-! ## The list of a directory -/

/-- The anchor for an entry. -/
def anchorFor (name : String) : Anchor := ⟨escape name, escape name⟩

theorem listingLine_eq (name : String) : listingLine name = (anchorFor name).line := rfl

theorem toList_listing (names : List String) :
    (listing names).toList = "<pre>\n".toList ++ pageFrom (names.map anchorFor) := by
  have hlines : (String.join (names.map listingLine)).toList =
      (names.map anchorFor).flatMap (·.line.toList) := by
    induction names with
    | nil => rfl
    | cons name names ih =>
        rw [List.map_cons, String.join_cons, String.toList_append, ih, List.map_cons,
          List.flatMap_cons, listingLine_eq]
  rw [listing, String.toList_append, String.toList_append, hlines, List.append_assoc, pageFrom]

/-- The page that lists a directory has the anchors of the entries, and nothing else. -/
theorem anchors?_listing (names : List String) :
    anchors? (listing names) = some (names.map anchorFor) := by
  rw [anchors?, toList_listing, dropPrefix?_append, Option.bind_some, readAnchors?_pageFrom]
  intro a ha
  obtain ⟨name, -, rfl⟩ := List.mem_map.1 ha
  exact ⟨Text.Html.not_mem_escape (by decide) name, Text.Html.not_mem_escape (by decide) name⟩

/-- The names are read off the page, from the `href`s as from the texts. -/
theorem map_unescape_anchors (names : List String) :
    (names.map anchorFor).map (unescape ·.href) = names ∧
      (names.map anchorFor).map (unescape ·.text) = names := by
  have hread : ∀ name, unescape (escape name) = name := Text.Html.unescape_escape
  constructor
  · rw [List.map_map]
    exact List.map_id'' hread names
  · rw [List.map_map]
    exact List.map_id'' hread names

theorem listing_injective : Function.Injective listing := by
  intro names names' heq
  have hanchors : some (names.map anchorFor) = some (names'.map anchorFor) := by
    rw [← anchors?_listing, ← anchors?_listing, heq]
  rw [← (map_unescape_anchors names).1, Option.some.inj hanchors, (map_unescape_anchors names').1]

/-- A directory without an index file is answered with the list of its entries. -/
theorem run_serveDirectory {fs : FileSystem} {name : String} {path : DiskPath} {ctx : Context}
    {disk : Disk} {answer : Context → Option (Reply × List String)} {names lines : List String}
    (hindex : ∀ content, disk.entry (path.join [indexName]) ≠ .ok (.file content))
    (hnames : (fs.names name).run disk answer = some (.ok names, lines)) :
    (serveDirectory fs name path ctx).run disk answer =
      some (.ok (Static.answer ctx [Response.page] (utf8 (listing names))), lines) := by
  have hdone : ∀ (next : Except DiskError (List String) → Action Reply) (reply : Reply),
      next (.ok names) = .done reply →
        (fs.names name >>= next).run disk answer = some (reply, lines) := by
    intro next reply hnext
    rw [Action.run_bind, hnames, Option.bind_some, hnext, Action.run, Option.map_some,
      List.append_nil]
  rw [serveDirectory, Action.run]
  cases hentry : disk.entry (path.join [indexName]) with
  | error e => exact hdone _ _ rfl
  | ok entry =>
      cases entry with
      | directory => exact hdone _ _ rfl
      | file content => exact absurd hentry (hindex content)

/-- The names in a directory can be told from the page that lists it. Between its first and its last
line the page has one anchor for each name, in their order, and nothing else; without its entities
the `href` of an anchor is the name, and so is the text inside. A name is written with four
replacements one after another, the ampersands first, and brings no angle bracket and no quotation
mark into the page. No two lists of names have the same page. The page is the body for every
directory without an index file, whatever the file system is that names the entries. -/
theorem listing_tells_names :
    (∀ names : List String, ∃ as, anchors? (listing names) = some as ∧
      as.map (unescape ·.href) = names ∧ as.map (unescape ·.text) = names ∧
      ∀ a ∈ as, ∀ c ∈ ['<', '>', '"'], c ∉ a.href.toList ∧ c ∉ a.text.toList) ∧
    (∀ names : List String, listing names =
      "<pre>\n" ++ String.join (names.map fun name => Anchor.line
        ⟨Text.Html.replacements name, Text.Html.replacements name⟩) ++ "</pre>\n") ∧
    Function.Injective listing ∧
    ∀ (fs : FileSystem) (name : String) (path : DiskPath) (ctx : Context) (disk : Disk)
      (answer : Context → Option (Reply × List String)) (names lines : List String),
      (∀ content, disk.entry (path.join [indexName]) ≠ .ok (.file content)) →
      (fs.names name).run disk answer = some (.ok names, lines) →
      ∃ response, (serveDirectory fs name path ctx).run disk answer =
          some (.ok response, lines) ∧
        response.status = .ok ∧
        (ctx.request.method ≠ .head → response.body = utf8 (listing names)) := by
  refine ⟨fun names => ?_, fun names => ?_, listing_injective, ?_⟩
  · obtain ⟨hhrefs, htexts⟩ := map_unescape_anchors names
    refine ⟨names.map anchorFor, anchors?_listing names, hhrefs, htexts, fun a ha c hc => ?_⟩
    obtain ⟨name, -, rfl⟩ := List.mem_map.1 ha
    have hnot := Text.Html.not_mem_escape hc name
    exact ⟨hnot, hnot⟩
  · have hline : listingLine = fun name => Anchor.line
        ⟨Text.Html.replacements name, Text.Html.replacements name⟩ := by
      funext name
      rw [listingLine_eq, anchorFor, Text.Html.escape_eq_replacements]
    rw [listing, hline]
  · intro fs name path ctx disk answer names lines hindex hnames
    refine ⟨_, run_serveDirectory hindex hnames, rfl, fun hmethod => ?_⟩
    show (if ctx.request.method = .head then [] else utf8 (listing names)) = _
    rw [if_neg hmethod]

/-- Two entries that are called like markup, in a file system of an application. -/
theorem listing_tells_names_of_markup :
    let names := ["</a>\"", "&lt;\n"]
    let fs : FileSystem :=
      { place := fun _ => .done (.ok ["srv"]), names := fun _ => .done (.ok names) }
    let disk : Disk := { entry := fun _ => .error .notFound, children := fun _ => .ok [] }
    let ctx : Context := { request := { uri := ⟨none, none, "/files", none⟩ } }
    (∃ response, (serveDirectory fs "" ["srv"] ctx).run disk (fun _ => none) =
        some (.ok response, []) ∧
      response.body = utf8 ("<pre>\n<a href=\"&lt;/a&gt;&quot;\">&lt;/a&gt;&quot;</a>\n" ++
        "<a href=\"&amp;lt;\n\">&amp;lt;\n</a>\n</pre>\n")) ∧
    ∃ as, anchors? (listing names) = some as ∧ as.map (unescape ·.href) = names := by
  intro names fs disk ctx
  obtain ⟨hread, -, -, hserved⟩ := listing_tells_names
  constructor
  · obtain ⟨response, hrun, -, hbody⟩ := hserved fs "" ["srv"] ctx disk (fun _ => none) names []
      (fun content hentry => by cases hentry) rfl
    exact ⟨response, hrun, hbody (by decide)⟩
  · obtain ⟨as, has, hhrefs, -⟩ := hread names
    exact ⟨as, has, hhrefs⟩

end Switchboard.Static
