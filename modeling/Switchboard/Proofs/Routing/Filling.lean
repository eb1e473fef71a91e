import Switchboard.Proofs.Routing.Captures
import Switchboard.Proofs.Routing.Grammar
import Switchboard.Proofs.Text.Percent

set_option autoImplicit false

/-! # Filling in a pattern

A pattern is made into a path by writing values for its parameters and texts for its wildcard,
percent-encoded, between its fixed texts (`Pattern.fill`). The pattern takes the segments of this
path and captures what was filled in (`Pattern.captures_fill`), so a router that holds no other
pattern for the method binds each name to its value again (`Router.find_fill`).
-/

namespace Switchboard

namespace Pattern

open Text (Percent.encode Percent.decode)

/-! ## The path of a pattern -/

/-- The pieces that are written for a part: fixed text as it is, else what is to be captured, in
encoded form. -/
def fillPart (values : String → String) (rest : List String) : Part → List String
  | .fixed text => [text]
  | .param name => [Percent.encode (values name)]
  | .wildcard => rest.map Percent.encode

/-- The path of a pattern for values of its parameters and texts that its wildcard is to take. -/
def fill (p : Pattern) (values : String → String) (rest : List String) : String :=
  "/" ++ "/".intercalate (p.flatMap (fillPart values rest))

/-- What a part is to capture. -/
def intended? (values : String → String) (rest : List String) : Part → Option (String × String)
  | .fixed _ => none
  | .param name => some (name, values name)
  | .wildcard => some (wildcardName, "/".intercalate rest)

section Fill

variable {values : String → String} {rest : List String} {p : Pattern}

theorem isPiece_encode {s : String} (h : s ≠ "") : IsPiece (Percent.encode s) :=
  ⟨Text.Percent.encode_ne_empty h, Text.Percent.slash_not_mem_encode s⟩

/-- The fixed texts of a pattern that was read are pieces of what it was read from. -/
theorem isPiece_of_parse {path text : String} (h : parse path = .ok p) (hmem : .fixed text ∈ p) :
    IsPiece text := by
  have hpart : partText (.fixed text) ∈ p.map partText := List.mem_map_of_mem hmem
  rw [map_partText_of_parse h] at hpart
  obtain ⟨s, hs, heq⟩ := List.mem_map.1 hpart
  have hsame : s = text := by
    have hlists := congrArg String.toList heq
    rw [partText, String.toList_append, String.toList_append] at hlists
    exact String.toList_inj.1 (List.append_cancel_left hlists)
  exact hsame ▸ isPiece_of_mem_pathPieces hs

theorem isPiece_of_mem_fill {path : String} (h : parse path = .ok p)
    (hvalues : ∀ name ∈ p.paramNames, values name ≠ "") (hrest : ∀ s ∈ rest, s ≠ "") :
    ∀ s ∈ p.flatMap (fillPart values rest), IsPiece s := by
  intro s hs
  obtain ⟨part, hpart, hs⟩ := List.mem_flatMap.1 hs
  cases part with
  | fixed text =>
      rw [List.mem_singleton.1 hs]
      exact isPiece_of_parse h hpart
  | param name =>
      rw [List.mem_singleton.1 hs]
      exact isPiece_encode (hvalues name (List.mem_filterMap.2 ⟨_, hpart, rfl⟩))
  | wildcard =>
      obtain ⟨t, ht, rfl⟩ := List.mem_map.1 hs
      exact isPiece_encode (hrest t ht)

/-- A pattern takes the pieces that it was filled with. -/
theorem matches_fillPart (hp : p.WildcardLast) : p.Matches (p.flatMap (fillPart values rest)) := by
  induction p with
  | nil => exact .nil
  | cons a p ih =>
      cases a with
      | fixed text => exact .fixed (ih hp)
      | param name => exact .param (ih hp)
      | wildcard =>
          obtain rfl : p = [] := hp
          exact .wildcard

/-- In a path of the pieces, after some others, each part captures what it is to capture. -/
theorem capture?_fillPart {path : String} (hp : p.WildcardLast)
    (hraw : ∀ n, rawTail path n = "/".intercalate ((pathPieces path).drop n)) :
    ∀ front : List String, pathPieces path = front ++ p.flatMap (fillPart values rest) →
      ((p.zipIdx front.length).filterMap fun part => capture? path part.2 part.1) =
        p.filterMap (intended? values rest) := by
  induction p with
  | nil => exact fun _ _ => rfl
  | cons a p ih =>
      intro front hpath
      rw [List.flatMap_cons] at hpath
      -- the piece of a part stands at the place of the part, since no wildcard is before it
      have hnext : ∀ s : String, fillPart values rest a = [s] →
          pathPieces path = (front ++ [s]) ++ p.flatMap (fillPart values rest) := by
        intro s hs
        rw [hpath, hs, List.append_assoc]
      rw [List.zipIdx_cons, List.filterMap_cons, List.filterMap_cons]
      cases a with
      | fixed text =>
          have hlater := ih hp _ (hnext text rfl)
          rw [List.length_append, List.length_singleton] at hlater
          exact hlater
      | param name =>
          have hpieces := hnext _ rfl
          have hlater := ih hp _ hpieces
          rw [List.length_append, List.length_singleton] at hlater
          have hget : (pathPieces path)[front.length]? = some (Percent.encode (values name)) := by
            rw [hpath, List.getElem?_append_right (Nat.le_refl _), Nat.sub_self]
            rfl
          rw [hlater]
          simp only [capture?, intended?, hget, Option.getD_some, Text.Percent.decode_encode]
      | wildcard =>
          obtain rfl : p = [] := hp
          have hdrop : (pathPieces path).drop front.length = rest.map Percent.encode := by
            rw [hpath, List.drop_left, List.flatMap_nil, List.append_nil]
            rfl
          simp only [capture?, intended?, hraw, hdrop, Text.Percent.decode_intercalate_encode]
          rfl

section Path

variable {source path : String} (hparse : parse source = .ok p)
  (hvalues : ∀ name ∈ p.paramNames, values name ≠ "") (hrest : ∀ s ∈ rest, s ≠ "")
  (hpath : path = p.fill values rest ∨ path = p.fill values rest ++ "/")

include hparse hvalues hrest hpath

theorem pathPieces_fill : pathPieces path = p.flatMap (fillPart values rest) := by
  have hpieces := pathPieces_intercalate (isPiece_of_mem_fill hparse hvalues hrest)
  rcases hpath with rfl | rfl
  · rw [fill, pathPieces_slash_append, hpieces]
  · rw [fill, pathPieces_concat_slash, pathPieces_slash_append, hpieces]

theorem rawTail_fill (n : Nat) : rawTail path n = "/".intercalate ((pathPieces path).drop n) := by
  have hraw := rawTail_intercalate (isPiece_of_mem_fill hparse hvalues hrest) n
  rw [pathPieces_fill hparse hvalues hrest hpath, ← hraw]
  rcases hpath with rfl | rfl
  · rw [fill, rawTail_slash_append]
  · rw [fill, rawTail_concat_slash, rawTail_slash_append]

/-- What a pattern captures is what it was filled with. -/
theorem captures_fill : p.captures path = p.filterMap (intended? values rest) :=
  capture?_fillPart (wildcardLast_of_parse hparse) (rawTail_fill hparse hvalues hrest hpath) []
    (pathPieces_fill hparse hvalues hrest hpath)

end Path

theorem mem_intended_iff {name value : String} :
    (name, value) ∈ p.filterMap (intended? values rest) ↔
      name ∈ p.paramNames ∧ value = values name ∨
        Part.wildcard ∈ p ∧ name = wildcardName ∧ value = "/".intercalate rest := by
  rw [List.mem_filterMap, paramNames, List.mem_filterMap]
  constructor
  · rintro ⟨part, hpart, hintended⟩
    cases part with
    | fixed text => cases hintended
    | param name =>
        cases hintended
        exact .inl ⟨⟨_, hpart, rfl⟩, rfl⟩
    | wildcard =>
        cases hintended
        exact .inr ⟨hpart, rfl, rfl⟩
  · rintro (⟨⟨part, hpart, hname⟩, rfl⟩ | ⟨hwildcard, rfl, rfl⟩)
    · cases part with
      | param name =>
          cases hname
          exact ⟨_, hpart, rfl⟩
      | fixed | wildcard => cases hname
    · exact ⟨_, hwildcard, rfl⟩

end Fill

end Pattern

namespace Router

variable {H : Type}

/-- An entry is known from its method and its pattern. -/
theorem Holds.eq_of_pattern {r : Router H} {entries : List (Entry H)} (hr : r.Holds entries)
    {e o : Entry H} (he : e ∈ entries) (ho : o ∈ entries) (hmethod : o.method = e.method)
    (hpattern : o.pattern = e.pattern) : o = e := by
  obtain ⟨method, p, v⟩ := e
  obtain ⟨_, _, w⟩ := o
  obtain rfl : _ = method := hmethod
  obtain rfl : _ = p := hpattern
  have hv := (hr.slot _ _ _).2 he
  have hw := (hr.slot _ _ _).2 ho
  rw [Option.some.inj (hw.symm.trans hv)]

/-- A router holds a single pattern for a method, none of whose parameters has the name of the
wildcard. The path that is made of its fixed texts, non-empty values of its parameters and non-empty
texts for its wildcard, of which there may be none, all of these encoded, is found for the method,
with or without a slash at its end. Each parameter is bound to its value, the name of the wildcard
to the texts with slashes between them, and nothing else is bound. -/
theorem find_fill (l : List (Registration H)) {e : Entry H} (he : e ∈ (empty : Router H).taken l)
    (honly : ∀ o ∈ (empty : Router H).taken l, o.method = e.method → o.pattern = e.pattern)
    (hstar : Pattern.wildcardName ∉ e.pattern.paramNames) (values : String → String)
    (hvalues : ∀ name ∈ e.pattern.paramNames, values name ≠ "") (rest : List String)
    (hrest : ∀ s ∈ rest, s ≠ "") (path : String)
    (hpath : path = e.pattern.fill values rest ∨ path = e.pattern.fill values rest ++ "/") :
    ∃ params, ((empty : Router H).run l).find e.method path = .found e.value params ∧
      ∀ name value, Table.value? params name = some value ↔
        name ∈ e.pattern.paramNames ∧ value = values name ∨
          Part.wildcard ∈ e.pattern ∧ name = Pattern.wildcardName ∧
            value = "/".intercalate rest := by
  have hholds := holds_run l
  obtain ⟨g, -, hparse⟩ := exists_parse_of_mem_taken he
  have hmatches : e.pattern.Matches (pathPieces path) := by
    rw [Pattern.pathPieces_fill hparse hvalues hrest hpath]
    exact Pattern.matches_fillPart (Pattern.wildcardLast_of_parse hparse)
  have hbest : Best ((empty : Router H).taken l) e.method path e := by
    refine ⟨he, ⟨rfl, hmatches⟩, fun o ho hfits hne => ?_⟩
    exact absurd (hholds.eq_of_pattern he ho hfits.1 (honly o ho hfits.1)) hne
  have hbinds := binds_sorted (e.pattern.captures path)
  refine ⟨_, (Resolves.found hbest hbinds).unique (hholds.resolves e.method path), ?_⟩
  have hdistinct : ((e.pattern.captures path).map Prod.fst).Nodup := by
    rw [Pattern.map_fst_captures, Pattern.nodup_captureNames_iff hparse]
    exact fun hnames => hstar hnames.1
  intro name value
  rw [hbinds.ascending.distinct.value?_eq_some_iff, (hbinds.perm hdistinct).mem_iff,
    Pattern.captures_fill hparse hvalues hrest hpath, Pattern.mem_intended_iff]

/-- Values with slashes, percent signs and letters beyond ASCII, beside a pattern of another
method. -/
theorem find_fill_encoded :
    let l : List (Registration Nat) := [⟨.get, "/files/:owner/*", 1⟩, ⟨.put, "/files/:name", 2⟩]
    let e : Entry Nat := ⟨.get, [.fixed "files", .param "owner", .wildcard], 1⟩
    let values := fun _ : String => "a/b%é"
    let path := "/files/a%2Fb%25%C3%A9/x%20y/%2A%2F%3A"
    (e ∈ (empty : Router Nat).taken l ∧
      (∀ o ∈ (empty : Router Nat).taken l, o.method = e.method → o.pattern = e.pattern) ∧
      Pattern.wildcardName ∉ e.pattern.paramNames ∧
      (∀ name ∈ e.pattern.paramNames, values name ≠ "") ∧ (∀ s ∈ ["x y", "*/:"], s ≠ "") ∧
      path = e.pattern.fill values ["x y", "*/:"]) ∧
    ∃ params, ((empty : Router Nat).run l).find .get path = .found 1 params ∧
      Table.value? params "owner" = some "a/b%é" ∧ Table.value? params "*" = some "x y/*/:" := by
  intro l e values path
  have htaken : (empty : Router Nat).taken l =
      [e, ⟨.put, [.fixed "files", .param "name"], 2⟩] := by rfl
  have he : e ∈ (empty : Router Nat).taken l := by
    rw [htaken]
    exact List.mem_cons_self
  have honly : ∀ o ∈ (empty : Router Nat).taken l, o.method = e.method → o.pattern = e.pattern := by
    rw [htaken, List.forall_mem_cons, List.forall_mem_singleton]
    exact ⟨fun _ => rfl, fun hmethod => absurd hmethod (by decide)⟩
  have hstar : Pattern.wildcardName ∉ e.pattern.paramNames := by decide
  have hvalues : ∀ name ∈ e.pattern.paramNames, values name ≠ "" := fun _ _ => by decide
  have hrest : ∀ s ∈ ["x y", "*/:"], s ≠ "" := by decide
  have hpath : path = e.pattern.fill values ["x y", "*/:"] := by decide +kernel
  refine ⟨⟨he, honly, hstar, hvalues, hrest, hpath⟩, ?_⟩
  obtain ⟨params, hfound, hparams⟩ :=
    find_fill l he honly hstar values hvalues _ hrest path (.inl hpath)
  refine ⟨params, hfound, (hparams _ _).2 (.inl ⟨by decide, rfl⟩), (hparams _ _).2 (.inr ?_)⟩
  exact ⟨by decide, rfl, by decide⟩

end Router

end Switchboard
