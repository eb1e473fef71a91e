import Mathlib.Logic.Relation
import Switchboard.Proofs.Routing.Captures
import Switchboard.Proofs.Routing.Pieces
import Switchboard.Proofs.Text.Percent

set_option autoImplicit false

/-! # Slashes in requests

Two paths with the same pieces differ in slashes only, and a router answers them alike
(`Router.find_of_same_pieces`). Only the wildcard takes a text that is not a piece. The raw texts
from one piece on are the same up to how many slashes stand in a row (`sameRuns_rawTail`), and they
stay so when they are decoded (`Text.SameRuns.decode`).
-/

namespace Switchboard

namespace Text

/-! ## Slashes in a row -/

section Squeeze

variable (sep : Char)

/-- Leaves one separator of several in a row. -/
def squeeze : List Char → List Char
  | [] => []
  | c :: cs => if c = sep ∧ cs.head? = some sep then squeeze cs else c :: squeeze cs

theorem squeeze_append_sep_sep (cs ds : List Char) :
    squeeze sep (cs ++ sep :: sep :: ds) = squeeze sep (cs ++ sep :: ds) := by
  induction cs with
  | nil => rw [List.nil_append, squeeze, if_pos ⟨rfl, rfl⟩, List.nil_append]
  | cons c cs ih =>
      have hhead : (cs ++ sep :: sep :: ds).head? = (cs ++ sep :: ds).head? := by
        cases cs <;> rfl
      rw [List.cons_append, List.cons_append, squeeze, squeeze, hhead, ih]

end Squeeze

/-- The text with one slash for each run of slashes. -/
def singleSlashes (text : String) : String := String.ofList (squeeze '/' text.toList)

/-- The second text has one slash for two that stand next to each other in the first. -/
inductive DropsSlash : String → String → Prop
  | drop (s t : String) : DropsSlash (s ++ "/" ++ ("/" ++ t)) (s ++ "/" ++ t)

/-- The texts are the same up to how many slashes stand in a row. -/
def SameRuns : String → String → Prop := Relation.EqvGen DropsSlash

namespace SameRuns

variable {s t u : String}

theorem equivalence : Equivalence SameRuns := Relation.EqvGen.is_equivalence DropsSlash

theorem refl (s : String) : SameRuns s s := equivalence.refl s

theorem symm (h : SameRuns s t) : SameRuns t s := equivalence.symm h

theorem trans (h : SameRuns s t) (h' : SameRuns t u) : SameRuns s u := equivalence.trans h h'

theorem drop (s t : String) : SameRuns (s ++ "/" ++ ("/" ++ t)) (s ++ "/" ++ t) :=
  Relation.EqvGen.rel _ _ (.drop s t)

/-- A function that does not tell two slashes from one does not tell any number of them apart. -/
theorem lift {α : Type} {r : α → α → Prop} (hr : Equivalence r) {f : String → α}
    (hf : ∀ s t, r (f (s ++ "/" ++ ("/" ++ t))) (f (s ++ "/" ++ t))) (h : SameRuns s t) :
    r (f s) (f t) := by
  induction h with
  | rel _ _ h =>
      obtain ⟨s, t⟩ := h
      exact hf s t
  | refl => exact hr.refl _
  | symm _ _ _ ih => exact hr.symm ih
  | trans _ _ _ _ _ ih ih' => exact hr.trans ih ih'

theorem append_left (front : String) (h : SameRuns s t) : SameRuns (front ++ s) (front ++ t) := by
  refine h.lift equivalence (f := (front ++ ·)) fun s t => ?_
  have hdrop := drop (front ++ s) t
  simpa only [String.append_assoc] using hdrop

theorem singleSlashes_eq (h : SameRuns s t) : singleSlashes s = singleSlashes t := by
  refine h.lift eq_equivalence fun s t => ?_
  have htwo : (s ++ "/" ++ ("/" ++ t)).toList = s.toList ++ '/' :: '/' :: t.toList := by
    rw [String.toList_append, toList_append_slash, String.toList_append, List.append_assoc]
    rfl
  have hone : (s ++ "/" ++ t).toList = s.toList ++ '/' :: t.toList := by
    rw [String.toList_append, toList_append_slash, List.append_assoc]
    rfl
  rw [singleSlashes, singleSlashes, htwo, hone, squeeze_append_sep_sep]

theorem pathPieces_eq (h : SameRuns s t) : pathPieces s = pathPieces t := by
  refine h.lift eq_equivalence fun s t => ?_
  rw [pathPieces_append_slash, pathPieces_append_slash, pathPieces_slash_append]

/-- A slash stands for itself, so decoding leaves the slashes that are there where they are. -/
theorem decode (h : SameRuns s t) : SameRuns (Percent.decode s) (Percent.decode t) := by
  refine h.lift equivalence fun s t => ?_
  rw [Percent.decode_append_slash, Percent.decode_append_slash, Percent.decode_slash_append]
  exact drop _ _

end SameRuns

/-! ## Runs in the raw text -/

theorem fromPiece_zero_fromPiece {sep : Char} (n : Nat) (cs : List Char) :
    fromPiece sep 0 (fromPiece sep n cs) = fromPiece sep n cs := by
  induction n generalizing cs with
  | zero => exact List.dropWhile_idempotent _ cs
  | succ n ih => exact ih _

theorem sameRuns_fromPiece_zero (s : String) (cs : List Char) :
    SameRuns (s ++ "/" ++ String.ofList cs)
      (s ++ "/" ++ String.ofList (fromPiece '/' 0 cs)) := by
  induction cs with
  | nil => exact .refl _
  | cons c cs ih =>
      by_cases hc : c = '/'
      · subst hc
        have hslash : String.ofList (['/'] ++ cs) = "/" ++ String.ofList cs := String.ofList_append
        rw [fromPiece_sep, ← List.singleton_append, hslash]
        exact (SameRuns.drop s _).trans ih
      · have hself : fromPiece '/' 0 (c :: cs) = c :: cs := by simp [fromPiece, hc]
        rw [hself]
        exact .refl _

theorem getLast?_fromPiece_zero_ne {sep : Char} {cs : List Char} (h : cs.getLast? ≠ some sep) :
    (fromPiece sep 0 cs).getLast? ≠ some sep := by
  intro hlast
  obtain ⟨front, hfront⟩ := List.getLast?_eq_some_iff.1 hlast
  obtain ⟨dropped, hcs⟩ := List.dropWhile_suffix (l := cs) (· = sep)
  refine h (List.getLast?_eq_some_iff.2 ⟨dropped ++ front, ?_⟩)
  rw [← hcs, List.append_assoc, ← hfront]
  rfl

end Text

open Text

theorem rawTail_trimSlashes (s : String) (n : Nat) : rawTail (trimSlashes s) n = rawTail s n :=
  apply_trimSlashes (f := (rawTail · n)) (rawTail_concat_slash · n) s

theorem pathPieces_ne_nil {cs : List Char} {c : Char} (h : c ∈ cs) (hc : c ≠ '/') :
    pathPieces (String.ofList cs) ≠ [] := by
  have hpiece : ∀ p : List Char, '/' ∉ p → c ∈ p → pathPieces (String.ofList p) ≠ [] := by
    intro p hp hmem
    rw [(isPiece_ofList (List.ne_nil_of_mem hmem) hp).pathPieces_eq]
    exact List.cons_ne_nil _ _
  induction cs using pieceInduction '/' with
  | last p hp => exact hpiece p hp h
  | step p cs hp ih =>
      rw [ofList_append_slash, pathPieces_append_slash]
      intro hnil
      obtain ⟨hfront, hback⟩ := List.append_eq_nil_iff.1 hnil
      rcases List.mem_append.1 h with h | h
      · exact hpiece p hp h hfront
      · exact ih ((List.mem_cons.1 h).resolve_left hc) hback

/-- A text without a slash at its end is, up to runs of slashes and those in front, its pieces. -/
theorem sameRuns_pieces (cs : List Char) (hend : cs.getLast? ≠ some '/') :
    SameRuns (String.ofList (fromPiece '/' 0 cs))
      ("/".intercalate (pathPieces (String.ofList cs))) := by
  induction cs using pieceInduction '/' with
  | last p hp =>
      by_cases hne : p = []
      · rw [hne]
        exact .refl _
      · rw [fromPiece_zero_of_not_mem hp, (isPiece_ofList hne hp).pathPieces_eq,
          String.intercalate_singleton]
        exact .refl _
  | step p cs hp ih =>
      -- what is behind the slash is not empty and has no slash at its end either
      have hcs : cs ≠ [] := by
        rintro rfl
        exact hend List.getLast?_concat
      have hlast : cs.getLast? ≠ some '/' := by
        rwa [List.getLast?_append_of_ne_nil _ (List.cons_ne_nil _ _),
          List.getLast?_cons_of_ne_nil hcs] at hend
      have ih := ih hlast
      rw [ofList_append_slash, pathPieces_append_slash]
      by_cases hne : p = []
      · subst hne
        rwa [List.nil_append, fromPiece_sep]
      · rw [fromPiece_zero_append hp hne, ofList_append_slash,
          (isPiece_ofList hne hp).pathPieces_eq, List.singleton_append]
        -- so it has a piece, and the slashes in front of this piece run on from the one before
        have hne' : cs.getLast hcs ≠ '/' := by
          rwa [List.getLast?_eq_some_getLast hcs, Ne, Option.some_inj] at hlast
        obtain ⟨t, ts, hpieces⟩ :=
          List.exists_cons_of_ne_nil (pathPieces_ne_nil (List.getLast_mem hcs) hne')
        rw [hpieces] at ih ⊢
        rw [String.intercalate_cons_cons]
        exact (sameRuns_fromPiece_zero _ cs).trans (ih.append_left _)

theorem sameRuns_rawTail_zero (s : String) :
    SameRuns (rawTail s 0) ("/".intercalate (pathPieces s)) := by
  have hend := getLast?_trimEnd_ne '/' s.toList
  have hpieces := sameRuns_pieces _ hend
  rw [← rawTail_trimSlashes, ← pathPieces_trimSlashes]
  rwa [rawTail, toList_trimSlashes, trimEnd_eq_self (getLast?_fromPiece_zero_ne hend), trimSlashes]

theorem rawTail_zero_rawTail (path : String) (n : Nat) :
    rawTail (rawTail path n) 0 = rawTail path n := by
  rw [rawTail_eq_trimSlashes path n, rawTail_trimSlashes, rawTail_eq_trimSlashes,
    String.toList_ofList, fromPiece_zero_fromPiece]

/-- The raw text from a piece on is, up to runs of slashes, the pieces from this one on. -/
theorem sameRuns_rawTail (path : String) (n : Nat) :
    SameRuns (rawTail path n) ("/".intercalate ((pathPieces path).drop n)) := by
  have h := sameRuns_rawTail_zero (rawTail path n)
  rwa [rawTail_zero_rawTail, pathPieces_rawTail] at h

/-! ## Captures from two paths -/

/-- The parameters that one pattern captured from two paths. They are equal but for what the
wildcard took, if there is one, and this is the same up to runs of slashes. -/
structure SameCaptures (p : Pattern) (params params' : Params) : Prop where
  eq_of_no_wildcard : Part.wildcard ∉ p → params' = params
  param : ∀ name, name ≠ Pattern.wildcardName →
    Table.value? params' name = Table.value? params name
  wildcard : Part.wildcard ∈ p → ∃ v v',
    Table.value? params Pattern.wildcardName = some v ∧
      Table.value? params' Pattern.wildcardName = some v' ∧
      singleSlashes v' = singleSlashes v ∧ pathPieces v' = pathPieces v

theorem Pattern.WildcardLast.not_mem_front {front : Pattern}
    (h : WildcardLast (front ++ [.wildcard])) : Part.wildcard ∉ front := by
  induction front with
  | nil => exact List.not_mem_nil
  | cons a front ih =>
      cases a with
      | wildcard => cases List.append_eq_nil_iff.1 h |>.2
      | fixed text | param name => simpa using ih h

section SamePieces

variable {path path' : String} (h : pathPieces path' = pathPieces path)

include h

/-- Without a wildcard, what a pattern captures is known from the pieces. -/
theorem Pattern.captures_eq_of_pieces {p : Pattern} (hp : Part.wildcard ∉ p) :
    p.captures path' = p.captures path := by
  refine List.filterMap_congr fun part hpart => ?_
  obtain ⟨a, i⟩ := part
  have ha : a ∈ p := List.fst_mem_of_mem_zipIdx hpart
  cases a with
  | fixed text => rfl
  | param name => simp only [capture?, h]
  | wildcard => exact absurd ha hp

theorem sameRuns_wildcard (n : Nat) :
    SameRuns (Percent.decode (rawTail path' n)) (Percent.decode (rawTail path n)) := by
  have hpath' := sameRuns_rawTail path' n
  rw [h] at hpath'
  exact (hpath'.trans (sameRuns_rawTail path n).symm).decode

theorem Binds.sameCaptures {p : Pattern} (hp : p.WildcardLast) {params params' : Params}
    (hb : Binds params (p.captures path)) (hb' : Binds params' (p.captures path')) :
    SameCaptures p params params' := by
  by_cases hw : Part.wildcard ∈ p
  · obtain ⟨front, rfl⟩ := hp.exists_front hw
    rw [Pattern.captures_append_wildcard] at hb hb'
    rw [Pattern.captures_eq_of_pieces h hp.not_mem_front] at hb'
    have hruns := sameRuns_wildcard h front.length
    refine ⟨fun hno => absurd hw hno, fun name hname => ?_, fun _ => ?_⟩
    · rw [hb'.value?_of_concat, hb.value?_of_concat, if_neg hname, if_neg hname]
    · refine ⟨_, _, ?_, ?_, hruns.singleSlashes_eq, hruns.pathPieces_eq⟩
      · rw [hb.value?_of_concat, if_pos rfl]
      · rw [hb'.value?_of_concat, if_pos rfl]
  · rw [Pattern.captures_eq_of_pieces h hw] at hb'
    obtain rfl := hb.unique hb'
    exact ⟨fun _ => rfl, fun _ _ => rfl, fun hin => absurd hin hw⟩

variable {H : Type} {entries : List (Entry H)} {method : Method}

theorem Entry.fits_iff (e : Entry H) (m : Method) : e.Fits m path' ↔ e.Fits m path := by
  rw [Fits, Fits, h]

theorem Best.of_samePieces {e : Entry H} (he : Best entries method path e) :
    Best entries method path' e := by
  refine ⟨he.mem, (e.fits_iff h method).2 he.fits, fun o ho hfits => ?_⟩
  exact he.outranks o ho ((o.fits_iff h method).1 hfits)

end SamePieces

namespace Router

variable {H : Type}

/-- Two paths with the same pieces are answered alike by a router that was filled by adding. Either
both are found, with the value of the same entry and the same captures, or both are answered with
the same list of methods, or neither is found. -/
theorem find_of_same_pieces (l : List (Registration H)) {path path' : String}
    (h : pathPieces path' = pathPieces path) (method : Method) :
    let answer := ((empty : Router H).run l).find method
    (∃ e params params', Best ((empty : Router H).taken l) method path e ∧
      answer path = .found e.value params ∧ answer path' = .found e.value params' ∧
      SameCaptures e.pattern params params') ∨
    (∃ allowed, answer path = .methodNotAllowed allowed ∧
      answer path' = .methodNotAllowed allowed) ∨
    answer path = .notFound ∧ answer path' = .notFound := by
  intro answer
  have hres : Resolves ((empty : Router H).taken l) method path (answer path) :=
    (holds_run l).resolves method path
  have hres' : Resolves ((empty : Router H).taken l) method path' (answer path') :=
    (holds_run l).resolves method path'
  generalize answer path = a at hres ⊢
  -- what the one path resolves to, the other one resolves to as well, and there is no second answer
  cases hres with
  | found he hbinds =>
      rename_i e params
      obtain ⟨g, -, hparse⟩ := exists_parse_of_mem_taken he.mem
      have hbinds' := binds_sorted (e.pattern.captures path')
      have hanswer := hres'.unique (.found (he.of_samePieces h) hbinds')
      refine .inl ⟨e, params, _, he, rfl, hanswer.symm, ?_⟩
      exact hbinds.sameCaptures h (Pattern.wildcardLast_of_parse hparse) hbinds'
  | methodNotAllowed hno hne hsorted hmem =>
      rename_i allowed
      refine .inr (.inl ⟨allowed, rfl, ?_⟩)
      refine (Resolves.methodNotAllowed ?_ hne hsorted ?_).unique hres'
      · intro e he
        rw [e.fits_iff h]
        exact hno e he
      · intro m
        simp only [Entry.fits_iff h, hmem]
  | notFound hno =>
      refine .inr (.inr ⟨rfl, (Resolves.notFound ?_).unique hres'⟩)
      intro m e he
      rw [e.fits_iff h]
      exact hno m e he

/-- Repeated slashes before, in and after what a wildcard takes, beside an encoded slash. -/
theorem find_of_same_pieces_files :
    let l : List (Registration Nat) := [⟨.get, "/files/:owner/*", 1⟩, ⟨.put, "/files", 2⟩]
    let path := "/files//ann/a%2Fb///c/"
    let path' := "files/ann/a%2Fb/c"
    pathPieces path' = pathPieces path ∧
      ∃ params params', ((empty : Router Nat).run l).find .get path = .found 1 params ∧
        ((empty : Router Nat).run l).find .get path' = .found 1 params' ∧
        Table.value? params' "owner" = Table.value? params "owner" ∧
        Table.value? params "*" = some "a/b///c" ∧
        ∃ v', Table.value? params' "*" = some v' ∧ singleSlashes v' = "a/b/c" ∧
          pathPieces v' = ["a", "b", "c"] := by
  intro l path path'
  have hpieces : pathPieces path' = pathPieces path := by decide +kernel
  have hfound : ((empty : Router Nat).run l).find .get path =
      .found 1 [("*", "a/b///c"), ("owner", "ann")] := by decide +kernel
  have htaken : (empty : Router Nat).taken l =
      [⟨.get, [.fixed "files", .param "owner", .wildcard], 1⟩, ⟨.put, [.fixed "files"], 2⟩] := by
    rfl
  refine ⟨hpieces, ?_⟩
  rcases find_of_same_pieces l hpieces .get with
    ⟨e, params, params', hbest, hanswer, hanswer', hsame⟩ | ⟨allowed, hanswer, -⟩ | ⟨hanswer, -⟩
  · have hmem := hbest.mem
    rw [htaken, List.mem_pair] at hmem
    rw [hfound] at hanswer
    rcases hmem with rfl | rfl
    · cases hanswer
      obtain ⟨v, v', hv, hv', hruns, hsegments⟩ := hsame.wildcard (by decide)
      obtain rfl : "a/b///c" = v := Option.some.inj hv
      refine ⟨_, params', hfound, hanswer', hsame.param _ (by decide), rfl, v', hv', ?_, ?_⟩
      · exact hruns.trans (by decide)
      · exact hsegments.trans (by decide)
    · cases hanswer
  · rw [hfound] at hanswer
    cases hanswer
  · rw [hfound] at hanswer
    cases hanswer

end Router

end Switchboard
