import Switchboard.Proofs.Routing.Pieces
import Switchboard.Proofs.Routing.Slots

set_option autoImplicit false

/-! # The grammar of patterns

Which texts can be read as patterns is a matter of their pieces (`Pattern.Grammatical`), and what is
read is written again as it stood, but for one slash at the end (`Pattern.text_of_parse`). So the
written form of a pattern is read as this pattern, and two texts are read as the same one exactly
if they differ in no more than that slash (`Pattern.parse_text`).
-/

namespace Switchboard

namespace Text

/-- The text without one slash at its end. A slash alone stays. -/
def dropSlash (text : String) : String :=
  if text.toList.getLast? = some '/' ∧ text ≠ "/" then String.ofList text.toList.dropLast else text

theorem dropSlash_eq_or (text : String) :
    text = dropSlash text ∨ text = dropSlash text ++ "/" := by
  rw [dropSlash]
  split
  · next h =>
    obtain ⟨front, hfront⟩ := List.getLast?_eq_some_iff.1 h.1
    refine .inr ?_
    rw [← String.toList_inj, toList_append_slash, String.toList_ofList, hfront,
      List.dropLast_concat]
  · exact .inl rfl

end Text

namespace Pattern

open Text (HasDoubledSlash dropSlash splitOn)

/-! ## Texts that can be read -/

/-- The name that a piece declares as that of a parameter. -/
def declared? (piece : String) : Option String :=
  match piece.toList with
  | ':' :: name => some (String.ofList name)
  | _ => none

/-- A piece is meant as a wildcard. -/
def IsStarred (piece : String) : Prop := piece.toList.head? = some '*'

instance (piece : String) : Decidable (IsStarred piece) := inferInstanceAs (Decidable (_ = _))

/-- What makes a text a pattern. -/
@[mk_iff]
structure Grammatical (path : String) : Prop where
  rooted : path.toList.head? = some '/'
  single : ¬ HasDoubledSlash path
  /-- No parameter is without a name. -/
  named : ∀ piece ∈ pathPieces path, declared? piece ≠ some ""
  /-- No two parameters have the same name. -/
  distinct : ((pathPieces path).filterMap declared?).Nodup
  /-- No wildcard has a name. -/
  unnamed : ∀ piece ∈ pathPieces path, IsStarred piece → piece = wildcardName
  /-- A wildcard has nothing behind it. -/
  last : wildcardName ∉ (pathPieces path).dropLast

instance (path : String) : Decidable (Grammatical path) :=
  decidable_of_iff _ (grammatical_iff path).symm

/-- What is asked of pieces that come after the declaration of some names. -/
structure Continues (seen pieces : List String) : Prop where
  named : ∀ piece ∈ pieces, declared? piece ≠ some ""
  distinct : (pieces.filterMap declared?).Nodup
  fresh : ∀ name ∈ pieces.filterMap declared?, name ∉ seen
  unnamed : ∀ piece ∈ pieces, IsStarred piece → piece = wildcardName
  last : wildcardName ∉ pieces.dropLast

section Continues

variable {seen rest : List String} {piece name : String}

theorem declared?_ofList_cons (name : List Char) :
    declared? (String.ofList (':' :: name)) = some (String.ofList name) := by
  simp only [declared?, String.toList_ofList]

theorem isStarred_ofList {cs : List Char} :
    IsStarred (String.ofList cs) ↔ cs.head? = some '*' := by
  rw [IsStarred, String.toList_ofList]

theorem isStarred_wildcardName : IsStarred wildcardName := by decide

theorem declared?_of_isStarred (h : IsStarred piece) : declared? piece = none := by
  rw [declared?]
  split
  · next heq =>
    rw [IsStarred, heq] at h
    cases h
  · rfl

theorem continues_nil : Continues seen [] :=
  ⟨by simp, by simp, by simp, by simp, by simp⟩

/-- Nothing follows a wildcard. -/
theorem continues_starred_iff (h : IsStarred piece) :
    Continues seen (piece :: rest) ↔ piece = wildcardName ∧ rest = [] := by
  constructor
  · intro hc
    have hname := hc.unnamed piece List.mem_cons_self h
    refine ⟨hname, ?_⟩
    by_contra hne
    refine hc.last ?_
    rw [List.dropLast_cons_of_ne_nil hne, hname]
    exact List.mem_cons_self
  · rintro ⟨rfl, rfl⟩
    have hnone := declared?_of_isStarred h
    exact ⟨by simp [hnone], by simp [hnone], by simp [hnone], by simp, by simp⟩

theorem wildcardName_mem_dropLast_cons_iff (h : ¬ IsStarred piece) :
    wildcardName ∈ (piece :: rest).dropLast ↔ wildcardName ∈ rest.dropLast := by
  have hne : wildcardName ≠ piece := fun e => h (e ▸ isStarred_wildcardName)
  cases rest with
  | nil => simp
  | cons next rest => simp [hne]

/-- A declaration in front of other pieces must be of a new name. -/
theorem continues_declared_iff (h : declared? piece = some name) :
    Continues seen (piece :: rest) ↔
      name ≠ "" ∧ name ∉ seen ∧ Continues (name :: seen) rest := by
  have hstar : ¬ IsStarred piece := fun hs => by
    rw [declared?_of_isStarred hs] at h
    cases h
  constructor
  · rintro ⟨hnamed, hdistinct, hfresh, hunnamed, hlast⟩
    rw [List.filterMap_cons_some h] at hdistinct hfresh
    rw [List.forall_mem_cons] at hnamed hfresh hunnamed
    rw [List.nodup_cons] at hdistinct
    rw [wildcardName_mem_dropLast_cons_iff hstar] at hlast
    refine ⟨fun e => hnamed.1 (e ▸ h), hfresh.1, hnamed.2, hdistinct.2, ?_, hunnamed.2, hlast⟩
    intro other hother hseen
    rcases List.mem_cons.1 hseen with rfl | hseen
    · exact hdistinct.1 hother
    · exact hfresh.2 other hother hseen
  · rintro ⟨hne, hnew, hnamed, hdistinct, hfresh, hunnamed, hlast⟩
    constructor
    · rw [List.forall_mem_cons, h]
      exact ⟨fun e => hne (Option.some.inj e), hnamed⟩
    · rw [List.filterMap_cons_some h, List.nodup_cons]
      exact ⟨fun hmem => hfresh name hmem List.mem_cons_self, hdistinct⟩
    · rw [List.filterMap_cons_some h, List.forall_mem_cons]
      exact ⟨hnew, fun other hother hseen => hfresh other hother (List.mem_cons_of_mem _ hseen)⟩
    · rw [List.forall_mem_cons]
      exact ⟨fun hs => absurd hs hstar, hunnamed⟩
    · rwa [wildcardName_mem_dropLast_cons_iff hstar]

theorem continues_fixed_iff (h : declared? piece = none) (hstar : ¬ IsStarred piece) :
    Continues seen (piece :: rest) ↔ Continues seen rest := by
  constructor
  · rintro ⟨hnamed, hdistinct, hfresh, hunnamed, hlast⟩
    rw [List.filterMap_cons_none h] at hdistinct hfresh
    rw [List.forall_mem_cons] at hnamed hunnamed
    rw [wildcardName_mem_dropLast_cons_iff hstar] at hlast
    exact ⟨hnamed.2, hdistinct, hfresh, hunnamed.2, hlast⟩
  · rintro ⟨hnamed, hdistinct, hfresh, hunnamed, hlast⟩
    constructor
    · rw [List.forall_mem_cons, h]
      exact ⟨by simp, hnamed⟩
    · rwa [List.filterMap_cons_none h]
    · rwa [List.filterMap_cons_none h]
    · rw [List.forall_mem_cons]
      exact ⟨fun hs => absurd hs hstar, hunnamed⟩
    · rwa [wildcardName_mem_dropLast_cons_iff hstar]

end Continues

theorem ofList_star_eq_iff {name : List Char} :
    String.ofList ('*' :: name) = wildcardName ↔ name = [] := by
  have hstar : wildcardName.toList = ['*'] := rfl
  rw [← String.toList_inj, String.toList_ofList, hstar, List.cons.injEq]
  exact and_iff_right rfl

theorem not_exists_error_eq_ok {ε α : Type} {e : ε} : ¬ ∃ a : α, Except.error e = .ok a := by
  rintro ⟨a, h⟩
  cases h

theorem exists_map_ok_iff {ε α β : Type} {f : α → β} {x : Except ε α} :
    (∃ b, x.map f = .ok b) ↔ ∃ a, x = .ok a := by
  constructor
  · rintro ⟨b, hb⟩
    obtain ⟨a, ha, -⟩ := eq_ok_of_map hb
    exact ⟨a, ha⟩
  · rintro ⟨a, rfl⟩
    exact ⟨f a, rfl⟩

/-- Which pieces can be read. -/
theorem ofPieces_ok_iff (seen : List String) (ps : List (List Char)) :
    (∃ p, ofPieces seen ps = .ok p) ↔ Continues seen (ps.map String.ofList) := by
  fun_induction ofPieces seen ps with
  | case1 => exact iff_of_true ⟨[], rfl⟩ continues_nil
  | case2 seen chars rest _ hempty =>
      rw [List.map_cons, continues_declared_iff (declared?_ofList_cons chars)]
      exact iff_of_false not_exists_error_eq_ok fun h => h.1 hempty
  | case3 seen chars rest _ _ hseen =>
      rw [List.map_cons, continues_declared_iff (declared?_ofList_cons chars)]
      exact iff_of_false not_exists_error_eq_ok fun h => h.2.1 hseen
  | case4 seen chars rest _ hne hnew ih =>
      rw [exists_map_ok_iff, ih, List.map_cons,
        continues_declared_iff (declared?_ofList_cons chars)]
      exact ⟨fun h => ⟨hne, hnew, h⟩, fun h => h.2.2⟩
  | case5 seen chars rest hnamed =>
      rw [List.map_cons, continues_starred_iff (isStarred_ofList.2 rfl), ofList_star_eq_iff]
      exact iff_of_false not_exists_error_eq_ok fun h => hnamed h.1
  | case6 seen chars rest _ hrest =>
      rw [List.map_cons, continues_starred_iff (isStarred_ofList.2 rfl), List.map_eq_nil_iff]
      exact iff_of_false not_exists_error_eq_ok fun h => hrest h.2
  | case7 seen chars rest hunnamed hlast =>
      rw [List.map_cons, continues_starred_iff (isStarred_ofList.2 rfl), ofList_star_eq_iff,
        List.map_eq_nil_iff]
      exact iff_of_true ⟨_, rfl⟩ ⟨not_not.1 hunnamed, not_not.1 hlast⟩
  | case8 seen chars rest hcolon hstar ih =>
      have hfixed : declared? (String.ofList chars) = none := by
        rw [declared?, String.toList_ofList]
        split
        · next name => exact absurd rfl (hcolon name)
        · rfl
      have hunstarred : ¬ IsStarred (String.ofList chars) := by
        rw [isStarred_ofList]
        intro hhead
        obtain ⟨name, rfl⟩ := List.head?_eq_some_iff.1 hhead
        exact hstar name rfl
      rw [exists_map_ok_iff, ih, List.map_cons, continues_fixed_iff hfixed hunstarred]

/-- A text that starts with a slash and has no two next to each other is read piece by piece. -/
theorem parse_eq_ofPieces {path : String} (hrooted : path.toList.head? = some '/')
    (hsingle : ¬ HasDoubledSlash path) :
    parse path = ofPieces [] ((splitOn '/' path.toList).filter (!·.isEmpty)) := by
  rw [parse, doubledSlash?_eq_none_iff.2 hsingle, if_neg (by simp [hrooted])]

/-- The texts that can be read are those that follow the grammar. -/
theorem parse_ok_iff (path : String) : (∃ p, parse path = .ok p) ↔ Grammatical path := by
  have hpieces : ∀ {seen}, (∃ p, ofPieces seen ((splitOn '/' path.toList).filter (!·.isEmpty)) =
      .ok p) ↔ Continues seen (pathPieces path) := ofPieces_ok_iff _ _
  constructor
  · rintro ⟨p, hp⟩
    have hrooted := head?_of_parse hp
    have hsingle := not_hasDoubledSlash_of_parse hp
    rw [parse_eq_ofPieces hrooted hsingle] at hp
    have hc := hpieces.1 ⟨p, hp⟩
    exact ⟨hrooted, hsingle, hc.named, hc.distinct, hc.unnamed, hc.last⟩
  · intro h
    rw [parse_eq_ofPieces h.rooted h.single, hpieces]
    exact ⟨h.named, h.distinct, fun _ _ => List.not_mem_nil, h.unnamed, h.last⟩

/-! ## The written form -/

/-- Each part is written as the piece that it was read from. -/
theorem map_partText_of_ofPieces {seen : List String} {ps : List (List Char)} {p : Pattern}
    (h : ofPieces seen ps = .ok p) :
    p.map partText = ps.map fun cs => "/" ++ String.ofList cs := by
  fun_induction ofPieces seen ps generalizing p with
  | case1 =>
      cases h
      rfl
  | case2 | case3 => cases h
  | case4 seen chars rest =>
      rename_i ih
      obtain ⟨q, hq, rfl⟩ := eq_ok_of_map h
      have htext : "/:" ++ String.ofList chars = "/" ++ String.ofList (':' :: chars) := by
        rw [← String.toList_inj]
        simp
      rw [List.map_cons, List.map_cons, ih hq, partText, htext]
  | case5 | case6 => cases h
  | case7 seen chars rest hunnamed hlast =>
      cases h
      obtain rfl := not_not.1 hunnamed
      obtain rfl := not_not.1 hlast
      rfl
  | case8 seen chars rest _ _ ih =>
      obtain ⟨q, hq, rfl⟩ := eq_ok_of_map h
      rw [List.map_cons, List.map_cons, ih hq, partText]

theorem map_partText_of_parse {path : String} {p : Pattern} (h : parse path = .ok p) :
    p.map partText = (pathPieces path).map fun s => "/" ++ s := by
  rw [parse_eq_ofPieces (head?_of_parse h) (not_hasDoubledSlash_of_parse h)] at h
  rw [map_partText_of_ofPieces h, pathPieces, List.map_map]
  rfl

/-- Where no two slashes stand next to each other, the pieces with a slash before each of them are
the whole text, but for a slash at the end. -/
theorem flatMap_pieces {cs : List Char} (h : ¬ ['/', '/'] <:+: '/' :: cs) :
    ((splitOn '/' cs).filter (!·.isEmpty)).flatMap ('/' :: ·) =
      if ('/' :: cs).getLast? = some '/' then ('/' :: cs).dropLast else '/' :: cs := by
  induction cs using Text.pieceInduction '/' with
  | last p hp =>
      rw [Text.splitOn_of_not_mem hp]
      cases p with
      | nil => rfl
      | cons c p =>
          have hend : ('/' :: c :: p).getLast? ≠ some '/' := by
            rw [List.getLast?_cons_cons]
            exact fun e => hp (List.mem_of_getLast? e)
          rw [if_neg hend]
          simp
  | step p cs hp ih =>
      cases p with
      | nil => exact absurd ⟨[], cs, rfl⟩ h
      | cons c p =>
          have hrest : ¬ ['/', '/'] <:+: '/' :: cs := by
            intro hd
            refine h (hd.trans ?_)
            exact (List.suffix_append ('/' :: c :: p) ('/' :: cs)).isInfix
          have hend : ('/' :: (c :: p ++ '/' :: cs)).getLast? = ('/' :: cs).getLast? := by
            rw [← List.cons_append, List.getLast?_append, List.getLast?_cons, Option.some_or]
          have hfront : ('/' :: (c :: p ++ '/' :: cs)).dropLast =
              '/' :: (c :: p) ++ ('/' :: cs).dropLast := by
            rw [← List.cons_append, List.dropLast_append_of_ne_nil (by simp)]
          rw [Text.splitOn_append_cons hp, List.filter_cons_of_pos rfl, List.flatMap_cons, ih hrest,
            hend, hfront]
          split
          · rfl
          · rfl

theorem toList_join_partText {path : String} {p : Pattern} (h : parse path = .ok p) :
    (String.join (p.map partText)).toList =
      if path.toList.getLast? = some '/' then path.toList.dropLast else path.toList := by
  obtain ⟨cs, hcs⟩ := List.head?_eq_some_iff.1 (head?_of_parse h)
  have hsingle : ¬ ['/', '/'] <:+: '/' :: cs := hcs ▸ not_hasDoubledSlash_of_parse h
  have hpieces : (splitOn '/' path.toList).filter (!·.isEmpty) =
      (splitOn '/' cs).filter (!·.isEmpty) := by
    rw [hcs, ← List.nil_append ('/' :: cs), Text.splitOn_append_cons List.not_mem_nil,
      List.filter_cons_of_neg (by simp)]
  have hslash : ∀ piece : List Char, ("/" ++ String.ofList piece).toList = '/' :: piece := by
    intro piece
    simp
  rw [map_partText_of_parse h, String.toList_join, pathPieces, List.flatMap_map, List.flatMap_map,
    hpieces, hcs, ← flatMap_pieces hsingle]
  exact List.flatMap_congr fun piece _ => hslash piece

/-- A pattern is written as it was read, but for one slash at the end. -/
theorem text_of_parse {path : String} {p : Pattern} (h : parse path = .ok p) :
    p.text = dropSlash path := by
  have hjoin := toList_join_partText h
  rw [text]
  by_cases hroot : path = "/"
  · subst hroot
    have hnil : p = [] := by
      have hparts := map_partText_of_parse h
      exact List.map_eq_nil_iff.1 hparts
    rw [hnil]
    rfl
  · have hne : p ≠ [] := by
      rintro rfl
      -- without parts the text would be empty before its last slash
      obtain ⟨cs, hcs⟩ := List.head?_eq_some_iff.1 (head?_of_parse h)
      rw [hcs] at hjoin
      split at hjoin
      · cases cs with
        | nil => exact hroot (String.toList_inj.1 hcs)
        | cons c cs => cases hjoin
      · cases hjoin
    rw [if_neg (by simpa using hne), ← String.toList_inj, hjoin, dropSlash]
    by_cases hend : path.toList.getLast? = some '/'
    · rw [if_pos hend, if_pos ⟨hend, hroot⟩, String.toList_ofList]
    · rw [if_neg hend, if_neg fun hboth => hend hboth.1]

/-- What was read is read again from a text that differs in one slash at the end. -/
theorem parse_dropSlash {path : String} {p : Pattern} (h : parse path = .ok p) :
    parse (dropSlash path) = .ok p := by
  rw [dropSlash]
  split
  · next hslash =>
    obtain ⟨hend, hroot⟩ := hslash
    obtain ⟨front, hfront⟩ := List.getLast?_eq_some_iff.1 hend
    have hpath : path = String.ofList front ++ "/" := by
      rw [← String.toList_inj, hfront, Text.toList_append_slash, String.toList_ofList]
    have hne : front ≠ [] := by
      rintro rfl
      exact hroot hpath
    have hrooted := head?_of_parse h
    have hsingle := not_hasDoubledSlash_of_parse h
    rw [hfront, List.dropLast_concat]
    rw [parse_eq_ofPieces hrooted hsingle] at h
    rw [parse_eq_ofPieces]
    · rw [← h, hfront, Text.splitOn_append_last _ List.not_mem_nil, String.toList_ofList,
        List.filter_append]
      simp
    · rw [hfront, List.head?_append_of_ne_nil _ hne] at hrooted
      rwa [String.toList_ofList]
    · intro hd
      rw [hpath] at hsingle
      exact hsingle (hd.append "/")
  · exact h

/-- Reading and writing patterns. The texts that can be read are those of the grammar. What is read
from a text is written as this text without one slash at its end, and this is read as the same
pattern. Two texts are read as the same pattern exactly if they differ at most in one slash at the
end. -/
theorem parse_text (path : String) :
    ((∃ p, parse path = .ok p) ↔ Grammatical path) ∧
    ∀ p, parse path = .ok p → p.text = dropSlash path ∧ parse p.text = .ok p ∧
      ∀ other q, parse other = .ok q →
        (q = p ↔ other = path ∨ other = path ++ "/" ∨ path = other ++ "/") := by
  refine ⟨parse_ok_iff path, fun p hp => ?_⟩
  have htext := text_of_parse hp
  refine ⟨htext, htext ▸ parse_dropSlash hp, fun other q hq => ⟨?_, ?_⟩⟩
  · rintro rfl
    have hsame : dropSlash other = dropSlash path := (text_of_parse hq).symm.trans htext
    rcases Text.dropSlash_eq_or path with hpath | hpath
    · rcases Text.dropSlash_eq_or other with hother | hother
      · exact .inl (hother.trans (hsame.trans hpath.symm))
      · exact .inr (.inl (by rw [hother, hsame, ← hpath]))
    · rcases Text.dropSlash_eq_or other with hother | hother
      · exact .inr (.inr (by rw [hpath, ← hsame, ← hother]))
      · exact .inl (by rw [hother, hsame, ← hpath])
  · have hslash : ∀ {s t : String} {a b : Pattern}, parse s = .ok a → parse t = .ok b →
        t = s ++ "/" → b = a := by
      rintro s _ a b ha hb rfl
      have hend : s.toList.getLast? ≠ some '/' := by
        intro he
        obtain ⟨front, hfront⟩ := List.getLast?_eq_some_iff.1 he
        refine not_hasDoubledSlash_of_parse hb ?_
        rw [HasDoubledSlash, Text.toList_append_slash, hfront, List.append_assoc]
        exact (List.suffix_append _ _).isInfix
      rw [parse_append_slash ha hend] at hb
      exact (Except.ok.inj hb).symm
    rintro (rfl | hother | hpath)
    · exact Except.ok.inj (hq.symm.trans hp)
    · exact hslash hp hq hother
    · exact (hslash hq hp hpath).symm

-- What the grammar keeps out, in the order of its conditions, and a text that it lets in.
example :
    ¬ Grammatical "a" ∧ ¬ Grammatical "/a//b" ∧ ¬ Grammatical "/:" ∧ ¬ Grammatical "/:a/:a" ∧
      ¬ Grammatical "/*a" ∧ ¬ Grammatical "/*/a" ∧ Grammatical "/a/:b/*/" := by
  decide +kernel

end Pattern

end Switchboard
