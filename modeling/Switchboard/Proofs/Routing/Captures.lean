import Switchboard.Proofs.Routing.Resolution

set_option autoImplicit false

/-! # The names under which patterns capture

A pattern captures under the names of its parameters, and under `*` if it ends in a wildcard. No two
parameters of a pattern have the same name, but one of them may be called `*`. So the names are
distinct unless a pattern has both (`Pattern.nodup_captureNames_iff`), and then what a router finds
binds each part to its own value. In the other case the value of that one parameter is lost
(`Router.params_of_found`).
-/

namespace Switchboard

namespace Pattern

/-! ## Names -/

/-- The name under which a part captures. -/
def captureName? : Part → Option String
  | .fixed _ => none
  | .param name => some name
  | .wildcard => some wildcardName

/-- The names under which the parts of a pattern capture, in order. -/
def captureNames (p : Pattern) : List String := p.filterMap captureName?

/-- A parameter has the name that belongs to the wildcard at the end. -/
def NamesWildcard (p : Pattern) : Prop := wildcardName ∈ p.paramNames ∧ Part.wildcard ∈ p

theorem map_fst_captures (path : String) (p : Pattern) :
    (p.captures path).map Prod.fst = p.captureNames := by
  suffices h : ∀ i, ((p.zipIdx i).filterMap fun part => capture? path part.2 part.1).map Prod.fst =
      p.captureNames from h 0
  induction p with
  | nil => exact fun _ => rfl
  | cons a p ih =>
      intro i
      have ih := ih (i + 1)
      rw [captureNames] at ih ⊢
      rw [List.zipIdx_cons, List.filterMap_cons, List.filterMap_cons]
      cases a with
      | fixed text => exact ih
      | param name => exact congrArg (name :: ·) ih
      | wildcard => exact congrArg (wildcardName :: ·) ih

/-- No name is declared twice, nor one of those that are declared already. -/
theorem nodup_paramNames_of_ofPieces {seen : List String} {ps : List (List Char)} {p : Pattern}
    (h : ofPieces seen ps = .ok p) : p.paramNames.Nodup ∧ ∀ name ∈ p.paramNames, name ∉ seen := by
  fun_induction ofPieces seen ps generalizing p with
  | case1 =>
      cases h
      exact ⟨List.nodup_nil, fun _ hname => absurd hname List.not_mem_nil⟩
  | case2 | case3 => cases h
  | case4 seen chars rest =>
      rename_i name _ hnew ih
      obtain ⟨q, hq, rfl⟩ := eq_ok_of_map h
      obtain ⟨hnodup, hseen⟩ := ih hq
      have hnames : paramNames (.param name :: q) = name :: paramNames q := rfl
      rw [hnames, List.nodup_cons, List.forall_mem_cons]
      refine ⟨⟨fun hmem => hseen name hmem List.mem_cons_self, hnodup⟩, hnew, ?_⟩
      intro other hother hin
      exact hseen other hother (List.mem_cons_of_mem name hin)
  | case5 | case6 => cases h
  | case7 =>
      cases h
      exact ⟨List.nodup_nil, fun _ hname => absurd hname List.not_mem_nil⟩
  | case8 seen text rest _ _ ih =>
      obtain ⟨q, hq, rfl⟩ := eq_ok_of_map h
      have hnames : paramNames (.fixed (String.ofList text) :: q) = paramNames q := rfl
      rw [hnames]
      exact ih hq

theorem nodup_paramNames_of_parse {path : String} {p : Pattern} (h : parse path = .ok p) :
    p.paramNames.Nodup := by
  simp only [parse] at h
  split at h
  · cases h
  · split at h
    · cases h
    · exact (nodup_paramNames_of_ofPieces h).1

theorem captureNames_eq {p : Pattern} (h : p.WildcardLast) :
    p.captureNames = p.paramNames ++ if Part.wildcard ∈ p then [wildcardName] else [] := by
  induction p with
  | nil => rfl
  | cons a p ih =>
      cases a with
      | fixed text =>
          have hnames : captureNames (.fixed text :: p) = captureNames p := rfl
          rw [hnames, ih h]
          simp [paramNames]
      | param name =>
          have hnames : captureNames (.param name :: p) = name :: captureNames p := rfl
          rw [hnames, ih h]
          simp [paramNames]
      | wildcard =>
          obtain rfl : p = [] := h
          rfl

/-- The names under which a pattern captures are distinct, unless a parameter has the name of the
wildcard. -/
theorem nodup_captureNames_iff {path : String} {p : Pattern} (h : parse path = .ok p) :
    p.captureNames.Nodup ↔ ¬ p.NamesWildcard := by
  rw [captureNames_eq (wildcardLast_of_parse h), NamesWildcard]
  have hparams := nodup_paramNames_of_parse h
  by_cases hw : Part.wildcard ∈ p
  · simp only [hw, if_true, and_true]
    rw [List.nodup_append]
    refine ⟨fun h hmem => h.2.2 _ hmem _ (List.mem_singleton_self _) rfl, fun h => ?_⟩
    refine ⟨hparams, List.nodup_singleton _, ?_⟩
    rintro name hname other hother rfl
    exact h (List.mem_singleton.1 hother ▸ hname)
  · simp [hw, hparams]

end Pattern

/-! ## Bindings -/

section Binds

variable {params : Params} {captures : List (String × String)}

theorem lookup_eq_some_iff_mem {l : List (String × String)} (h : (l.map Prod.fst).Nodup)
    {name value : String} : List.lookup name l = some value ↔ (name, value) ∈ l := by
  induction l with
  | nil => simp
  | cons p l ih =>
      obtain ⟨key, v⟩ := p
      obtain ⟨hkey, hl⟩ := List.nodup_cons.1 h
      rw [List.lookup_cons, List.mem_cons]
      by_cases heq : name = key
      · subst heq
        have hrest : (name, value) ∉ l := fun hmem => hkey (List.mem_map.2 ⟨_, hmem, rfl⟩)
        simp [hrest, eq_comm]
      · have hb : (name == key) = false := by simpa using heq
        simp [hb, heq, ih hl]

/-- If no two captures have the same name, all of them are bound. -/
theorem Binds.perm (h : Binds params captures) (hnames : (captures.map Prod.fst).Nodup) :
    params.Perm captures := by
  have hdistinct : params.Distinct := h.ascending.distinct
  have hreverse : (captures.reverse.map Prod.fst).Nodup := by
    rw [List.map_reverse, List.nodup_reverse]
    exact hnames
  rw [List.perm_ext_iff_of_nodup (List.Nodup.of_map _ hdistinct) (List.Nodup.of_map _ hnames)]
  rintro ⟨name, value⟩
  rw [← hdistinct.value?_eq_some_iff, h.value, lookup_eq_some_iff_mem hreverse,
    List.mem_reverse]

/-- A capture does not count if a later one has its name. -/
theorem Binds.of_overridden {front back : List (String × String)} {name value : String}
    (h : Binds params (front ++ (name, value) :: back)) (hlater : name ∈ back.map Prod.fst) :
    Binds params (front ++ back) := by
  refine ⟨h.ascending, fun key => ?_⟩
  rw [h.value, List.reverse_append, List.reverse_cons, List.append_assoc, List.singleton_append,
    List.reverse_append, List.lookup_append, List.lookup_append, List.lookup_cons]
  by_cases heq : key = name
  · -- the later capture of that name is found first in both
    have hfound : (List.lookup key back.reverse).isSome := by
      obtain ⟨p, hp, hname⟩ := List.mem_map.1 hlater
      rw [List.lookup_isSome_iff]
      exact ⟨p, List.mem_reverse.2 hp, by simp [heq, hname]⟩
    obtain ⟨v, hv⟩ := Option.isSome_iff_exists.1 hfound
    rw [hv, Option.some_or, Option.some_or]
  · have hb : (key == name) = false := by simpa using heq
    rw [hb]

end Binds

namespace Pattern

theorem WildcardLast.exists_front {p : Pattern} (h : p.WildcardLast) (hw : Part.wildcard ∈ p) :
    ∃ front, p = front ++ [.wildcard] := by
  induction p with
  | nil => cases hw
  | cons a p ih =>
      cases a with
      | wildcard =>
          obtain rfl : p = [] := h
          exact ⟨[], rfl⟩
      | fixed text | param name =>
          have hrest : Part.wildcard ∈ p := by simpa using hw
          obtain ⟨front, rfl⟩ := ih h hrest
          exact ⟨_ :: front, rfl⟩

/-- If a parameter has the name of the wildcard, two parts capture under this name: that parameter
and, as the last of all, the wildcard. Without the first of them, the names are those of the
parameters. -/
theorem NamesWildcard.captures_eq {p : Pattern} (h : p.NamesWildcard) (hp : p.WildcardLast)
    (path : String) :
    ∃ front lost back kept, p.captures path =
        front ++ (wildcardName, lost) :: (back ++ [(wildcardName, kept)]) ∧
      ((front ++ (back ++ [(wildcardName, kept)])).map Prod.fst).Perm p.paramNames := by
  have hnames := map_fst_captures path p
  rw [captureNames_eq hp, if_pos h.2] at hnames
  obtain ⟨hparam, hw⟩ := h
  obtain ⟨init, rfl⟩ := hp.exists_front hw
  have hname : wildcardName ∈ (captures path init).map Prod.fst := by
    rw [map_fst_captures, captureNames, List.mem_filterMap]
    rw [paramNames, List.filterMap_append, List.mem_append, List.mem_filterMap] at hparam
    rcases hparam with ⟨part, hpart, hpartName⟩ | hnone
    · refine ⟨part, hpart, ?_⟩
      cases part with
      | param name => exact hpartName
      | fixed | wildcard => cases hpartName
    · cases hnone
  obtain ⟨⟨_, lost⟩, hmem, rfl⟩ := List.mem_map.1 hname
  obtain ⟨front, back, hsplit⟩ := List.append_of_mem hmem
  rw [captures_append_wildcard, hsplit, List.append_assoc, List.cons_append] at hnames ⊢
  refine ⟨front, lost, back, _, rfl, ?_⟩
  have hall : (front.map Prod.fst ++ wildcardName :: back.map Prod.fst) ++ [wildcardName] =
      paramNames (init ++ [.wildcard]) ++ [wildcardName] := by
    rw [← hnames]
    simp
  rw [← List.append_cancel_right hall, List.map_append, List.map_append]
  exact (List.perm_append_singleton _ _).append_left _

end Pattern

namespace Router

variable {H : Type}

/-- The pattern of an entry that was taken could be read. -/
theorem exists_parse_of_mem_taken {r : Router H} {l : List (Registration H)} {e : Entry H}
    (h : e ∈ r.taken l) : ∃ g ∈ l, Pattern.parse g.path = .ok e.pattern := by
  induction l generalizing r with
  | nil => cases h
  | cons g l ih =>
      have hrest : ∀ {r' : Router H}, e ∈ r'.taken l →
          ∃ g' ∈ g :: l, Pattern.parse g'.path = .ok e.pattern := by
        intro r' he
        obtain ⟨g', hg', hp⟩ := ih he
        exact ⟨g', List.mem_cons_of_mem g hg', hp⟩
      rw [taken] at h
      split at h
      · next p _ hp =>
        rcases List.mem_cons.1 h with rfl | h
        · exact ⟨g, List.mem_cons_self, hp⟩
        · exact hrest h
      · exact hrest h

/-- The names under which a pattern captures are those of its parameters, each of which it declares
once, and that of the wildcard at its end. They are distinct unless a parameter has the name of the
wildcard. What a router finds is the value of the best pattern. If the names of this pattern are
distinct, there is exactly one parameter for each part that captures, with the value of this part.
If not, the value of one parameter is lost, the one that has the name of the wildcard, and all
others are there. -/
theorem params_of_found (l : List (Registration H)) :
    (∀ path p, Pattern.parse path = .ok p → p.paramNames.Nodup ∧
      (p.captureNames.Nodup ↔ ¬ p.NamesWildcard)) ∧
    ∀ method path value params, ((empty : Router H).run l).find method path = .found value params →
      ∃ e, Best ((empty : Router H).taken l) method path e ∧ e.value = value ∧
        (e.pattern.captures path).map Prod.fst = e.pattern.captureNames ∧
        (¬ e.pattern.NamesWildcard → params.Perm (e.pattern.captures path)) ∧
        (e.pattern.NamesWildcard → ∃ front lost back kept,
          e.pattern.captures path = front ++ (Pattern.wildcardName, lost) ::
            (back ++ [(Pattern.wildcardName, kept)]) ∧
          params.Perm (front ++ (back ++ [(Pattern.wildcardName, kept)]))) := by
  refine ⟨fun path p hp =>
    ⟨Pattern.nodup_paramNames_of_parse hp, Pattern.nodup_captureNames_iff hp⟩, ?_⟩
  intro method path value params hfound
  have hres := ((holds_empty (H := H)).run l).resolves method path
  rw [List.nil_append, hfound] at hres
  cases hres with
  | found he hbinds =>
      rename_i e
      obtain ⟨g, -, hp⟩ := exists_parse_of_mem_taken he.mem
      have hnames := Pattern.map_fst_captures path e.pattern
      refine ⟨e, he, rfl, hnames, fun hdistinct => ?_, fun hsame => ?_⟩
      · rw [← Pattern.nodup_captureNames_iff hp, ← hnames] at hdistinct
        exact hbinds.perm hdistinct
      · have hlast := Pattern.wildcardLast_of_parse hp
        obtain ⟨front, lost, back, kept, hcaptures, hperm⟩ := hsame.captures_eq hlast path
        refine ⟨front, lost, back, kept, hcaptures, ?_⟩
        rw [hcaptures] at hbinds
        refine (hbinds.of_overridden ?_).perm ?_
        · simp
        · exact hperm.nodup_iff.2 (Pattern.nodup_paramNames_of_parse hp)

/-- A parameter with the name of the wildcard before a wildcard. -/
theorem captures_collide :
    Pattern.parse "/:*/*" = .ok [.param "*", .wildcard] ∧
      Pattern.captureNames [.param "*", .wildcard] = ["*", "*"] ∧
      ((empty : Router Nat).run [⟨.get, "/:*/*", 1⟩]).find .get "/a/b" = .found 1 [("*", "b")] := by
  exact ⟨by decide, by decide, by decide +kernel⟩

end Router

end Switchboard
