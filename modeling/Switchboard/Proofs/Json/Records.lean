import Mathlib.Data.List.Nodup
import Mathlib.Data.List.Pairwise
import Switchboard.Json.Record
import Switchboard.Proofs.Json.Reading

set_option autoImplicit false

/-! # Reading back records

A `Setting` is a field of a record with a value that is written for it. A written record may be
changed in three ways without being read as another one: its members may be put in another order,
members that say what the record starts from may be left out, and members that are none of its
fields may be added, with any well-formed value (`Varies`, `Reader.reads_of_varies`). The order does
not matter because reading a setting changes its own field only: what is read of one setting is kept
by all others.

A `Form` says how all records of a type are written and read, member by member, and has the laws
that this needs (`Form.document_of_varies`).
-/

namespace Switchboard.Json

/-! ## Variations of a written object -/

/-- A member that has none of the names, in any spelling and with any well-formed value. -/
def Foreign (names : List String) (p : List Char) : Prop :=
  ∃ front body name back cs, p = front ++ '"' :: (body ++ '"' :: (back ++ ':' :: cs)) ∧
    Blanks front ∧ Spells body name ∧ String.ofList name ∉ names ∧ Blanks back ∧
    Derives .element cs

/-- The members of an object. -/
def Value.members : Value → List (String × Value)
  | .object ms => ms
  | _ => []

/-- The text is that of an object `v` with its members in any order, without some that `start` has
as well, and with others that have none of their names. -/
def Varies (v start : Value) (text : String) : Prop :=
  ∃ (kept : List (String × Value)) (extras parts : List (List Char)),
    kept.Sublist v.members ∧ (∀ m ∈ v.members, m ∈ kept ∨ m ∈ start.members) ∧
    (∀ p ∈ extras, Foreign (v.members.map (·.1)) p) ∧
    parts.Perm (kept.map writtenMember ++ extras) ∧
    text = String.ofList ('\x7b' :: [','].intercalate parts ++ ['\x7d'])

namespace Reader

variable {α β : Type}

/-! ## Settings -/

/-- A field of a record with a value that can be read for it, and what is changed in the record by
reading this value. -/
structure Setting (α : Type) where
  field : Field α
  value : Value
  update : α → α
  reads : field.update.Reads value.written update

namespace Setting

def name (s : Setting α) : String := s.field.name

/-- The setting as a member of an object. -/
def member (s : Setting α) : String × Value := (s.name, s.value)

/-- The settings determine a record. -/
structure Determine (settings : List (Setting α)) (c : α) : Prop where
  nodup : (settings.map name).Nodup
  comm : ∀ s ∈ settings, ∀ t ∈ settings, ∀ x, s.update (t.update x) = t.update (s.update x)
  idem : ∀ s ∈ settings, ∀ x, s.update (s.update x) = s.update x
  /-- A record that is as all settings say. -/
  whole : ∀ x, (∀ s ∈ settings, s.update x = x) → x = c

variable {settings ks : List (Setting α)} {c : α}

/-- The record after some settings have been read. -/
def applied (ks : List (Setting α)) (x : α) : α := ks.foldl (fun x s => s.update x) x

/-- A record that is as all settings say is left alone by them. -/
theorem applied_eq_self {x : α} (h : ∀ k ∈ ks, k.update x = x) : applied ks x = x := by
  induction ks with
  | nil => rfl
  | cons k ks ih =>
      obtain ⟨hk, hks⟩ := List.forall_mem_cons.1 h
      rw [applied, List.foldl_cons, hk]
      exact ih hks

theorem Determine.eq_of_name (h : Determine settings c) {s t : Setting α} (hs : s ∈ settings)
    (ht : t ∈ settings) (hname : s.name = t.name) : s = t :=
  List.inj_on_of_nodup_map h.nodup hs ht hname

/-- What a record has of a setting stays when others are read. -/
theorem Determine.update_applied (h : Determine settings c) (hks : ∀ k ∈ ks, k ∈ settings)
    {s : Setting α} (hs : s ∈ settings) {x : α} (hx : s.update x = x) :
    s.update (applied ks x) = applied ks x := by
  induction ks generalizing x with
  | nil => exact hx
  | cons k ks ih =>
      obtain ⟨hk, hks⟩ := List.forall_mem_cons.1 hks
      refine ih hks ?_
      rw [h.comm s hs k hk, hx]

/-- A setting that has been read is kept. -/
theorem Determine.update_applied_of_mem (h : Determine settings c) (hks : ∀ k ∈ ks, k ∈ settings)
    {s : Setting α} (hs : s ∈ ks) (x : α) : s.update (applied ks x) = applied ks x := by
  induction ks generalizing x with
  | nil => cases hs
  | cons k ks ih =>
      obtain ⟨hk, hks'⟩ := List.forall_mem_cons.1 hks
      rcases List.mem_cons.1 hs with rfl | hs
      · exact h.update_applied hks' hk (h.idem s hk x)
      · exact ih hks' hs (k.update x)

/-- The record has been read if all settings have been that it did not start with. -/
theorem Determine.applied_eq (h : Determine settings c) (hks : ∀ k ∈ ks, k ∈ settings) {start : α}
    (hstart : ∀ s ∈ settings, s ∈ ks ∨ s.update start = start) : applied ks start = c := by
  refine h.whole _ fun s hs => ?_
  rcases hstart s hs with hmem | hfixed
  · exact h.update_applied_of_mem hks hmem start
  · exact h.update_applied hks hs hfixed

/-- To read a setting again that a record has changes nothing. -/
theorem Determine.update_self (h : Determine settings c) {s : Setting α} (hs : s ∈ settings) :
    s.update c = c := by
  have hall : applied settings c = c := h.applied_eq (fun _ hk => hk) fun _ hs => .inl hs
  have hkept := h.update_applied_of_mem (fun _ hk => hk) hs c
  rwa [hall] at hkept

end Setting

/-! ## One step of the reader -/

variable {fields : List (Field α)} {seen : List String} {first : Bool} {x : α}
  {cs rest after : List Char} {key : String}

/-- The equation of the reader, without the bounds that show that it ends. -/
theorem recordMembers_eq (fields : List (Field α)) (seen : List String) (first : Bool) (x : α)
    (cs : List Char) :
    recordMembers fields seen first x cs = (nextKey first cs).bind fun
      | (none, rest) => .ok (x, rest)
      | (some key, rest) =>
        match fields.find? (·.name = key) with
        | none => (ignored.afterColon.read rest).bind fun p =>
            recordMembers fields seen false x p.2
        | some f =>
          if key ∈ seen then .error (.duplicateField key)
          else (f.update.afterColon.read rest).bind fun p =>
            recordMembers fields (key :: seen) false (p.1 x) p.2 := by
  rw [recordMembers]
  split
  · next h => simp only [h, Except.bind]
  · next h => simp only [h, Except.bind]
  · next h =>
    split
    · next hfield =>
      split
      · next hread => simp only [h, hfield, hread, Except.bind]
      · next hread => simp only [h, hfield, hread, Except.bind]
    · next hfield =>
      simp only [h, hfield, Except.bind]
      split
      · rfl
      · split
        · next hread => simp only [hread]
        · next hread => simp only [hread]

theorem recordMembers_end (h : nextKey first cs = .ok (none, rest)) :
    recordMembers fields seen first x cs = .ok (x, rest) := by
  rw [recordMembers_eq]
  simp only [h, Except.bind]

/-- A member that is none of the fields changes nothing. -/
theorem recordMembers_ignored (h : nextKey first cs = .ok (some key, rest))
    (hfield : fields.find? (·.name = key) = none)
    (hread : ignored.afterColon.read rest = .ok ((), after)) :
    recordMembers fields seen first x cs = recordMembers fields seen false x after := by
  rw [recordMembers_eq]
  simp only [h, hfield, hread, Except.bind]

/-- A field that has not been read yet is stored. -/
theorem recordMembers_field (h : nextKey first cs = .ok (some key, rest)) {f : Field α}
    (hfield : fields.find? (·.name = key) = some f) (hseen : key ∉ seen) {update : α → α}
    (hread : f.update.afterColon.read rest = .ok (update, after)) :
    recordMembers fields seen first x cs =
      recordMembers fields (key :: seen) false (update x) after := by
  rw [recordMembers_eq]
  simp only [h, hfield, if_neg hseen, hread, Except.bind]

/-! ## Reading the members -/

theorem nextKey_append_blanks {blanks : List Char} (h : Blanks blanks) (first : Bool)
    (cs : List Char) : nextKey first (blanks ++ cs) = nextKey first cs := by
  rw [nextKey, skipBlanks_append h, nextKey]

theorem read_ignored {back : List Char} (hback : Blanks back) (h : Derives .element cs)
    (hrest : NumberEnds rest) :
    ∃ blanks, Blanks blanks ∧ ignored.afterColon.read (back ++ ':' :: (cs ++ rest)) =
      .ok ((), blanks ++ rest) := by
  cases h with
  | @element front v blanks hfront hv hblanks =>
      refine ⟨blanks, hblanks, ?_⟩
      have hskip : skipValue (front ++ (v ++ (blanks ++ rest))) = .ok (blanks ++ rest) := by
        rw [skipValue, skipValueIn_append_blanks hfront]
        exact skipValue_append hv (numberEnds_of_blanks hblanks hrest)
      have happend : front ++ v ++ blanks ++ rest = front ++ (v ++ (blanks ++ rest)) := by simp
      simp only [Reader.afterColon, scanColon_append hback, bind, Except.bind, ignored, happend,
        hskip, Except.map]

/-- The texts are members of a record: its settings `ks`, and others that are none of its fields. -/
inductive Parts (settings : List (Setting α)) : List (List Char) → List (Setting α) → Prop
  | nil : Parts settings [] []
  | setting {s : Setting α} {ps : List (List Char)} {ks : List (Setting α)} : s ∈ settings →
      Parts settings ps ks → Parts settings (writtenMember s.member :: ps) (s :: ks)
  | foreign {p : List Char} {ps : List (List Char)} {ks : List (Setting α)} :
      Foreign (settings.map (·.name)) p → Parts settings ps ks → Parts settings (p :: ps) ks

variable {settings ks : List (Setting α)} {ps : List (List Char)}

theorem find?_field (hnodup : (settings.map Setting.name).Nodup) {s : Setting α}
    (hs : s ∈ settings) : (settings.map (·.field)).find? (·.name = s.name) = some s.field := by
  induction settings with
  | nil => cases hs
  | cons t ts ih =>
      rw [List.map_cons, List.nodup_cons] at hnodup
      rw [List.map_cons, List.find?_cons]
      rcases List.mem_cons.1 hs with rfl | hs
      · have hself : decide (s.field.name = s.name) = true := decide_eq_true rfl
        rw [hself]
      · have hne : decide (t.field.name = s.name) = false :=
          decide_eq_false fun he : t.name = s.name => hnodup.1 (he ▸ List.mem_map_of_mem hs)
        rw [hne]
        exact ih hnodup.2 hs

theorem find?_foreign {key : String} (h : key ∉ settings.map Setting.name) :
    (settings.map (·.field)).find? (·.name = key) = none := by
  rw [List.find?_eq_none]
  intro f hf
  obtain ⟨s, hs, rfl⟩ := List.mem_map.1 hf
  have hne : s.field.name ≠ key := fun he => h (he ▸ List.mem_map_of_mem hs)
  simpa using hne

/-- The members are read up to the end of the object, and the settings among them applied. -/
theorem recordMembers_joined (hnodup : (settings.map Setting.name).Nodup)
    (h : Parts settings ps ks) (hks : (ks.map Setting.name).Nodup)
    (hseen : ∀ k ∈ ks, k.name ∉ seen) {blanks : List Char} (hblanks : Blanks blanks) :
    recordMembers (settings.map (·.field)) seen first x
        (blanks ++ (joined first ps ++ '\x7d' :: rest)) =
      .ok (Setting.applied ks x, '\x7d' :: rest) := by
  induction h generalizing seen first x blanks with
  | nil =>
      have hend := nextKey_end first rest
      rw [← nextKey_append_blanks hblanks] at hend
      exact recordMembers_end hend
  | @setting s ps ks hs _ ih =>
      rw [List.map_cons, List.nodup_cons] at hks
      obtain ⟨hname, hseen⟩ := List.forall_mem_cons.1 hseen
      have hnext := nextKey_writtenMember first s.member (joined false ps ++ '\x7d' :: rest)
      rw [← nextKey_append_blanks hblanks] at hnext
      have hvalue : s.field.update.afterColon.read ([] ++ ':' :: (s.value.written ++
          (joined false ps ++ '\x7d' :: rest))) =
            .ok (s.update, joined false ps ++ '\x7d' :: rest) :=
        s.reads.afterColon blanks_nil (numberEnds_joined ps .object rest)
      -- the name of a setting that comes later is another one
      have hlater : ∀ k ∈ ks, k.name ∉ s.name :: seen := by
        intro k hk hmem
        rcases List.mem_cons.1 hmem with he | hmem
        · exact hks.1 (he ▸ List.mem_map_of_mem hk)
        · exact hseen k hk hmem
      rw [joined, List.append_assoc, List.append_assoc,
        recordMembers_field hnext (find?_field hnodup hs) hname hvalue]
      exact ih hks.2 hlater blanks_nil
  | @foreign p ps ks hp _ ih =>
      obtain ⟨front, body, name, back, cs, rfl, hfront, hname, hforeign, hback, hcs⟩ := hp
      have hnext := nextKey_name first hfront hname
        (back ++ ':' :: (cs ++ (joined false ps ++ '\x7d' :: rest)))
      rw [← nextKey_append_blanks hblanks] at hnext
      obtain ⟨blanks', hblanks', hread⟩ :=
        read_ignored hback hcs (numberEnds_joined ps .object rest)
      have happend : lead first ++ (front ++ '"' :: (body ++ '"' :: (back ++ ':' :: cs)) ++
          joined false ps) ++ '\x7d' :: rest = lead first ++ (front ++ '"' :: (body ++ '"' ::
            (back ++ ':' :: (cs ++ (joined false ps ++ '\x7d' :: rest))))) := by
        simp
      rw [joined, happend, recordMembers_ignored hnext (find?_foreign hforeign) hread]
      exact ih hks hseen hblanks'

/-! ## Whole records -/

/-- The order of the parts may be changed. -/
theorem Parts.perm {ps qs : List (List Char)} (h : Parts settings ps ks) (hperm : ps.Perm qs) :
    ∃ ls, ks.Perm ls ∧ Parts settings qs ls := by
  induction hperm generalizing ks with
  | nil => exact ⟨ks, .refl _, h⟩
  | cons p _ ih =>
      cases h with
      | @setting s _ _ hs h =>
          obtain ⟨ls, hls, h⟩ := ih h
          exact ⟨s :: ls, hls.cons s, .setting hs h⟩
      | foreign hp h =>
          obtain ⟨ls, hls, h⟩ := ih h
          exact ⟨ls, hls, .foreign hp h⟩
  | swap p q _ =>
      cases h with
      | @setting s _ _ hs h =>
          cases h with
          | @setting t _ ls ht h => exact ⟨t :: s :: ls, .swap t s ls, .setting ht (.setting hs h)⟩
          | foreign hp h => exact ⟨_, .refl _, .foreign hp (.setting hs h)⟩
      | foreign hq h =>
          cases h with
          | setting hs h => exact ⟨_, .refl _, .setting hs (.foreign hq h)⟩
          | foreign hp h => exact ⟨_, .refl _, .foreign hp (.foreign hq h)⟩
  | trans _ _ ih ih' =>
      obtain ⟨ls, hls, h⟩ := ih h
      obtain ⟨ls', hls', h⟩ := ih' h
      exact ⟨ls', hls.trans hls', h⟩

theorem parts_append {extras : List (List Char)} (hks : ∀ k ∈ ks, k ∈ settings)
    (hextras : ∀ p ∈ extras, Foreign (settings.map Setting.name) p) :
    Parts settings ((ks.map Setting.member).map writtenMember ++ extras) ks := by
  induction ks with
  | nil =>
      induction extras with
      | nil => exact .nil
      | cons p extras ih =>
          obtain ⟨hp, hextras⟩ := List.forall_mem_cons.1 hextras
          exact .foreign hp (ih hextras)
  | cons k ks ih =>
      obtain ⟨hk, hks⟩ := List.forall_mem_cons.1 hks
      exact .setting hk (ih hks)

/-- A record is read from every variation of its written form, if a setting that is written as what
reading starts from changes nothing there. -/
theorem reads_of_varies {settings : List (Setting α)} {c start : α} {v : Value}
    (h : Setting.Determine settings c)
    (hstart : ∀ s ∈ settings, s.member ∈ v.members → s.update start = start) {text : String}
    (hvaries : Varies (.object (settings.map Setting.member)) v text) (expected : String)
    (defaults : Bool) :
    (record expected defaults (settings.map (·.field)) start).Reads text.toList c := by
  obtain ⟨kept, extras, parts, hkept, hdropped, hextras, hperm, rfl⟩ := hvaries
  obtain ⟨ks, hsub, rfl⟩ := List.sublist_map_iff.1 hkept
  have hks : ∀ k ∈ ks, k ∈ settings := fun k hk => hsub.subset hk
  have hnames : (Value.object (settings.map Setting.member)).members.map (·.1) =
      settings.map Setting.name := by
    rw [Value.members, List.map_map]
    rfl
  rw [hnames] at hextras
  obtain ⟨ls, hls, hparts⟩ := (parts_append hks hextras).perm hperm.symm
  have hmem : ∀ s, s ∈ ls ↔ s ∈ ks := fun s => hls.mem_iff.symm
  -- a setting that was left out is written as what reading starts from
  have hmissing : ∀ s ∈ settings, s ∈ ls ∨ s.update start = start := by
    intro s hs
    rw [hmem]
    rcases hdropped s.member (List.mem_map_of_mem hs) with hin | hin
    · obtain ⟨k, hk, he⟩ := List.mem_map.1 hin
      have hname : k.name = s.name := congrArg Prod.fst he
      exact .inl (h.eq_of_name (hks k hk) hs hname ▸ hk)
    · exact .inr (hstart s hs hin)
  have hnodup : (ls.map Setting.name).Nodup := by
    have hkeptNodup : (ks.map Setting.name).Nodup := h.nodup.sublist (hsub.map _)
    exact (hls.map Setting.name).nodup_iff.1 hkeptNodup
  intro rest _
  have hread : recordMembers (settings.map (·.field)) [] true start
      (joined true parts ++ '\x7d' :: rest) = .ok (Setting.applied ls start, '\x7d' :: rest) :=
    recordMembers_joined h.nodup hparts hnodup (fun _ _ => List.not_mem_nil) blanks_nil
  have happlied : Setting.applied ls start = c :=
    h.applied_eq (fun k hk => hks k ((hmem k).1 hk)) hmissing
  have hbrace : isBlank '\x7b' = false := rfl
  have happend : '\x7b' :: joined true parts ++ ['\x7d'] ++ rest =
      '\x7b' :: (joined true parts ++ '\x7d' :: rest) := by simp
  rw [String.toList_ofList, ← joined_true, happend]
  simp only [record, skipBlanks_cons hbrace, hread, bind, Except.bind, endObject_close, pure,
    Except.pure, happlied]

end Reader

/-- The written form of an object is one of its variations. -/
theorem varies_render (ms : List (String × Value)) (start : Value) :
    Varies (.object ms) start (Value.object ms).render := by
  refine ⟨ms, [], ms.map writtenMember, .refl _, fun m hm => .inl hm,
    fun _ hp => absurd hp List.not_mem_nil, ?_, ?_⟩
  · rw [List.append_nil]
  · rw [Value.render, Value.written, writtenMembers_eq, joined_true]

/-! ## Forms -/

/-- A member of the objects that records of type `γ` are written as, and how it is read into an
`α`. -/
structure Member (γ α : Type) where
  {β : Type}
  name : String
  reader : Reader β
  get : γ → β
  store : β → α → α
  write : β → Value
  reads : ∀ b, reader.Reads (write b).written b
  overwrites : ∀ a b x, store a (store b x) = store a x

namespace Member

variable {γ α : Type}

def field (m : Member γ α) : Reader.Field α := Reader.field m.name m.reader m.store

/-- The member that is written for a record. -/
def setting (m : Member γ α) (c : γ) : Reader.Setting α where
  field := m.field
  value := m.write (m.get c)
  update := m.store (m.get c)
  reads := (m.reads _).map m.store

/-- Records for which the same is written have the same. -/
theorem get_eq {m : Member γ α} {c d : γ} (h : m.write (m.get c) = m.write (m.get d)) :
    m.get c = m.get d := by
  have hc := m.reads (m.get c) [] fun _ h => absurd h (by simp)
  have hd := m.reads (m.get d) [] fun _ h => absurd h (by simp)
  rw [h, hd, Except.ok.injEq, Prod.mk.injEq] at hc
  exact hc.1.symm

/-- Two members are stored in different places. -/
def Apart (p q : Member γ α) : Prop :=
  ∀ a b x, p.store a (q.store b x) = q.store b (p.store a x)

end Member

/-- How records of type `γ` are written, and what is read of them. -/
structure Form (γ α : Type) where
  members : List (Member γ α)
  /-- What reading starts from. -/
  start : α
  /-- What has been read at the end. -/
  result : γ → α
  nodup : (members.map (·.name)).Nodup
  apart : members.Pairwise Member.Apart
  whole : ∀ c x, Reader.Setting.applied (members.map (·.setting c)) x = result c

namespace Form

variable {γ α : Type} (F : Form γ α)

def settings (c : γ) : List (Reader.Setting α) := F.members.map (·.setting c)

/-- The written form of a record. -/
def value (c : γ) : Value := .object ((F.settings c).map Reader.Setting.member)

def reader (expected : String) (defaults : Bool) : Reader α :=
  Reader.record expected defaults (F.members.map (·.field)) F.start

theorem determine (c : γ) : Reader.Setting.Determine (F.settings c) (F.result c) where
  nodup := by
    rw [settings, List.map_map]
    exact F.nodup
  comm := by
    have hcomm : (F.settings c).Pairwise fun s t =>
        ∀ x, s.update (t.update x) = t.update (s.update x) :=
      List.pairwise_map.2 (F.apart.imp fun hapart x => hapart _ _ x)
    have hflip : (F.settings c).Pairwise fun s t =>
        ∀ x, t.update (s.update x) = s.update (t.update x) := hcomm.imp fun h x => (h x).symm
    intro s hs t ht
    exact hcomm.forall_of_forall_of_flip (fun _ _ _ => rfl) hflip hs ht
  idem := by
    refine List.forall_mem_map.2 ?_
    exact fun m _ x => m.overwrites _ _ x
  whole := by
    intro x hx
    rw [← F.whole c x]
    exact (Reader.Setting.applied_eq_self hx).symm

/-- A member that is written as that of another record changes nothing in this one. -/
theorem update_of_written {c d : γ} {s : Reader.Setting α} (hs : s ∈ F.settings c)
    (h : s.member ∈ (F.value d).members) : s.update (F.result d) = F.result d := by
  obtain ⟨m, hm, rfl⟩ := List.mem_map.1 hs
  obtain ⟨t, ht, he⟩ := List.mem_map.1 h
  obtain ⟨m', hm', rfl⟩ := List.mem_map.1 ht
  obtain rfl : m' = m := List.inj_on_of_nodup_map F.nodup hm' hm (congrArg Prod.fst he)
  have hget : m'.get d = m'.get c := Member.get_eq (congrArg Prod.snd he)
  have hself : m'.store (m'.get d) (F.result d) = F.result d := (F.determine d).update_self ht
  rw [hget] at hself
  exact hself

variable {c d : γ} (expected : String) (defaults : Bool)

/-- A record is read from every variation of its written form that leaves out no more than what
reading starts from. -/
theorem document_of_varies (hstart : F.start = F.result d) {text : String}
    (h : Varies (F.value c) (F.value d) text) :
    (F.reader expected defaults).document text = .ok (F.result c) := by
  have hkept : ∀ s ∈ F.settings c, s.member ∈ (F.value d).members →
      s.update F.start = F.start := by
    intro s hs hmem
    rw [hstart]
    exact F.update_of_written hs hmem
  have hreads := (Reader.reads_of_varies (F.determine c) hkept h expected defaults).document
  rw [String.ofList_toList, settings, List.map_map] at hreads
  exact hreads

/-- It is read from its written form, whatever reading starts from. -/
theorem reads_written (c : γ) :
    (F.reader expected defaults).Reads (F.value c).written (F.result c) := by
  have hkept : ∀ s ∈ F.settings c, s.member ∈ (Value.object []).members →
      s.update F.start = F.start := fun _ _ hmem => absurd hmem List.not_mem_nil
  have hvaries := varies_render ((F.settings c).map Reader.Setting.member) (.object [])
  have hreads := Reader.reads_of_varies (F.determine c) hkept hvaries expected defaults
  rw [Value.render, String.toList_ofList, settings, List.map_map] at hreads
  exact hreads

end Form

end Switchboard.Json
