import Switchboard.Proofs.Text.Utf8
import Switchboard.Text.Casing

set_option autoImplicit false

/-! # Small letters stay as they are

A text in small letters has none left to change: `Text.lowercase_lowercase`. The table of capitals
is checked run by run, since each of its runs says at once where all its small letters lie.
-/

namespace Switchboard.Text

namespace CapitalRun

/-- The small letter of the first capital. -/
def firstSmall (r : CapitalRun) : Nat := (r.first + r.shift).toNat

/-- The small letter of the last capital. -/
def lastSmall (r : CapitalRun) : Nat := (r.last + r.shift).toNat

/-- No small letter of the run is a capital of the other one: they lie apart, or are every second
number in both, and one starts at an even number and the other at an odd one. -/
def avoids (r r' : CapitalRun) : Bool :=
  Nat.blt r.lastSmall r'.first || Nat.blt r'.last r.firstSmall ||
    ((r.step == 2 || r.first == r.last) && r'.step == 2 && (r.firstSmall + r'.first) % 2 == 1)

/-- All small letters of the run are characters. -/
def valid (r : CapitalRun) : Bool :=
  Nat.blt r.lastSmall 0xD800 || Nat.blt 0xDFFF r.firstSmall && Nat.blt r.lastSmall 0x110000

variable {r r' : CapitalRun} {n : Nat}

theorem holds_iff : r.holds n ↔ r.first ≤ n ∧ n ≤ r.last ∧ (n - r.first) % r.step = 0 := by
  simp [holds, and_assoc]

/-- A small letter of the run lies between the first one and the last one. -/
theorem small_bounds (h : r.holds n) :
    r.firstSmall ≤ (n + r.shift).toNat ∧ (n + r.shift).toNat ≤ r.lastSmall := by
  obtain ⟨hfirst, hlast, -⟩ := holds_iff.1 h
  unfold firstSmall lastSmall
  omega

theorem not_holds_of_avoids (havoids : r.avoids r') (hpos : 0 < r.firstSmall) (h : r.holds n) :
    ¬ r'.holds (n + r.shift).toNat := by
  intro h'
  obtain ⟨hlo, hhi⟩ := small_bounds h
  obtain ⟨hfirst, hlast, hstep⟩ := holds_iff.1 h
  obtain ⟨hfirst', hlast', hstep'⟩ := holds_iff.1 h'
  simp only [avoids, Bool.or_eq_true, Bool.and_eq_true, beq_iff_eq, Nat.blt_eq] at havoids
  obtain (hbelow | habove) | ⟨⟨hsecond, hsecond'⟩, hodd⟩ := havoids
  · omega
  · omega
  · rw [hsecond'] at hstep'
    have hsmall : r.firstSmall = (r.first + r.shift).toNat := rfl
    rcases hsecond with htwo | hone
    · rw [htwo] at hstep
      omega
    · omega

end CapitalRun

/-- The only capital with more than one small letter, as a run of its own. -/
def dottedRun : CapitalRun := ⟨0x130, 0x130, 1, 0⟩

/-- The table of capitals leads out of itself, to characters. -/
theorem capitalRuns_checked : (capitalRuns.all fun r =>
    Nat.blt 0 r.firstSmall && r.valid && (dottedRun :: capitalRuns).all r.avoids) = true := by
  decide +kernel

/-! ## Code points -/

/-- No run holds the code point, and it is not that of the dotted capital either. -/
def IsSmall (n : Nat) : Prop := (∀ r ∈ capitalRuns, ¬ r.holds n) ∧ n ≠ 0x130

instance (n : Nat) : Decidable (IsSmall n) := inferInstanceAs (Decidable (_ ∧ _))

theorem smallLetter_of_isSmall {n : Nat} (h : IsSmall n) : smallLetter n = n := by
  have hnone : capitalRuns.find? (·.holds n) = none := List.find?_eq_none.2 h.1
  rw [smallLetter, hnone]

/-- The small letter of a capital is a character, and small. -/
theorem isSmall_of_holds {r : CapitalRun} {n : Nat} (hr : r ∈ capitalRuns) (h : r.holds n) :
    IsSmall (n + r.shift).toNat ∧ (n + r.shift).toNat.isValidChar := by
  have hchecked := List.all_eq_true.1 capitalRuns_checked r hr
  simp only [List.all_cons, Bool.and_eq_true, List.all_eq_true, Nat.blt_eq] at hchecked
  obtain ⟨⟨hpos, hvalid⟩, hdotted, havoids⟩ := hchecked
  refine ⟨⟨fun r' hr' => ?_, ?_⟩, ?_⟩
  · exact CapitalRun.not_holds_of_avoids (havoids r' hr') hpos h
  · intro he
    refine CapitalRun.not_holds_of_avoids hdotted hpos h ?_
    rw [he]
    rfl
  · obtain ⟨hlo, hhi⟩ := CapitalRun.small_bounds h
    simp only [CapitalRun.valid, Bool.or_eq_true, Bool.and_eq_true, Nat.blt_eq] at hvalid
    unfold Nat.isValidChar
    omega

/-! ## Characters -/

/-- The character is its own small letter. -/
def Settled (c : Char) : Prop := IsSmall c.toNat

theorem Settled.lowerChar {c : Char} (h : Settled c) (before after : List Char) :
    lowerChar before c after = [c] := by
  have hsigma : c ≠ 'Σ' := by
    rintro rfl
    exact absurd (show IsSmall 0x3A3 from h) (by decide +kernel)
  have hdotted : c ≠ 'İ' := by
    rintro rfl
    exact h.2 rfl
  rw [Text.lowerChar, if_neg hsigma, if_neg hdotted, smallLetter_of_isSmall h, Char.ofNat_toNat]

theorem settled_special : ∀ c ∈ ['ς', 'σ', 'i', '\u0307'], Settled c := by
  -- checked as one Boolean, since the instance for `∀ c ∈ l` nests too deep for the kernel
  have hchecked : (['ς', 'σ', 'i', '\u0307'].all fun c => decide (IsSmall c.toNat)) = true := by
    decide +kernel
  intro c hc
  have hsmall : IsSmall c.toNat := of_decide_eq_true (List.all_eq_true.1 hchecked c hc)
  exact hsmall

/-- The small letters of a character are settled, also where a capital has two of them. -/
theorem settled_of_mem_lowerChar {before after : List Char} {c d : Char}
    (h : d ∈ lowerChar before c after) : Settled d := by
  rw [lowerChar] at h
  by_cases hsigma : c = 'Σ'
  · rw [if_pos hsigma] at h
    split at h
    · obtain rfl := List.mem_singleton.1 h
      exact settled_special _ (by simp)
    · obtain rfl := List.mem_singleton.1 h
      exact settled_special _ (by simp)
  · rw [if_neg hsigma] at h
    by_cases hdotted : c = 'İ'
    · rw [if_pos hdotted, List.mem_pair] at h
      rcases h with rfl | rfl
      · exact settled_special _ (by simp)
      · exact settled_special _ (by simp)
    · rw [if_neg hdotted] at h
      obtain rfl := List.mem_singleton.1 h
      rw [smallLetter]
      cases hrun : capitalRuns.find? (·.holds c.toNat) with
      | none =>
          rw [Char.ofNat_toNat]
          refine ⟨List.find?_eq_none.1 hrun, fun he => hdotted ?_⟩
          exact Char.toNat_inj.1 he
      | some r =>
          have hholds : r.holds c.toNat = true := by
            simpa using List.find?_some hrun
          obtain ⟨hsmall, hvalid⟩ := isSmall_of_holds (List.mem_of_find?_eq_some hrun) hholds
          rw [Settled, toNat_ofNat hvalid]
          exact hsmall

/-! ## Texts -/

theorem lowerAfter_of_settled {cs : List Char} (h : ∀ c ∈ cs, Settled c) (before : List Char) :
    lowerAfter before cs = cs := by
  induction cs generalizing before with
  | nil => rfl
  | cons c cs ih =>
      have hc : Settled c := h c List.mem_cons_self
      rw [lowerAfter, hc.lowerChar, ih fun d hd => h d (List.mem_cons_of_mem c hd)]
      rfl

theorem settled_of_mem_lowerAfter {cs before : List Char} {d : Char}
    (h : d ∈ lowerAfter before cs) : Settled d := by
  induction cs generalizing before with
  | nil => cases h
  | cons c cs ih =>
      rw [lowerAfter] at h
      rcases List.mem_append.1 h with hhere | hrest
      · exact settled_of_mem_lowerChar hhere
      · exact ih hrest

/-- A text in small letters is its own text in small letters. -/
@[simp] theorem lowercase_lowercase (s : String) : lowercase (lowercase s) = lowercase s := by
  have hsettled : lowerAfter [] (lowerAfter [] s.toList) = lowerAfter [] s.toList :=
    lowerAfter_of_settled (fun d hd => settled_of_mem_lowerAfter hd) []
  rw [lowercase, lowercase, String.toList_ofList, hsettled]

end Switchboard.Text
