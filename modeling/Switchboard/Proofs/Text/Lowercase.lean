import Switchboard.Proofs.Text.Floor
import Switchboard.Text.Blank
import Switchboard.Text.Lowercase

/-!
# Lowercase once and for all

A lowercase form has itself as its lowercase form: no run of upper case letters covers a code point to
which some run leads.  The table of runs is checked pair by pair, and what a run leads to is checked to
be a character that is not white space.

Main results:

* `Text.caseRun?_eq_some_iff`: looking up a code point finds the run that covers it.
* `Text.CaseRun.not_covers_lower`: when no letter of a run leads to a letter of another.
* `Text.lowercaseChar_of_mem`: a character of a lowercase form stays as it is.
* `Text.isBlank_of_mem_lowercaseChar`: it is no white space, unless it has been before.
-/

namespace Switchboard.Text

-- ---------------------------------------------------------------------------
-- The table of runs
-- ---------------------------------------------------------------------------

namespace CaseRun

variable {run other : CaseRun} {n : Nat}

theorem covers_iff :
    run.covers n = true ↔ run.first ≤ n ∧ n ≤ run.last ∧ (n - run.first) % run.step = 0 := by
  simp [covers, and_assoc]

/-- Whether the lowercase forms of a run are seen to lie outside another run: before it, behind it, or
between its letters, where every second code point is one. -/
def apart (run other : CaseRun) : Bool :=
  (run.lower run.last).blt other.first || other.last.blt run.target ||
    (other.step == 2 && (run.step == 2 || run.first == run.last) &&
      (run.target + other.first) % 2 == 1)

theorem not_covers_lower (h : run.apart other = true) (hn : run.covers n = true) :
    other.covers (run.lower n) = false := by
  rw [← Bool.not_eq_true, covers_iff]
  rw [covers_iff] at hn
  unfold apart lower at *
  simp only [Bool.or_eq_true, Bool.and_eq_true, Nat.blt_eq, beq_iff_eq] at h
  intro hcovers
  rcases h with (hbefore | hbehind) | ⟨⟨hother, hrun⟩, hodd⟩
  · omega
  · omega
  · -- the forms of the run all have one parity, and the letters of the other run have the other
    rw [hother] at hcovers
    rcases hrun with hstep | hsingle
    · rw [hstep] at hn
      omega
    · omega

end CaseRun

theorem caseRuns_apart :
    (caseRuns.toList.all fun run => caseRuns.toList.all run.apart) = true := by
  decide +kernel

/-- Every run leads to characters that are not white space, and not to the one letter in no run. -/
theorem caseRuns_proper : ∀ run ∈ caseRuns.toList, ∀ k ≤ run.last - run.first,
    (run.target + k).isValidChar ∧ Char.ofNat (run.target + k) ≠ '\u0130' ∧
      isBlank (Char.ofNat (run.target + k)) = false := by
  decide +kernel

/-- The two characters of the longest lowercase form are in no run. -/
theorem caseRuns_dotted : ∀ run ∈ caseRuns.toList,
    run.covers 'i'.toNat = false ∧ run.covers '\u0307'.toNat = false := by
  decide +kernel

-- ---------------------------------------------------------------------------
-- Looking up a run
-- ---------------------------------------------------------------------------

theorem areApart_caseRuns : AreApart CaseRun.first CaseRun.last caseRuns := by
  decide +kernel

/-- The run that is found for a code point is the run that covers it. -/
theorem caseRun?_eq_some_iff {n : Nat} {run : CaseRun} :
    caseRun? n = some run ↔ run ∈ caseRuns.toList ∧ run.covers n = true := by
  rw [caseRun?, Option.filter_eq_some_iff]
  constructor
  · rintro ⟨hfloor, hcovers⟩
    exact ⟨(areApart_caseRuns.of_floor? hfloor).1, hcovers⟩
  · rintro ⟨hmem, hcovers⟩
    obtain ⟨hfirst, hlast, -⟩ := CaseRun.covers_iff.mp hcovers
    exact ⟨areApart_caseRuns.floor?_eq_some hmem hfirst hlast, hcovers⟩

theorem caseRun?_eq_none {n : Nat} (h : ∀ run ∈ caseRuns.toList, run.covers n = false) :
    caseRun? n = none := by
  cases hrun : caseRun? n with
  | none => rfl
  | some run =>
    obtain ⟨hmem, hcovers⟩ := caseRun?_eq_some_iff.mp hrun
    cases (h run hmem).symm.trans hcovers

-- ---------------------------------------------------------------------------
-- Lowercase forms
-- ---------------------------------------------------------------------------

theorem lowercaseChar_of_caseRun?_eq_none {c : Char} (hdotted : c ≠ '\u0130')
    (h : caseRun? c.toNat = none) : lowercaseChar c = [c] := by
  rw [lowercaseChar, if_neg hdotted, h]

/-- A letter of a run leads to one character, with the code point that the run gives. -/
theorem spec_of_caseRun? {c : Char} {run : CaseRun} (h : caseRun? c.toNat = some run) :
    (Char.ofNat (run.lower c.toNat)).toNat = run.lower c.toNat ∧
      Char.ofNat (run.lower c.toNat) ≠ '\u0130' ∧
      isBlank (Char.ofNat (run.lower c.toNat)) = false := by
  obtain ⟨hmem, hcovers⟩ := caseRun?_eq_some_iff.mp h
  obtain ⟨hfirst, hlast, -⟩ := CaseRun.covers_iff.mp hcovers
  obtain ⟨hvalid, hdotted, hblank⟩ :=
    caseRuns_proper run hmem (c.toNat - run.first) (Nat.sub_le_sub_right hlast run.first)
  refine ⟨?_, hdotted, hblank⟩
  show (Char.ofNat (run.target + (c.toNat - run.first))).toNat = run.target + (c.toNat - run.first)
  rw [Char.ofNat, dif_pos hvalid]
  rfl

/-- A character of a lowercase form is its own lowercase form. -/
theorem lowercaseChar_of_mem {c lower : Char} (h : lower ∈ lowercaseChar c) :
    lowercaseChar lower = [lower] := by
  unfold lowercaseChar at h
  split at h
  · -- the one letter with two characters in its form
    have hlower : lower = 'i' ∨ lower = '\u0307' := by simpa using h
    rcases hlower with rfl | rfl
    · exact lowercaseChar_of_caseRun?_eq_none (by decide)
        (caseRun?_eq_none fun run hrun => (caseRuns_dotted run hrun).1)
    · exact lowercaseChar_of_caseRun?_eq_none (by decide)
        (caseRun?_eq_none fun run hrun => (caseRuns_dotted run hrun).2)
  · next hdotted =>
    split at h
    · next run hrun =>
      obtain rfl := List.mem_singleton.mp h
      obtain ⟨hnat, hlower, -⟩ := spec_of_caseRun? hrun
      obtain ⟨hmem, hcovers⟩ := caseRun?_eq_some_iff.mp hrun
      refine lowercaseChar_of_caseRun?_eq_none hlower (caseRun?_eq_none fun other hother => ?_)
      have hapart := List.all_eq_true.mp (List.all_eq_true.mp caseRuns_apart run hmem) other hother
      rw [hnat]
      exact CaseRun.not_covers_lower hapart hcovers
    · next hnone =>
      obtain rfl := List.mem_singleton.mp h
      exact lowercaseChar_of_caseRun?_eq_none hdotted hnone

/-- A character of a lowercase form is no white space, unless the character itself is. -/
theorem isBlank_of_mem_lowercaseChar {c lower : Char} (h : lower ∈ lowercaseChar c)
    (hblank : isBlank c = false) : isBlank lower = false := by
  unfold lowercaseChar at h
  split at h
  · have hlower : lower = 'i' ∨ lower = '\u0307' := by simpa using h
    rcases hlower with rfl | rfl
    · decide
    · decide
  · split at h
    · next run hrun =>
      obtain rfl := List.mem_singleton.mp h
      exact (spec_of_caseRun? hrun).2.2
    · obtain rfl := List.mem_singleton.mp h
      exact hblank

end Switchboard.Text
