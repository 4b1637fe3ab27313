import Switchboard.Text.Blank
import Switchboard.Text.Decimal

/-!
# Trimming

Main results:

* `Text.exists_trim`: what trimming leaves out is white space before and behind.
* `Text.trim_of_blank_around`: text without white space is what is left of it when it has been set
  between white space.
-/

namespace Switchboard.Text

theorem isBlank_of_isDigit {c : Char} (h : isDigit c = true) : isBlank c = false := by
  have hrange : 48 ≤ c.toNat ∧ c.toNat ≤ 57 := by
    simp only [isDigit, Bool.and_eq_true, decide_eq_true_eq] at h
    exact ⟨h.1, h.2⟩
  simp [isBlank]
  omega

/-- What trimming leaves out is white space before and behind. -/
theorem exists_trim (cs : List Char) :
    ∃ before after, cs = before ++ trim cs ++ after ∧ (∀ c ∈ before, isBlank c = true) ∧
      ∀ c ∈ after, isBlank c = true := by
  have hblank (cs : List Char) : ∀ c ∈ cs.takeWhile isBlank, isBlank c = true := by
    intro c hc
    exact List.all_eq_true.mp List.all_takeWhile c hc
  have hend (cs : List Char) : cs = trimEnd cs ++ (cs.reverse.takeWhile isBlank).reverse := by
    rw [trimEnd, ← List.reverse_append, List.takeWhile_append_dropWhile, List.reverse_reverse]
  refine ⟨cs.takeWhile isBlank, ((cs.dropWhile isBlank).reverse.takeWhile isBlank).reverse, ?_,
    hblank cs, fun c hc => hblank _ c (List.mem_reverse.mp hc)⟩
  rw [List.append_assoc, trim, ← hend, List.takeWhile_append_dropWhile]

/-- Text without white space in it is what trimming leaves of it. -/
theorem trim_of_blank_around {before core after : List Char}
    (hbefore : ∀ c ∈ before, isBlank c = true) (hcore : ∀ c ∈ core, isBlank c = false)
    (hafter : ∀ c ∈ after, isBlank c = true) : trim (before ++ core ++ after) = core := by
  have hdrop {blanks text : List Char} (hblanks : ∀ c ∈ blanks, isBlank c = true) :
      (blanks ++ text).dropWhile isBlank = text.dropWhile isBlank :=
    List.dropWhile_append_of_pos hblanks
  have hkeep {text : List Char} (htext : ∀ c ∈ text, isBlank c = false) :
      text.dropWhile isBlank = text := by
    cases text with
    | nil => rfl
    | cons c rest =>
      have hc := htext c List.mem_cons_self
      rw [List.dropWhile_cons_of_neg (by simp [hc])]
  have hreverse : ∀ c ∈ core.reverse, isBlank c = false := by
    intro c hc
    exact hcore c (List.mem_reverse.mp hc)
  rw [trim, List.append_assoc, hdrop hbefore]
  cases core with
  | nil =>
    rw [List.nil_append, ← List.append_nil after, hdrop hafter]
    rfl
  | cons first rest =>
    have hfirst := hcore first List.mem_cons_self
    rw [List.cons_append, List.dropWhile_cons_of_neg (by simp [hfirst]), ← List.cons_append, trimEnd,
      List.reverse_append, hdrop fun c hc => hafter c (List.mem_reverse.mp hc), hkeep hreverse,
      List.reverse_reverse]

end Switchboard.Text
