import Mathlib.Data.List.Chain
import Switchboard.Text.Floor

/-!
# What is found in sorted tables

Halving finds the last of the entries that do not start later.  In a table of ranges that lie one behind
the other this is the range that holds the number, if one does.

Main results: `Text.floor?_eq_getLast?`, and `Text.AreApart.of_floor?` and
`Text.AreApart.floor?_eq_some` for tables of ranges.
-/

namespace Switchboard.Text

variable {α : Type}

/-- In a sorted table, an entry stands among the first ones that satisfy a condition as soon as it
satisfies it itself, if the condition passes on to earlier entries. -/
theorem lt_length_takeWhile_iff {p : α → Bool} {entries : List α}
    (passes : entries.Pairwise fun a b => p b → p a) {i : Nat} (h : i < entries.length) :
    i < (entries.takeWhile p).length ↔ p entries[i] := by
  induction entries generalizing i with
  | nil => simp at h
  | cons a rest ih =>
    have ⟨head, tail⟩ := List.pairwise_cons.mp passes
    cases i with
    | zero => by_cases ha : p a <;> simp [ha]
    | succ i =>
      have hi : i < rest.length := by simpa using h
      by_cases ha : p a
      · simpa [List.takeWhile_cons, ha] using ih tail hi
      · have := head rest[i] (List.getElem_mem hi)
        simpa [List.takeWhile_cons, ha] using mt this ha

/-- Halving finds the last of the first entries that satisfy the condition, as long as it looks where
these entries end. -/
theorem floorWithin_eq_getLast? {start : α → Nat} {table : Array α} {n : Nat}
    (sorted : table.toList.Pairwise fun a b => start a ≤ start b) {best : Option α} {lo hi : Nat}
    (hbest : best = (table.toList.take lo).getLast?)
    (hlo : lo ≤ (table.toList.takeWhile (start · ≤ n)).length)
    (hhi : (table.toList.takeWhile (start · ≤ n)).length ≤ hi) (hsize : hi ≤ table.size) :
    floorWithin start table n best lo hi = (table.toList.takeWhile (start · ≤ n)).getLast? := by
  have passes : table.toList.Pairwise fun a b => decide (start b ≤ n) → decide (start a ≤ n) :=
    sorted.imp fun h hb => by simp only [decide_eq_true_eq] at hb ⊢; omega
  fun_induction floorWithin start table n best lo hi with
  | case1 best lo hi hlt hnone =>
    have := Array.getElem?_eq_none_iff.mp hnone
    omega
  | case2 best lo hi hlt entry hentry hle ih =>
    obtain ⟨hmid, rfl⟩ := Array.getElem?_eq_some_iff.mp hentry
    have hin : (lo + hi) / 2 < table.toList.length := by simpa using hmid
    have : (lo + hi) / 2 < (table.toList.takeWhile (start · ≤ n)).length := by
      rw [lt_length_takeWhile_iff passes hin]
      simpa using hle
    exact ih (by simp [List.getLast?_take, hmid]) this hhi hsize
  | case3 best lo hi hlt entry hentry hgt ih =>
    obtain ⟨hmid, rfl⟩ := Array.getElem?_eq_some_iff.mp hentry
    have hin : (lo + hi) / 2 < table.toList.length := by simpa using hmid
    have : ¬ (lo + hi) / 2 < (table.toList.takeWhile (start · ≤ n)).length := by
      rw [lt_length_takeWhile_iff passes hin]
      simpa using hgt
    exact ih hbest hlo (by omega) (by omega)
  | case4 best lo hi hge =>
    have h : lo = (table.toList.takeWhile (start · ≤ n)).length := by omega
    have cut : (table.toList.takeWhile (start · ≤ n) ++ table.toList.dropWhile (start · ≤ n)).take
        (table.toList.takeWhile (start · ≤ n)).length = table.toList.takeWhile (start · ≤ n) :=
      List.take_left
    rw [List.takeWhile_append_dropWhile] at cut
    rw [hbest, h, cut]

/-- In a sorted table, the floor of a number is the last of the entries that do not start after
it. -/
theorem floor?_eq_getLast? {start : α → Nat} {table : Array α} {n : Nat}
    (sorted : table.toList.Pairwise fun a b => start a ≤ start b) :
    floor? start table n = (table.toList.takeWhile (start · ≤ n)).getLast? :=
  floorWithin_eq_getLast? sorted (by simp) (Nat.zero_le _)
    (Nat.le_trans (List.takeWhile_sublist _).length_le (Nat.le_of_eq Array.length_toList))
    (Nat.le_refl _)

-- ---------------------------------------------------------------------------
-- Ranges
-- ---------------------------------------------------------------------------

/-- Ranges that lie one behind the other. -/
def AreApart (start stop : α → Nat) (table : Array α) : Prop :=
  table.toList.IsChain fun a b => start a ≤ stop a ∧ stop a < start b

instance (start stop : α → Nat) (table : Array α) : Decidable (AreApart start stop table) :=
  inferInstanceAs (Decidable (List.IsChain _ _))

section Ranges

variable {start stop : α → Nat} {table : Array α} {n : Nat} {entry : α}

theorem AreApart.pairwise (h : AreApart start stop table) :
    table.toList.Pairwise fun a b => start a ≤ stop a ∧ stop a < start b := by
  have htrans : Trans (fun a b => start a ≤ stop a ∧ stop a < start b)
      (fun a b => start a ≤ stop a ∧ stop a < start b)
      (fun a b => start a ≤ stop a ∧ stop a < start b) :=
    ⟨fun hab hbc => ⟨hab.1, Nat.lt_of_lt_of_le hab.2 (Nat.le_trans hbc.1 (Nat.le_of_lt hbc.2))⟩⟩
  exact List.IsChain.pairwise h

theorem AreApart.sorted (h : AreApart start stop table) :
    table.toList.Pairwise fun a b => start a ≤ start b :=
  h.pairwise.imp fun hab => Nat.le_trans hab.1 (Nat.le_of_lt hab.2)

/-- The floor of a number is an entry that does not start after it. -/
theorem AreApart.of_floor? (h : AreApart start stop table) (hfloor : floor? start table n = some entry) :
    entry ∈ table.toList ∧ start entry ≤ n := by
  rw [floor?_eq_getLast? h.sorted] at hfloor
  have hmem := List.mem_of_getLast? hfloor
  have hstart := List.all_eq_true.mp List.all_takeWhile entry hmem
  exact ⟨(List.takeWhile_sublist _).subset hmem, of_decide_eq_true hstart⟩

/-- The range that holds a number is its floor. -/
theorem AreApart.floor?_eq_some (h : AreApart start stop table) (hmem : entry ∈ table.toList)
    (hstart : start entry ≤ n) (hstop : n ≤ stop entry) : floor? start table n = some entry := by
  have hpairwise := h.pairwise
  rw [floor?_eq_getLast? h.sorted]
  -- the ranges in front of this one start earlier, and those behind it later
  obtain ⟨front, behind, hsplit⟩ := List.append_of_mem hmem
  rw [hsplit] at hpairwise ⊢
  obtain ⟨-, hrest, hfront⟩ := List.pairwise_append.mp hpairwise
  have hearlier : ∀ a ∈ front, decide (start a ≤ n) = true := by
    intro a ha
    obtain ⟨hlength, hbefore⟩ := hfront a ha entry List.mem_cons_self
    exact decide_eq_true (by omega)
  have hlater : behind.takeWhile (start · ≤ n) = [] := by
    cases behind with
    | nil => rfl
    | cons next rest =>
      have hnext := (List.rel_of_pairwise_cons hrest List.mem_cons_self).2
      exact List.takeWhile_cons_of_neg (by simp; omega)
  have hthis : (entry :: behind).takeWhile (start · ≤ n) = [entry] := by
    rw [List.takeWhile_cons_of_pos (by simpa using hstart), hlater]
  rw [List.takeWhile_append_of_pos hearlier, hthis, List.getLast?_concat]

end Ranges

end Switchboard.Text
