/-!
# Looking up in sorted tables

A table of ranges is sorted by where they start.  The range that a number can belong to is then the
last one that starts at or before it: its *floor* in the table, which is found by halving.
-/

namespace Switchboard.Text

variable {α : Type}

/-- The last of the entries from `lo` up to `hi` that starts at or before `n`, or `best` if none of
them does. -/
def floorWithin (start : α → Nat) (table : Array α) (n : Nat) (best : Option α) (lo hi : Nat) :
    Option α :=
  if lo < hi then
    match table[(lo + hi) / 2]? with
    | none => best
    | some entry =>
      if start entry ≤ n then floorWithin start table n (some entry) ((lo + hi) / 2 + 1) hi
      else floorWithin start table n best lo ((lo + hi) / 2)
  else best
  termination_by hi - lo
  decreasing_by all_goals omega

/-- The last entry of a sorted table that starts at or before `n`. -/
def floor? (start : α → Nat) (table : Array α) (n : Nat) : Option α :=
  floorWithin start table n none 0 table.size

end Switchboard.Text
