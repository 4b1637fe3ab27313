/-!
# Numbers as digits

A number in some base is a list of digits, most significant first.  Where only small numbers count,
reading stops at the digit that makes the number too large, however many digits follow.

Main result: `ofDigitsBelow?_eq`, stopping early finds the same numbers.
-/

namespace Switchboard.Text

/-- The number that digits denote. -/
def ofDigits (base : Nat) (digits : List Nat) : Nat :=
  digits.foldl (fun n d => n * base + d) 0

/-- The number with one more digit, if it is below `bound`. -/
def appendDigit? (base bound n d : Nat) : Option Nat :=
  if n * base + d < bound then some (n * base + d) else none

/-- The number that digits denote, if it is below `bound`. -/
def ofDigitsBelow? (base bound : Nat) (digits : List Nat) : Option Nat :=
  digits.foldlM (appendDigit? base bound) 0

/-- More digits make no number smaller. -/
theorem le_foldl_digits {base : Nat} (hbase : 0 < base) (n : Nat) (digits : List Nat) :
    n ≤ digits.foldl (fun n d => n * base + d) n := by
  induction digits generalizing n with
  | nil => exact Nat.le_refl n
  | cons d rest ih =>
    exact Nat.le_trans (Nat.le_trans (Nat.le_mul_of_pos_right n hbase) (Nat.le_add_right _ d))
      (ih (n * base + d))

theorem foldlM_appendDigit? {base bound : Nat} (hbase : 0 < base) {n : Nat} (h : n < bound)
    (digits : List Nat) :
    digits.foldlM (appendDigit? base bound) n =
      (some (digits.foldl (fun n d => n * base + d) n)).filter (· < bound) := by
  induction digits generalizing n with
  | nil => simp [Option.filter_some, h]
  | cons d rest ih =>
    by_cases hd : n * base + d < bound
    · simpa [appendDigit?, hd] using ih hd
    · have := le_foldl_digits hbase (n * base + d) rest
      simp only [List.foldlM_cons, appendDigit?, hd, List.foldl_cons, Option.filter_some]
      simp
      omega

/-- Reading that stops early finds the number that the digits denote, if it is below `bound`. -/
theorem ofDigitsBelow?_eq {base bound : Nat} (hbase : 0 < base) (hbound : 0 < bound)
    (digits : List Nat) :
    ofDigitsBelow? base bound digits = (some (ofDigits base digits)).filter (· < bound) :=
  foldlM_appendDigit? hbase hbound digits

end Switchboard.Text
