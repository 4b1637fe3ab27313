import Switchboard.Text.Digits

/-!
# Decimal numbers

Natural numbers are written in base ten without leading zeros.  Reading takes digits only, leading
zeros allowed, and may be held to numbers below a bound.
-/

namespace Switchboard.Text

/-- Whether a character is one of the ten ASCII digits. -/
def isDigit (c : Char) : Bool :=
  '0' ≤ c && c ≤ '9'

/-- The digit of a value below ten. -/
def decimalDigit (n : Nat) : Char :=
  Char.ofNat ('0'.toNat + n)

/-- The value of a digit. -/
def digitValue (c : Char) : Nat :=
  c.toNat - '0'.toNat

/-- The digits of a number in base ten, without leading zeros. -/
def decimal (n : Nat) : List Char :=
  if n < 10 then [decimalDigit n] else decimal (n / 10) ++ [decimalDigit (n % 10)]

/-- The number that a run of digits denotes. -/
def decimalValue (cs : List Char) : Nat :=
  ofDigits 10 (cs.map digitValue)

/-- Reads a non-empty run of digits. -/
def decimal? (cs : List Char) : Option Nat :=
  if cs ≠ [] ∧ cs.all isDigit then some (decimalValue cs) else none

/-- A number as text. -/
def number (n : Nat) : String :=
  String.ofList (decimal n)

/-- Reads a non-empty run of digits that denotes a value below `bound`. -/
def decimalBelow? (bound : Nat) (cs : List Char) : Option Nat :=
  if cs ≠ [] ∧ cs.all isDigit then ofDigitsBelow? 10 bound (cs.map digitValue) else none

/-- What is read below a bound is what is read without one, if it is below the bound. -/
theorem decimalBelow?_eq_filter {bound : Nat} (h : 0 < bound) (cs : List Char) :
    decimalBelow? bound cs = (decimal? cs).filter (· < bound) := by
  unfold decimalBelow? decimal?
  split
  · exact ofDigitsBelow?_eq (by omega) h _
  · rfl

/-- Reads a value below `bound` as `decimalBelow?` does, with an optional plus sign before it. -/
def unsignedBelow? (bound : Nat) (cs : List Char) : Option Nat :=
  match cs with
  | '+' :: digits => decimalBelow? bound digits
  | digits => decimalBelow? bound digits

end Switchboard.Text
