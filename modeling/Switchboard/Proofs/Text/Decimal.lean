import Switchboard.Text.Decimal

/-!
# Numbers written and read

Main results:

* `Text.decimalBelow?_eq_some_iff`, `Text.unsignedBelow?_eq_some_iff`: which texts are read as a number
  below a bound.
* `Text.unsignedBelow?_number`: a number that keeps to the bound is read as it was written.
* `Text.utf8ByteSize_number_le`: a number has as many digits as its size tells.
-/

namespace Switchboard.Text

/-- A digit is read as the value it was written for. -/
theorem digit_decimalDigit {n : Nat} (h : n < 10) :
    isDigit (decimalDigit n) = true ∧ digitValue (decimalDigit n) = n := by
  have hdigits : ∀ n < 10, isDigit (decimalDigit n) = true ∧ digitValue (decimalDigit n) = n := by
    decide
  exact hdigits n h

theorem ofDigits_concat (base : Nat) (digits : List Nat) (d : Nat) :
    ofDigits base (digits ++ [d]) = ofDigits base digits * base + d := by
  rw [ofDigits, List.foldl_append]
  rfl

/-- The digits of a number, as a reader sees them. -/
theorem decimal_spec (n : Nat) :
    decimal n ≠ [] ∧ (decimal n).all isDigit = true ∧ decimalValue (decimal n) = n := by
  induction n using decimal.induct with
  -- a single digit
  | case1 n hlt =>
    obtain ⟨hdigit, hvalue⟩ := digit_decimalDigit hlt
    rw [decimal, if_pos hlt]
    refine ⟨List.cons_ne_nil _ _, ?_, ?_⟩
    · rw [List.all_cons, hdigit, List.all_nil]
      rfl
    · rw [decimalValue, List.map_singleton, hvalue, ofDigits, List.foldl_cons, List.foldl_nil,
        Nat.zero_mul, Nat.zero_add]
  -- the digits of the tenth part, and the last digit behind them
  | case2 n hge ih =>
    obtain ⟨-, hdigits, hvalue⟩ := ih
    obtain ⟨hlast, hlastValue⟩ := digit_decimalDigit (Nat.mod_lt n (by decide : 0 < 10))
    rw [decimal, if_neg hge]
    refine ⟨by simp, ?_, ?_⟩
    · rw [List.all_append, hdigits, List.all_cons, hlast, List.all_nil]
      rfl
    · rw [decimalValue] at hvalue
      rw [decimalValue, List.map_append, List.map_singleton, ofDigits_concat, hvalue, hlastValue]
      omega

/-- A run of digits that denotes a number, perhaps with zeros in front. -/
structure IsNumeral (digits : List Char) (n : Nat) : Prop where
  ne_nil : digits ≠ []
  isDigit : ∀ c ∈ digits, isDigit c = true
  value : decimalValue digits = n

theorem isNumeral_decimal (n : Nat) : IsNumeral (decimal n) n := by
  obtain ⟨hne, hdigits, hvalue⟩ := decimal_spec n
  exact ⟨hne, List.all_eq_true.mp hdigits, hvalue⟩

theorem decimal?_eq_some_iff {cs : List Char} {n : Nat} : decimal? cs = some n ↔ IsNumeral cs n := by
  unfold decimal?
  constructor
  · intro h
    split at h
    · next hdigits => exact ⟨hdigits.1, List.all_eq_true.mp hdigits.2, Option.some.inj h⟩
    · cases h
  · intro h
    rw [if_pos ⟨h.ne_nil, List.all_eq_true.mpr h.isDigit⟩, h.value]

theorem decimalBelow?_eq_some_iff {bound : Nat} (hbound : 0 < bound) {cs : List Char} {n : Nat} :
    decimalBelow? bound cs = some n ↔ IsNumeral cs n ∧ n < bound := by
  rw [decimalBelow?_eq_filter hbound, Option.filter_eq_some_iff, decimal?_eq_some_iff,
    decide_eq_true_eq]

/-- A sign is not a digit, so no number starts with one. -/
theorem IsNumeral.ne_plus {digits : List Char} {n : Nat} (h : IsNumeral digits n) (rest : List Char) :
    digits ≠ '+' :: rest := by
  rintro rfl
  cases h.isDigit '+' List.mem_cons_self

/-- What is read is a number below the bound, perhaps after a plus sign. -/
theorem unsignedBelow?_eq_some_iff {bound : Nat} (hbound : 0 < bound) {cs : List Char} {n : Nat} :
    unsignedBelow? bound cs = some n ↔
      (∃ digits, (cs = digits ∨ cs = '+' :: digits) ∧ IsNumeral digits n) ∧ n < bound := by
  unfold unsignedBelow?
  split
  · next digits =>
    rw [decimalBelow?_eq_some_iff hbound]
    constructor
    · rintro ⟨h, hlt⟩
      exact ⟨⟨digits, .inr rfl, h⟩, hlt⟩
    · rintro ⟨⟨others, heq | heq, h⟩, hlt⟩
      · exact absurd heq.symm (h.ne_plus digits)
      · cases heq
        exact ⟨h, hlt⟩
  · next hplus =>
    rw [decimalBelow?_eq_some_iff hbound]
    constructor
    · rintro ⟨h, hlt⟩
      exact ⟨⟨cs, .inl rfl, h⟩, hlt⟩
    · rintro ⟨⟨others, heq | heq, h⟩, hlt⟩
      · exact ⟨heq ▸ h, hlt⟩
      · exact absurd heq (hplus others)

theorem toList_number (n : Nat) : (number n).toList = decimal n :=
  String.toList_ofList

/-- A number below a bound is read as it was written. -/
theorem unsignedBelow?_number {n bound : Nat} (h : n < bound) :
    unsignedBelow? bound (number n).toList = some n := by
  rw [toList_number, unsignedBelow?_eq_some_iff (Nat.zero_lt_of_lt h)]
  exact ⟨⟨_, .inl rfl, isNumeral_decimal n⟩, h⟩

/-- The digits of a number are those of its tenth part and the last one behind them. -/
theorem number_of_le {n : Nat} (h : 10 ≤ n) :
    number n = number (n / 10) ++ String.ofList [decimalDigit (n % 10)] := by
  rw [number, decimal, if_neg (Nat.not_lt.mpr h), String.ofList_append]
  rfl

/-- A number has as many digits as its size tells. -/
theorem utf8ByteSize_number_le {n k : Nat} (h : n < Nat.pow 10 (k + 1)) :
    (number n).utf8ByteSize ≤ k + 1 := by
  -- every digit is one byte
  have hdigit : ∀ d < 10, (String.ofList [decimalDigit d]).utf8ByteSize = 1 := by decide
  have hsingle (d : Nat) (hd : d < 10) : (number d).utf8ByteSize = 1 := by
    rw [number, decimal, if_pos hd, hdigit d hd]
  induction k generalizing n with
  | zero => exact Nat.le_of_eq (hsingle n h)
  | succ k ih =>
    by_cases hten : 10 ≤ n
    · have htenth : n / 10 < Nat.pow 10 (k + 1) :=
        Nat.div_lt_of_lt_mul (Nat.lt_of_lt_of_eq h Nat.pow_succ')
      rw [number_of_le hten, String.utf8ByteSize_append, hdigit _ (Nat.mod_lt n (by decide))]
      exact Nat.succ_le_succ (ih htenth)
    · rw [hsingle n (Nat.lt_of_not_le hten)]
      exact Nat.succ_le_succ (Nat.zero_le _)

end Switchboard.Text
