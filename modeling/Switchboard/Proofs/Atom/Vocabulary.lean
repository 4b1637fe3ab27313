import Mathlib.Tactic.SplitIfs
import Switchboard.Atom.Vocabulary

/-!
# Names and values

A value that has a name in a vocabulary fits in a byte, and its name is read back as the value.
-/

namespace Switchboard.Vocabulary

/-- Only the first few values have names. -/
theorem lt_of_nameOf? {vocabulary : Vocabulary} {value : Nat} {name : String}
    (h : vocabulary.nameOf? value = some name) : value < 32 := by
  cases vocabulary with
  | objectType =>
    obtain ⟨hlt, -⟩ := List.getElem?_eq_some_iff.mp h
    exact Nat.lt_trans hlt (by decide)
  | criterion =>
    rw [nameOf?] at h
    split_ifs at h
    · obtain ⟨hlt, -⟩ := List.getElem?_eq_some_iff.mp h
      have hlt : value - 1 < 13 := hlt
      omega
  | orientation =>
    obtain ⟨d, hd, -⟩ := Option.bind_eq_some_iff.mp h
    obtain ⟨hlt, -⟩ := List.getElem?_eq_some_iff.mp hd
    have hlt : value / 16 < 2 := hlt
    omega
  | alert =>
    obtain ⟨hlt, -⟩ := List.getElem?_eq_some_iff.mp h
    exact Nat.lt_trans hlt (by decide)
  | bool =>
    match value with
    | 0 => decide
    | 1 => decide
    | _ + 2 => cases h

/-- A name is read back as the value that it was given for. -/
theorem value?_of_nameOf? {vocabulary : Vocabulary} {value : Nat} {name : String}
    (h : vocabulary.nameOf? value = some name) :
    vocabulary.value? name = some (UInt8.ofNat value) := by
  -- a finite table: the kernel checks each of its rows
  have hall : ∀ value < 32, ∀ name ∈ vocabulary.nameOf? value,
      vocabulary.value? name = some (UInt8.ofNat value) := by
    cases vocabulary <;> decide +kernel
  exact hall value (lt_of_nameOf? h) name h

/-- So is a name of a number of any width. -/
theorem value?_of_nameOf?_toNat {vocabulary : Vocabulary} {v : UInt32} {name : String}
    (h : vocabulary.nameOf? v.toNat = some name) :
    ∃ k, vocabulary.value? name = some k ∧ k.toUInt32 = v := by
  refine ⟨_, value?_of_nameOf? h, UInt32.toNat_inj.mp ?_⟩
  have hlt := lt_of_nameOf? h
  rw [UInt8.toNat_toUInt32, UInt8.toNat_ofNat', Nat.mod_eq_of_lt (by omega)]

end Switchboard.Vocabulary
