import Mathlib.Algebra.Group.Nat.Defs
import Mathlib.Logic.Function.Iterate
import Switchboard.Frame.Checksum

/-!
# What the checksum tells apart

A step of the division is linear in exclusive or and loses nothing: from the remainder after it the one
before it can be found again.  Two bytes are sixteen such steps, and the two bytes enter them as one
word, so that different words leave different remainders.

Main results:

* `foldl_crcByte_injective`: the same bytes take different remainders to different remainders.
* `crc16_adjacent_inj`: bytes that differ in no more than two places side by side, and do differ there,
  have different checksums.
-/

namespace Switchboard

-- ---------------------------------------------------------------------------
-- One step
-- ---------------------------------------------------------------------------

/-- Whether a one falls out in the next step. -/
def lowBit (crc : UInt16) : Bool :=
  crc.toNat.testBit 0

theorem lowBit_eq_decide (crc : UInt16) : lowBit crc = decide (crc.toNat % 2 = 1) := by
  rw [lowBit, Nat.testBit_zero]

theorem lowBit_xor (a b : UInt16) : lowBit (a ^^^ b) = (lowBit a ^^ lowBit b) := by
  rw [lowBit, UInt16.toNat_xor, Nat.testBit_xor]
  rfl

theorem toNat_shiftRight_one (crc : UInt16) : (crc >>> 1).toNat = crc.toNat / 2 := by
  rw [UInt16.toNat_shiftRight]
  exact Nat.shiftRight_eq_div_pow crc.toNat 1

/-- A step shifts, and subtracts what the falling bit asks for. -/
theorem crcBit_eq (crc : UInt16) :
    crcBit crc = (crc >>> 1) ^^^ if lowBit crc then 0xA001 else 0 := by
  have hand : (crc &&& 1).toNat = crc.toNat % 2 := by
    rw [UInt16.toNat_and]
    exact Nat.and_one_is_mod _
  have hlow : crc &&& 1 = 1 ↔ lowBit crc = true := by
    rw [lowBit_eq_decide, decide_eq_true_iff, ← hand, ← UInt16.toNat_inj]
    rfl
  rw [crcBit]
  simp only [hlow]
  split
  · rfl
  · rw [UInt16.xor_zero]

/-- A step is linear. -/
theorem crcBit_xor (a b : UInt16) : crcBit (a ^^^ b) = crcBit a ^^^ crcBit b := by
  have hfall : (if lowBit (a ^^^ b) then (0xA001 : UInt16) else 0) =
      (if lowBit a then 0xA001 else 0) ^^^ (if lowBit b then 0xA001 else 0) := by
    rw [lowBit_xor]
    cases lowBit a <;> cases lowBit b <;> rfl
  rw [crcBit_eq, crcBit_eq a, crcBit_eq b, hfall, UInt16.shiftRight_xor]
  ac_rfl

theorem eq_zero_of_crcBit {crc : UInt16} (h : crcBit crc = 0) : crc = 0 := by
  have hlt := crc.toNat_lt
  rw [crcBit_eq, UInt16.xor_eq_zero_iff, ← UInt16.toNat_inj, toNat_shiftRight_one,
    lowBit_eq_decide] at h
  rw [← UInt16.toNat_inj]
  by_cases hlow : crc.toNat % 2 = 1
  · -- the subtracted polynomial has its top bit set, which no shifted remainder has
    have hhalf : crc.toNat / 2 = 40961 := by simpa [hlow] using h
    omega
  · have hhalf : crc.toNat / 2 = 0 := by simpa [hlow] using h
    show crc.toNat = 0
    omega

/-- A step loses nothing. -/
theorem crcBit_injective : Function.Injective crcBit := by
  intro a b h
  refine UInt16.xor_eq_zero_iff.mp (eq_zero_of_crcBit ?_)
  rw [crcBit_xor, h, UInt16.xor_self]

-- ---------------------------------------------------------------------------
-- Several steps
-- ---------------------------------------------------------------------------

theorem iterate_crcBit_xor (n : Nat) (a b : UInt16) :
    crcBit^[n] (a ^^^ b) = crcBit^[n] a ^^^ crcBit^[n] b := by
  induction n generalizing a b with
  | zero => rfl
  | succ n ih =>
    rw [Function.iterate_succ_apply, crcBit_xor, ih]
    rfl

/-- While only zeros fall out, the steps do nothing but shift. -/
theorem toNat_iterate_crcBit {n high : Nat} {crc : UInt16} (h : crc.toNat = high * 2 ^ n) :
    (crcBit^[n] crc).toNat = high := by
  induction n generalizing crc with
  | zero => simpa using h
  | succ n ih =>
    have hdouble : high * 2 ^ (n + 1) = 2 * (high * 2 ^ n) := by
      rw [Nat.pow_succ, ← Nat.mul_assoc, Nat.mul_comm]
    have hlow : lowBit crc = false := by
      rw [lowBit_eq_decide, decide_eq_false_iff_not]
      omega
    rw [Function.iterate_succ_apply]
    refine ih ?_
    rw [crcBit_eq, hlow, if_neg Bool.false_ne_true, UInt16.xor_zero, toNat_shiftRight_one, h]
    omega

theorem crcByte_eq_iterate (crc : UInt16) (b : UInt8) :
    crcByte crc b = crcBit^[8] (crc ^^^ b.toUInt16) := rfl

theorem crcByte_injective (b : UInt8) : Function.Injective (crcByte · b) := by
  intro crc other h
  have hsum : crc ^^^ b.toUInt16 = other ^^^ b.toUInt16 := crcBit_injective.iterate 8 h
  exact (UInt16.xor_left_inj b.toUInt16).mp hsum

/-- The same bytes take different remainders to different remainders. -/
theorem foldl_crcByte_injective (bytes : Bytes) :
    Function.Injective fun crc => bytes.foldl crcByte crc := by
  induction bytes with
  | nil => exact Function.injective_id
  | cons b rest ih => exact ih.comp (crcByte_injective b)

-- ---------------------------------------------------------------------------
-- Two bytes
-- ---------------------------------------------------------------------------

/-- Two bytes as one word, the first in its lower half. -/
def crcWord (a b : UInt8) : UInt16 :=
  a.toUInt16 ^^^ b.toUInt16 <<< 8

theorem toNat_shiftLeft_eight (b : UInt8) : (b.toUInt16 <<< 8).toNat = b.toNat * 2 ^ 8 := by
  have hlt := b.toNat_lt
  rw [UInt16.toNat_shiftLeft, UInt8.toNat_toUInt16]
  show b.toNat <<< 8 % 2 ^ 16 = _
  rw [Nat.shiftLeft_eq]
  omega

theorem crcWord_inj {a b c d : UInt8} (h : crcWord a b = crcWord c d) : a = c ∧ b = d := by
  have ha := a.toNat_lt
  have hc := c.toNat_lt
  have hnat : a.toNat ^^^ b.toNat * 2 ^ 8 = c.toNat ^^^ d.toNat * 2 ^ 8 := by
    simpa only [crcWord, UInt16.toNat_xor, UInt8.toNat_toUInt16, toNat_shiftLeft_eight] using
      congrArg UInt16.toNat h
  -- the lower half of the word is the first byte, the upper half the second
  have hlow := congrArg (· % 2 ^ 8) hnat
  have hhigh := congrArg (· / 2 ^ 8) hnat
  simp only [Nat.xor_mod_two_pow, Nat.mul_mod_left, Nat.xor_zero, Nat.mod_eq_of_lt ha,
    Nat.mod_eq_of_lt hc] at hlow
  simp only [Nat.xor_div_two_pow, Nat.div_eq_of_lt ha, Nat.div_eq_of_lt hc, Nat.zero_xor,
    Nat.mul_div_cancel _ (Nat.two_pow_pos 8)] at hhigh
  exact ⟨UInt8.toNat_inj.mp hlow, UInt8.toNat_inj.mp hhigh⟩

/-- Two bytes are divided like the one word that they make. -/
theorem crcByte_crcByte (crc : UInt16) (a b : UInt8) :
    crcByte (crcByte crc a) b = crcBit^[16] (crc ^^^ crcWord a b) := by
  -- while the first byte is divided, the second one is shifted down to where it is added
  have hshift : crcBit^[8] (b.toUInt16 <<< 8) = b.toUInt16 := by
    rw [← UInt16.toNat_inj, UInt8.toNat_toUInt16]
    exact toNat_iterate_crcBit (toNat_shiftLeft_eight b)
  calc crcByte (crcByte crc a) b
      = crcBit^[8] (crcBit^[8] (crc ^^^ a.toUInt16) ^^^ crcBit^[8] (b.toUInt16 <<< 8)) := by
        rw [hshift, crcByte_eq_iterate, crcByte_eq_iterate]
    _ = crcBit^[8] (crcBit^[8] (crc ^^^ a.toUInt16 ^^^ b.toUInt16 <<< 8)) := by
        rw [iterate_crcBit_xor 8 (crc ^^^ a.toUInt16)]
    _ = crcBit^[16] (crc ^^^ crcWord a b) := by
        rw [crcWord, UInt16.xor_assoc, ← Function.iterate_add_apply]

/-- Bytes that differ in no more than two places side by side, and do differ there, have different
checksums. -/
theorem crc16_adjacent_inj {before after : Bytes} {a b c d : UInt8}
    (h : crc16 (before ++ a :: b :: after) = crc16 (before ++ c :: d :: after)) :
    a = c ∧ b = d := by
  rw [crc16_append, crc16_append] at h
  -- the bytes after the two are the same, and so are those before them
  have hpair : crcByte (crcByte (crc16 before) a) b = crcByte (crcByte (crc16 before) c) d :=
    foldl_crcByte_injective after h
  rw [crcByte_crcByte, crcByte_crcByte] at hpair
  have hword : crc16 before ^^^ crcWord a b = crc16 before ^^^ crcWord c d :=
    crcBit_injective.iterate 16 hpair
  exact crcWord_inj ((UInt16.xor_right_inj (crc16 before)).mp hword)

end Switchboard
