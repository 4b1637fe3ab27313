import Switchboard.Atom.Encoding
import Switchboard.Gid
import Switchboard.Text.Utf8

/-!
# Numbers, text and ids as bytes

What the wire forms of single values give back when they are read: numbers of two and four bytes,
numbers in as few bytes as they need, text as UTF-8, and global ids.
-/

namespace Switchboard

namespace Bytes

-- ---------------------------------------------------------------------------
-- Numbers
-- ---------------------------------------------------------------------------

theorem toNat_ofUInt16 (v : UInt16) : toNat (ofUInt16 v) = v.toNat := by
  have hv := v.toNat_lt
  simp only [ofUInt16, toNat, List.foldl_cons, List.foldl_nil, UInt8.toNat_ofNat']
  omega

theorem toNat_ofUInt32 (v : UInt32) : toNat (ofUInt32 v) = v.toNat := by
  have hv := v.toNat_lt
  simp only [ofUInt32, toNat, List.foldl_cons, List.foldl_nil, UInt8.toNat_ofNat']
  omega

theorem exists_ofUInt16 (v : UInt16) : ∃ hi lo, ofUInt16 v = [hi, lo] :=
  ⟨_, _, rfl⟩

theorem uint16_ofUInt16 {v : UInt16} {hi lo : UInt8} (h : ofUInt16 v = [hi, lo]) :
    uint16 hi lo = v := by
  rw [uint16, ← h, toNat_ofUInt16, UInt16.ofNat_toNat]

/-- Two bytes make a number that sixteen bits hold. -/
theorem toNat_uint16 (hi lo : UInt8) : (uint16 hi lo).toNat = hi.toNat * 256 + lo.toNat := by
  have hhi := hi.toNat_lt
  have hlo := lo.toNat_lt
  rw [uint16, UInt16.toNat_ofNat']
  simp only [toNat, List.foldl_cons, List.foldl_nil]
  omega

theorem ofUInt16_uint16 (hi lo : UInt8) : ofUInt16 (uint16 hi lo) = [hi, lo] := by
  have hhi := hi.toNat_lt
  have hlo := lo.toNat_lt
  rw [ofUInt16, toNat_uint16]
  congr 1
  · rw [← UInt8.toNat_inj, UInt8.toNat_ofNat']
    omega
  · congr 1
    rw [← UInt8.toNat_inj, UInt8.toNat_ofNat']
    omega

/-- Different bytes make different numbers. -/
theorem uint16_inj {hi lo hi' lo' : UInt8} (h : uint16 hi lo = uint16 hi' lo') :
    hi = hi' ∧ lo = lo' := by
  have hbytes : [hi, lo] = [hi', lo'] := by
    rw [← ofUInt16_uint16 hi lo, ← ofUInt16_uint16 hi' lo', h]
  simpa using hbytes

theorem uint32?_ofUInt32_append (v : UInt32) (rest : Bytes) :
    uint32? (ofUInt32 v ++ rest) = some (v, rest) := by
  have hv : UInt32.ofNat (toNat (ofUInt32 v)) = v := by
    rw [toNat_ofUInt32, UInt32.ofNat_toNat]
  rw [ofUInt32] at hv ⊢
  rw [List.cons_append, List.cons_append, List.cons_append, List.cons_append, List.nil_append,
    uint32?, uint32, hv]

/-- A number takes four bytes. -/
theorem uint32?_eq_none_iff {bytes : Bytes} : uint32? bytes = none ↔ bytes.length < 4 := by
  match bytes with
  | [] | [_] | [_, _] | [_, _, _] => simp [uint32?]
  | _ :: _ :: _ :: _ :: rest =>
    simp only [uint32?, List.length_cons]
    constructor
    · intro h
      cases h
    · omega

theorem ofUInt32_uint32 (a b c d : UInt8) : ofUInt32 (uint32 a b c d) = [a, b, c, d] := by
  have ha := a.toNat_lt
  have hb := b.toNat_lt
  have hc := c.toNat_lt
  have hd := d.toNat_lt
  -- four bytes make a number that thirty-two bits hold
  have hnat : (uint32 a b c d).toNat =
      ((a.toNat * 256 + b.toNat) * 256 + c.toNat) * 256 + d.toNat := by
    rw [uint32, UInt32.toNat_ofNat']
    simp only [toNat, List.foldl_cons, List.foldl_nil]
    omega
  have hbyte {n : Nat} {x : UInt8} (h : n % 256 = x.toNat) : UInt8.ofNat n = x := by
    rw [← UInt8.toNat_inj, UInt8.toNat_ofNat']
    exact h
  rw [ofUInt32, hnat, hbyte (x := a) (by omega), hbyte (x := b) (by omega),
    hbyte (x := c) (by omega), hbyte (x := d) (by omega)]

/-- The four bytes that are read stand in front. -/
theorem eq_of_uint32? {bytes rest : Bytes} {v : UInt32} (h : uint32? bytes = some (v, rest)) :
    bytes = ofUInt32 v ++ rest := by
  unfold uint32? at h
  split at h
  · cases h
    rw [ofUInt32_uint32]
    rfl
  · cases h

/-- Zeros at the front do not count. -/
theorem toNat_zero_cons (rest : Bytes) : toNat (0 :: rest) = toNat rest := rfl

theorem toNat_drop_takeWhile_zero (bytes : Bytes) (n : Nat) :
    toNat (bytes.drop ((bytes.take n).takeWhile (· == 0)).length) = toNat bytes := by
  induction n generalizing bytes with
  | zero => simp
  | succ n ih =>
    cases bytes with
    | nil => rfl
    | cons b rest =>
      by_cases hb : b = 0
      · subst hb
        simpa [toNat_zero_cons] using ih rest
      · simp [hb]

end Bytes

-- ---------------------------------------------------------------------------
-- Numbers of least width
-- ---------------------------------------------------------------------------

theorem toNat_minimalBytes (v : UInt32) : Bytes.toNat (minimalBytes v) = v.toNat := by
  rw [minimalBytes, Bytes.toNat_drop_takeWhile_zero, Bytes.toNat_ofUInt32]

/-- A number takes at least one byte and at most four. -/
theorem length_minimalBytes (v : UInt32) :
    1 ≤ (minimalBytes v).length ∧ (minimalBytes v).length ≤ 4 := by
  -- at most three zeros go, since only the first three bytes are looked at
  have hzeros : (((Bytes.ofUInt32 v).take 3).takeWhile (· == 0)).length ≤ 3 :=
    Nat.le_trans (List.takeWhile_prefix _).length_le (List.length_take_le ..)
  rw [minimalBytes, List.length_drop, Bytes.length_ofUInt32]
  omega

/-- A number without a zero in front, or a single zero. -/
def Bytes.IsMinimal (bytes : Bytes) : Prop :=
  ∀ digits, bytes = 0 :: digits → digits = []

theorem Bytes.isMinimal_cons_iff {first : UInt8} {digits : Bytes} :
    IsMinimal (first :: digits) ↔ (first = 0 → digits = []) := by
  constructor
  · rintro h rfl
    exact h digits rfl
  · rintro h more heq
    cases heq
    exact h rfl

/-- Writing a number that four bytes denote drops up to three zeros in front. -/
theorem minimalBytes_four (a b c d : UInt8) :
    minimalBytes (UInt32.ofNat (Bytes.toNat [a, b, c, d])) =
      if a ≠ 0 then [a, b, c, d] else if b ≠ 0 then [b, c, d] else if c ≠ 0 then [c, d] else [d] := by
  have hbytes : Bytes.ofUInt32 (UInt32.ofNat (Bytes.toNat [a, b, c, d])) = [a, b, c, d] :=
    Bytes.ofUInt32_uint32 a b c d
  rw [minimalBytes, hbytes]
  by_cases ha : a = 0
  · by_cases hb : b = 0
    · by_cases hc : c = 0
      · simp [ha, hb, hc]
      · simp [ha, hb, hc]
    · simp [ha, hb]
  · simp [ha]

/-- Writing the number that one to four bytes denote drops the zeros in front. -/
theorem minimalBytes_of_toNat {bytes : Bytes} (hmin : bytes ≠ []) (hmax : bytes.length ≤ 4) :
    (minimalBytes (UInt32.ofNat (Bytes.toNat bytes))).length ≤ bytes.length ∧
      (minimalBytes (UInt32.ofNat (Bytes.toNat bytes)) = bytes ↔ bytes.IsMinimal) := by
  -- by the number of bytes; missing ones at the front are zeros
  match bytes with
  | [] => exact absurd rfl hmin
  | [d] =>
    rw [← Bytes.toNat_zero_cons, ← Bytes.toNat_zero_cons, ← Bytes.toNat_zero_cons,
      minimalBytes_four, Bytes.isMinimal_cons_iff]
    simp
  | [c, d] =>
    rw [← Bytes.toNat_zero_cons, ← Bytes.toNat_zero_cons, minimalBytes_four,
      Bytes.isMinimal_cons_iff]
    by_cases hc : c = 0 <;> simp [hc]
  | [b, c, d] =>
    rw [← Bytes.toNat_zero_cons, minimalBytes_four, Bytes.isMinimal_cons_iff]
    by_cases hb : b = 0 <;> by_cases hc : c = 0 <;> simp [hb, hc]
  | [a, b, c, d] =>
    rw [minimalBytes_four, Bytes.isMinimal_cons_iff]
    by_cases ha : a = 0 <;> by_cases hb : b = 0 <;> by_cases hc : c = 0 <;> simp [ha, hb, hc]
  | _ :: _ :: _ :: _ :: _ :: _ =>
    simp only [List.length_cons] at hmax
    omega

-- ---------------------------------------------------------------------------
-- Text and ids
-- ---------------------------------------------------------------------------

namespace Text

theorem length_utf8 (s : String) : (utf8 s).length = s.utf8ByteSize := by
  rw [utf8, Array.length_toList]
  exact String.size_toByteArray

theorem utf8?_utf8 (s : String) : utf8? (utf8 s) = some s := by
  have hbytes : (⟨(utf8 s).toArray⟩ : ByteArray) = s.toByteArray := rfl
  rw [utf8?, hbytes, String.fromUTF8?, dif_pos s.isValidUTF8]
  rfl

/-- Text that is read has the bytes that it was read from. -/
theorem utf8_of_utf8? {bytes : Bytes} {s : String} (h : utf8? bytes = some s) : utf8 s = bytes := by
  rw [utf8?, String.fromUTF8?] at h
  split at h
  · cases h
    rfl
  · cases h

end Text

namespace Gid

theorem length_encode (gid : Gid) : gid.encode.length = gid.wireLength := by
  cases gid <;> rfl

theorem decode?_encode (gid : Gid) : decode? gid.encode = some gid := by
  cases gid with
  | two domain id =>
    show some (two domain (Bytes.uint16 _ _)) = _
    rw [Bytes.uint16_ofUInt16 (v := id) rfl]
  | three domain major id =>
    show some (three domain major (Bytes.uint16 _ _)) = _
    rw [Bytes.uint16_ofUInt16 (v := id) rfl]

/-- An id that is read has the bytes that it was read from. -/
theorem encode_of_decode? {bytes : Bytes} {gid : Gid} (h : decode? bytes = some gid) :
    gid.encode = bytes := by
  unfold decode? at h
  split at h
  · cases h
    rw [encode, Bytes.ofUInt16_uint16]
  · cases h
    rw [encode, Bytes.ofUInt16_uint16]
  · cases h

end Gid

end Switchboard
