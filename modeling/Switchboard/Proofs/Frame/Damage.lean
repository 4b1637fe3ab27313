import Switchboard.Proofs.Frame.Checksum
import Switchboard.Proofs.Frame.Incremental

/-!
# Frames damaged on the way

Damage to two bytes side by side is always found: a frame whose checksum, or whose sequence numbers,
kind or payload were hit arrives as a fault and never as a frame, and what follows it is read as if it
had not been there.

Main results:

* `Frame.front_of_mismatch`: a checksum that does not fit the bytes it covers is reported, and the
  frame is taken off as a whole.
* `Frame.damage_detected`: that is what becomes of a damaged frame.
-/

namespace Switchboard.Frame

-- ---------------------------------------------------------------------------
-- Damage
-- ---------------------------------------------------------------------------

/-- Bytes that arrive other than they were written, but as many, and the same except at one place and
the next. -/
structure IsDamaged (written damaged : Bytes) (place : Nat) : Prop where
  length : damaged.length = written.length
  differs : damaged ≠ written
  elsewhere : ∀ i, i ≠ place → i ≠ place + 1 → damaged[i]? = written[i]?

theorem eq_append_pair {bytes : Bytes} {place : Nat} (h : place + 1 < bytes.length) :
    ∃ a b, bytes = bytes.take place ++ a :: b :: bytes.drop (place + 2) := by
  refine ⟨bytes[place], bytes[place + 1], ?_⟩
  rw [← List.drop_eq_getElem_cons h, ← List.drop_eq_getElem_cons (Nat.lt_of_succ_lt h),
    List.take_append_drop]

/-- What was damaged are two bytes, between bytes that were not. -/
theorem IsDamaged.split {written damaged : Bytes} {place : Nat}
    (h : IsDamaged written damaged place) (hplace : place + 1 < written.length) :
    ∃ before after a b c d, before.length = place ∧ written = before ++ a :: b :: after ∧
      damaged = before ++ c :: d :: after ∧ ¬(a = c ∧ b = d) := by
  obtain ⟨a, b, hwritten⟩ := eq_append_pair hplace
  obtain ⟨c, d, hdamaged⟩ := eq_append_pair (h.length ▸ hplace)
  have hbefore : damaged.take place = written.take place := by
    refine List.ext_getElem? fun i => ?_
    rw [List.getElem?_take, List.getElem?_take]
    split
    · exact h.elsewhere i (by omega) (by omega)
    · rfl
  have hafter : damaged.drop (place + 2) = written.drop (place + 2) := by
    refine List.ext_getElem? fun i => ?_
    rw [List.getElem?_drop, List.getElem?_drop]
    exact h.elsewhere _ (by omega) (by omega)
  rw [hbefore, hafter] at hdamaged
  refine ⟨_, _, a, b, c, d, ?_, hwritten, hdamaged, ?_⟩
  · rw [List.length_take]
    omega
  · rintro ⟨rfl, rfl⟩
    exact h.differs (hdamaged.trans hwritten.symm)

-- ---------------------------------------------------------------------------
-- What is read of it
-- ---------------------------------------------------------------------------

theorem exists_of_three_le {bytes : Bytes} (h : 3 ≤ bytes.length) :
    ∃ a b c rest, bytes = a :: b :: c :: rest := by
  match bytes with
  | [] | [_] | [_, _] => simp at h
  | a :: b :: c :: rest => exact ⟨a, b, c, rest, rfl⟩

/-- A frame with a checksum that does not fit the bytes it covers is taken off as a whole. -/
theorem front_of_mismatch {crcHi crcLo lenHi lenLo : UInt8} {middle : Bytes}
    (hlong : 3 ≤ middle.length) (hlength : (Bytes.uint16 lenHi lenLo).toNat = middle.length)
    (hcrc : Bytes.uint16 crcHi crcLo ≠ crc16 (lenHi :: lenLo :: middle)) (rest : Bytes) :
    Front (magic :: crcHi :: crcLo :: lenHi :: lenLo :: (middle ++ [terminator]) ++ rest)
      (.error (.crcMismatch (Bytes.uint16 crcHi crcLo) (crc16 (lenHi :: lenLo :: middle)))) rest := by
  obtain ⟨tx, rx, kind, payload, rfl⟩ := exists_of_three_le hlong
  simp only [List.length_cons] at hlength
  have hclaimed : ¬Bytes.uint16 lenHi lenLo < 3 := by
    rw [UInt16.lt_iff_toNat_lt, hlength]
    show ¬payload.length + 1 + 1 + 1 < 3
    omega
  have hwhole : (payload ++ [terminator]).length = (Bytes.uint16 lenHi lenLo).toNat - 2 := by
    rw [List.length_append, List.length_singleton, hlength]
    omega
  -- the terminator stands where it should, so that the checksum is looked at
  have hparts : ofParts crcHi crcLo lenHi lenLo tx rx kind (payload ++ [terminator]) =
      .error (.crcMismatch (Bytes.uint16 crcHi crcLo)
        (crc16 (lenHi :: lenLo :: tx :: rx :: kind :: payload))) := by
    rw [ofParts, List.getLast?_concat]
    dsimp only
    rw [if_neg (not_not_intro rfl), List.dropLast_concat, if_pos hcrc]
  have hfront : Front (magic :: crcHi :: crcLo :: lenHi :: lenLo ::
      (tx :: rx :: kind :: payload ++ [terminator]) ++ rest)
      (ofParts crcHi crcLo lenHi lenLo tx rx kind (payload ++ [terminator])) rest :=
    .claimed rest hclaimed hwhole
  rw [hparts] at hfront
  exact hfront

-- ---------------------------------------------------------------------------
-- Damaged frames
-- ---------------------------------------------------------------------------

/-- The bytes of a frame, as far as damage is concerned: the checksum, the length of what lies in the
middle, and what lies in the middle. -/
theorem bytes_eq_of_fits {frame : Frame} (h : frame.Fits) :
    ∃ crcHi crcLo lenHi lenLo middle,
      frame.bytes = magic :: crcHi :: crcLo :: lenHi :: lenLo :: (middle ++ [terminator]) ∧
      3 ≤ middle.length ∧ (Bytes.uint16 lenHi lenLo).toNat = middle.length ∧
      Bytes.uint16 crcHi crcLo = crc16 (lenHi :: lenLo :: middle) := by
  obtain ⟨crcHi, crcLo, hcrc⟩ := Bytes.exists_ofUInt16 (crc16 frame.covered)
  obtain ⟨lenHi, lenLo, hlen⟩ := Bytes.exists_ofUInt16 (UInt16.ofNat (3 + frame.payload.length))
  have hcovered : frame.covered =
      lenHi :: lenLo :: frame.tx :: frame.rx :: frame.kind.byte :: frame.payload := by
    rw [covered, hlen]
    rfl
  refine ⟨crcHi, crcLo, lenHi, lenLo, frame.tx :: frame.rx :: frame.kind.byte :: frame.payload,
    ?_, ?_, ?_, ?_⟩
  · rw [bytes, hcrc, hcovered]
    rfl
  · simp only [List.length_cons]
    omega
  · rw [Fits, maxFramePayload] at h
    rw [Bytes.uint16_ofUInt16 hlen, UInt16.toNat_ofNat']
    simp only [List.length_cons]
    omega
  · rw [Bytes.uint16_ofUInt16 hcrc, hcovered]

theorem exists_middle {front middle back before after : Bytes} {a b : UInt8}
    (h : front ++ (middle ++ back) = before ++ a :: b :: after)
    (hfront : front.length ≤ before.length) (hback : back.length ≤ after.length) :
    ∃ left right, before = front ++ left ∧ after = right ++ back ∧
      middle = left ++ a :: b :: right := by
  obtain ⟨left, rfl⟩ : front <+: before :=
    List.prefix_of_prefix_length_le (h ▸ List.prefix_append ..) (List.prefix_append ..) hfront
  rw [List.append_assoc] at h
  have hrest : middle ++ back = (left ++ [a, b]) ++ after := by
    simpa using List.append_cancel_left h
  obtain ⟨right, rfl⟩ : back <:+ after :=
    List.suffix_of_suffix_length_le (hrest ▸ List.suffix_append ..) (List.suffix_append ..) hback
  rw [← List.append_assoc] at hrest
  exact ⟨left, right, rfl, rfl, by simpa using List.append_cancel_right hrest⟩

/-- Of every frame that can be written, two bytes side by side may arrive other than they were written,
be it in the checksum or between the first sequence number and the end of the payload: the bytes are
reported as a mismatch of the checksum, as many of them are taken off as were written, and all that
follows is read as if they had not been there. -/
theorem damage_detected (frame : Frame) (hpayload : frame.payload.length ≤ 65532) :
    ∃ written, frame.encode = .ok written ∧
      ∀ damaged place, IsDamaged written damaged place →
        place = 1 ∨ 5 ≤ place ∧ place + 2 < written.length →
        ∀ rest, ∃ expected actual, expected ≠ actual ∧
          next (damaged ++ rest) = .fault (.crcMismatch expected actual) rest ∧
          drain (damaged ++ rest) =
            (.error (.crcMismatch expected actual) :: (drain rest).1, (drain rest).2) := by
  have hfits : frame.Fits := hpayload
  refine ⟨frame.bytes, encode_of_fits hfits, ?_⟩
  intro damaged place hdamaged hplace rest
  obtain ⟨crcHi, crcLo, lenHi, lenLo, middle, hbytes, hlong, hlength, hcrc⟩ := bytes_eq_of_fits hfits
  rw [hbytes] at hdamaged hplace
  -- it is enough that the checksum on the link is not that of the bytes in the middle
  suffices ∃ crcHi' crcLo' middle', middle'.length = middle.length ∧
      Bytes.uint16 crcHi' crcLo' ≠ crc16 (lenHi :: lenLo :: middle') ∧
      damaged = magic :: crcHi' :: crcLo' :: lenHi :: lenLo :: (middle' ++ [terminator]) by
    obtain ⟨crcHi', crcLo', middle', hsame, hdiffer, rfl⟩ := this
    have hfront := front_of_mismatch (hsame ▸ hlong) (hlength.trans hsame.symm) hdiffer rest
    exact ⟨_, _, hdiffer, next_of_front hfront, drain_of_front hfront⟩
  have hroom : place + 1 < (magic :: crcHi :: crcLo :: lenHi :: lenLo ::
      (middle ++ [terminator])).length := by
    simp only [List.length_cons] at hplace ⊢
    omega
  obtain ⟨before, after, a, b, c, d, hbefore, hwritten, rfl, hdiffer⟩ := hdamaged.split hroom
  rcases hplace with rfl | ⟨hfirst, hlast⟩
  · -- The checksum was hit, and what it covers was not.
    obtain ⟨first, rfl⟩ := List.length_eq_one_iff.mp hbefore
    simp only [List.singleton_append, List.cons.injEq] at hwritten
    obtain ⟨rfl, rfl, rfl, rfl⟩ := hwritten
    refine ⟨c, d, middle, rfl, ?_, rfl⟩
    rw [← hcrc]
    exact fun heq => hdiffer (Bytes.uint16_inj heq.symm)
  · -- Two of the bytes that the checksum covers were hit.
    have hparts : [magic, crcHi, crcLo, lenHi, lenLo] ++ (middle ++ [terminator]) =
        before ++ a :: b :: after := hwritten
    have hafter : [terminator].length ≤ after.length := by
      have hlengths := congrArg List.length hwritten
      simp only [List.length_cons, List.length_append, List.length_nil] at hlengths hlast ⊢
      omega
    obtain ⟨left, right, rfl, rfl, rfl⟩ := exists_middle hparts (hbefore ▸ hfirst) hafter
    refine ⟨crcHi, crcLo, left ++ c :: d :: right, by simp, ?_, by simp⟩
    rw [hcrc]
    intro heq
    have hcovered : crc16 (lenHi :: lenLo :: left ++ a :: b :: right) =
        crc16 (lenHi :: lenLo :: left ++ c :: d :: right) := heq
    exact hdiffer (crc16_adjacent_inj hcovered)

/-- A data frame of which the kind and the first byte of the payload were hit, in front of a
heartbeat. -/
theorem damage_detected_kind :
    IsDamaged [90, 39, 232, 0, 5, 16, 127, 32, 65, 84, 13]
      [90, 39, 232, 0, 5, 16, 127, 38, 0, 84, 13] 7 ∧
    ∃ expected actual, next ([90, 39, 232, 0, 5, 16, 127, 38, 0, 84, 13] ++
        [90, 171, 241, 0, 3, 17, 127, 38, 13]) =
      .fault (.crcMismatch expected actual) [90, 171, 241, 0, 3, 17, 127, 38, 13] := by
  have hdamaged : IsDamaged [90, 39, 232, 0, 5, 16, 127, 32, 65, 84, 13]
      [90, 39, 232, 0, 5, 16, 127, 38, 0, 84, 13] 7 := by
    refine ⟨rfl, by decide, fun i => ?_⟩
    rcases Nat.lt_or_ge i 11 with hi | hi
    · revert i
      decide
    · rw [List.getElem?_eq_none hi, List.getElem?_eq_none hi]
      exact fun _ _ => rfl
  refine ⟨hdamaged, ?_⟩
  obtain ⟨written, hwritten, hdetected⟩ :=
    damage_detected ⟨.data, 0x10, 0x7F, [65, 84]⟩ (by decide)
  obtain rfl : written = [90, 39, 232, 0, 5, 16, 127, 32, 65, 84, 13] := by
    cases hwritten
    decide +kernel
  obtain ⟨expected, actual, -, hnext, -⟩ := hdetected _ 7 hdamaged (.inr (by decide))
    [90, 171, 241, 0, 3, 17, 127, 38, 13]
  exact ⟨expected, actual, hnext⟩

end Switchboard.Frame
