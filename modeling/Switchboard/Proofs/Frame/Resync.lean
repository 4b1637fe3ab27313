import Switchboard.Proofs.Frame.Damage

/-!
# Frames behind a damaged one

A decoder finds its place again behind a damaged frame if it comes to the end of that frame exactly.
Most damage is of this kind.  The exception is a magic byte at which the decoder stops inside the
damaged frame and whose length claims bytes behind its end: these belong to the frames that follow, and
they are dropped with it, or the decoder waits for more of them than there are.

Main results:

* `Frame.exists_taken`: a decoder comes to the end of any bytes, or to a magic byte in them that reaches
  beyond their end.
* `Frame.Taken.drain_append`: what it takes off does not depend on the frames behind.
* `Frame.Reaches.loses`: behind a magic byte that reaches beyond the end, frames can be lost.
* `Frame.frames_behind_read`: the frames behind a damaged one are read, whatever they are, exactly if the
  decoder comes to its end, and that is so wherever it was hit but in its magic byte and its length.
-/

namespace Switchboard.Frame

-- ---------------------------------------------------------------------------
-- What is taken off in front of a frame
-- ---------------------------------------------------------------------------

/-- What a decoder takes off the front of some bytes when a frame stands behind them: the frames and
faults that it finds, and the bytes that it has not touched yet. -/
inductive Taken : Bytes → List (Except WireError Frame) → Bytes → Prop where
  | nothing (bytes : Bytes) : Taken bytes [] bytes
  | garbage {first : UInt8} {tail rest : Bytes} {found : List (Except WireError Frame)}
      (other : first ≠ magic) (more : Taken (tail.dropWhile (· ≠ magic)) found rest) :
      Taken (first :: tail) (.error (.badMagic first) :: found) rest
  | undersized {crcHi crcLo lenHi lenLo : UInt8} {tail rest : Bytes}
      {found : List (Except WireError Frame)} (short : Bytes.uint16 lenHi lenLo < 3)
      (more : Taken (crcHi :: crcLo :: lenHi :: lenLo :: tail) found rest) :
      Taken (magic :: crcHi :: crcLo :: lenHi :: lenLo :: tail)
        (.error (.badLength (Bytes.uint16 lenHi lenLo)) :: found) rest
  | claimed {crcHi crcLo lenHi lenLo tx rx kind : UInt8} {body tail rest : Bytes}
      {found : List (Except WireError Frame)} (long : ¬Bytes.uint16 lenHi lenLo < 3)
      (whole : body.length = (Bytes.uint16 lenHi lenLo).toNat - 2) (more : Taken tail found rest) :
      Taken (magic :: crcHi :: crcLo :: lenHi :: lenLo :: tx :: rx :: kind :: (body ++ tail))
        (ofParts crcHi crcLo lenHi lenLo tx rx kind body :: found) rest

/-- Bytes that a decoder comes to the end of, so that what stands behind them is left to be read. -/
def Contained (bytes : Bytes) : Prop :=
  ∃ found, Taken bytes found []

/-- A magic byte for which the bytes behind it do not suffice: its length is not among them, or claims
more than there are. -/
inductive Reaches : Bytes → Prop where
  | cut {tail : Bytes} (few : tail.length < 4) : Reaches (magic :: tail)
  | beyond {crcHi crcLo lenHi lenLo : UInt8} {tail : Bytes} (long : ¬Bytes.uint16 lenHi lenLo < 3)
      (missing : tail.length < (Bytes.uint16 lenHi lenLo).toNat + 1) :
      Reaches (magic :: crcHi :: crcLo :: lenHi :: lenLo :: tail)

theorem three_le_of_not_lt {length : UInt16} (h : ¬length < 3) : 3 ≤ length.toNat :=
  UInt16.le_iff_toNat_le.mp (UInt16.not_lt.mp h)

/-- Behind a length stand the bytes that it claims, and what is taken off behind these. -/
theorem Taken.exists_whole (crcHi crcLo : UInt8) {lenHi lenLo : UInt8} {part tail rest : Bytes}
    {found : List (Except WireError Frame)} (long : ¬Bytes.uint16 lenHi lenLo < 3)
    (whole : part.length = (Bytes.uint16 lenHi lenLo).toNat + 1) (more : Taken tail found rest) :
    ∃ result, Taken (magic :: crcHi :: crcLo :: lenHi :: lenLo :: (part ++ tail))
      (result :: found) rest := by
  have hthree := three_le_of_not_lt long
  obtain ⟨tx, rx, kind, body, rfl⟩ := exists_of_three_le (show 3 ≤ part.length by omega)
  simp only [List.length_cons] at whole
  exact ⟨_, .claimed long (by omega) more⟩

/-- A decoder comes to the end of the bytes, or to a magic byte that reaches beyond it. -/
theorem exists_taken (bytes : Bytes) :
    ∃ found rest, Taken bytes found rest ∧ (rest = [] ∨ Reaches rest) := by
  match bytes with
  | [] => exact ⟨_, _, .nothing [], .inl rfl⟩
  | first :: tail =>
    by_cases hfirst : first = magic
    · subst hfirst
      match tail with
      | crcHi :: crcLo :: lenHi :: lenLo :: tail =>
        by_cases hshort : Bytes.uint16 lenHi lenLo < 3
        · -- only the magic byte is taken off
          obtain ⟨found, rest, htaken, hrest⟩ := exists_taken (crcHi :: crcLo :: lenHi :: lenLo :: tail)
          exact ⟨_, rest, .undersized hshort htaken, hrest⟩
        · by_cases hmissing : tail.length < (Bytes.uint16 lenHi lenLo).toNat + 1
          · exact ⟨_, _, .nothing _, .inr (.beyond hshort hmissing)⟩
          · -- as many bytes as the length claims are taken off
            obtain ⟨found, rest, htaken, hrest⟩ :=
              exists_taken (tail.drop ((Bytes.uint16 lenHi lenLo).toNat + 1))
            have hwhole : (tail.take ((Bytes.uint16 lenHi lenLo).toNat + 1)).length =
                (Bytes.uint16 lenHi lenLo).toNat + 1 :=
              List.length_take_of_le (Nat.le_of_not_lt hmissing)
            obtain ⟨result, hclaimed⟩ := htaken.exists_whole crcHi crcLo hshort hwhole
            rw [List.take_append_drop] at hclaimed
            exact ⟨_, rest, hclaimed, hrest⟩
      | [] | [_] | [_, _] | [_, _, _] =>
        exact ⟨_, _, .nothing _, .inr (.cut (by simp))⟩
    · obtain ⟨found, rest, htaken, hrest⟩ := exists_taken (tail.dropWhile (· ≠ magic))
      exact ⟨_, rest, .garbage hfirst htaken, hrest⟩
  termination_by bytes.length
  decreasing_by
    · simp
    · simp only [List.length_drop, List.length_cons]
      omega
    · have := length_dropWhile_le (· ≠ magic) tail
      simp only [List.length_cons]
      omega

/-- Nothing that reaches beyond its end is contained. -/
theorem Reaches.not_contained {bytes : Bytes} (h : Reaches bytes) : ¬Contained bytes := by
  rintro ⟨found, htaken⟩
  cases h with
  | cut few =>
    cases htaken with
    | garbage other => exact other rfl
    | undersized => simp at few; omega
    | claimed => simp at few; omega
  | beyond long missing =>
    cases htaken with
    | garbage other => exact other rfl
    | undersized short => exact long short
    | claimed _ whole =>
      have hthree := three_le_of_not_lt long
      simp only [List.length_cons, List.length_append] at missing
      omega

-- ---------------------------------------------------------------------------
-- The frames behind
-- ---------------------------------------------------------------------------

theorem dropWhile_append_magic (bytes rest : Bytes) :
    (bytes ++ magic :: rest).dropWhile (· ≠ magic) =
      bytes.dropWhile (· ≠ magic) ++ magic :: rest := by
  induction bytes with
  | nil => simp
  | cons b bytes ih =>
    by_cases hb : b = magic
    · simp [hb]
    · simpa [hb] using ih

/-- What is taken off does not depend on the frames that stand behind, as long as there is one. -/
theorem Taken.drain_append {bytes rest : Bytes} {found : List (Except WireError Frame)}
    (h : Taken bytes found rest) {later : Bytes} (hlater : 3 ≤ later.length) :
    drain (bytes ++ magic :: later) =
      (found ++ (drain (rest ++ magic :: later)).1, (drain (rest ++ magic :: later)).2) := by
  induction h with
  | nothing => rfl
  | @garbage first tail _ _ other _ ih =>
    have hfront : Front (first :: tail ++ magic :: later) (.error (.badMagic first))
        ((tail ++ magic :: later).dropWhile (· ≠ magic)) := .garbage _ other
    rw [drain_of_front hfront, dropWhile_append_magic, ih]
    rfl
  | @undersized crcHi crcLo lenHi lenLo tail _ _ short _ ih =>
    -- with the frame behind there are enough bytes to see the length
    obtain ⟨tx, rx, kind, more, hmore⟩ : ∃ tx rx kind more, tail ++ magic :: later =
        tx :: rx :: kind :: more := by
      refine exists_of_three_le ?_
      simp only [List.length_append, List.length_cons]
      omega
    have hfront : Front (magic :: crcHi :: crcLo :: lenHi :: lenLo :: tail ++ magic :: later)
        (.error (.badLength (Bytes.uint16 lenHi lenLo)))
        (crcHi :: crcLo :: lenHi :: lenLo :: tail ++ magic :: later) := by
      simp only [List.cons_append, hmore]
      exact .undersized more short
    rw [drain_of_front hfront, ih]
    rfl
  | @claimed crcHi crcLo lenHi lenLo tx rx kind body tail _ _ long whole _ ih =>
    have hfront : Front
        (magic :: crcHi :: crcLo :: lenHi :: lenLo :: tx :: rx :: kind :: (body ++ tail) ++
          magic :: later)
        (ofParts crcHi crcLo lenHi lenLo tx rx kind body) (tail ++ magic :: later) := by
      simp only [List.cons_append, List.append_assoc]
      exact .claimed _ long whole
    rw [drain_of_front hfront, ih]
    rfl

-- ---------------------------------------------------------------------------
-- What reaches beyond the end
-- ---------------------------------------------------------------------------

/-- Where a length claims more bytes than there are, nothing is found. -/
theorem next_of_missing {crcHi crcLo lenHi lenLo : UInt8} {tail : Bytes}
    (long : ¬Bytes.uint16 lenHi lenLo < 3)
    (missing : tail.length < (Bytes.uint16 lenHi lenLo).toNat + 1) :
    next (magic :: crcHi :: crcLo :: lenHi :: lenLo :: tail) = .incomplete := by
  rcases front_of_next (magic :: crcHi :: crcLo :: lenHi :: lenLo :: tail) with h | ⟨_, _, hfront⟩
  · exact h
  · cases hfront with
    | garbage _ other => exact absurd rfl other
    | undersized _ short => exact absurd short long
    | claimed _ _ whole =>
      have hthree := three_le_of_not_lt long
      simp only [List.length_cons, List.length_append] at missing
      omega

/-- Where there are as many bytes as a length claims, they are taken off, whatever they were meant
for. -/
theorem front_of_whole (crcHi crcLo : UInt8) {lenHi lenLo : UInt8} {tail : Bytes}
    (long : ¬Bytes.uint16 lenHi lenLo < 3)
    (whole : tail.length = (Bytes.uint16 lenHi lenLo).toNat + 1) (rest : Bytes) :
    ∃ tx rx kind body, tail = tx :: rx :: kind :: body ∧
      Front (magic :: crcHi :: crcLo :: lenHi :: lenLo :: (tail ++ rest))
        (ofParts crcHi crcLo lenHi lenLo tx rx kind body) rest := by
  have hthree := three_le_of_not_lt long
  obtain ⟨tx, rx, kind, body, rfl⟩ := exists_of_three_le (show 3 ≤ tail.length by omega)
  simp only [List.length_cons] at whole
  exact ⟨tx, rx, kind, body, rfl, .claimed rest long (by omega)⟩

theorem dropWhile_of_not_mem {bytes : Bytes} (h : magic ∉ bytes) :
    bytes.dropWhile (· ≠ magic) = [] := by
  have hskipped : (bytes ++ []).dropWhile (· ≠ magic) = [] := by
    rw [List.dropWhile_append_of_pos fun b hb => by simpa using ne_of_mem_of_not_mem hb h]
    rfl
  rwa [List.append_nil] at hskipped

/-- Bytes that start no frame are reported once. -/
theorem drain_of_not_mem {first : UInt8} {tail : Bytes} (h : magic ∉ first :: tail) :
    drain (first :: tail) = ([.error (.badMagic first)], []) := by
  obtain ⟨hfirst, htail⟩ := List.ne_and_not_mem_of_not_mem_cons h
  have hfront := Front.garbage tail (Ne.symm hfirst)
  rw [dropWhile_of_not_mem htail] at hfront
  rw [drain_of_front hfront, drain_of_incomplete rfl]

/-- One of two heartbeats is not what was found last. -/
theorem exists_heartbeat (found : List (Except WireError Frame)) :
    ∃ (later : Frame) (crcHi crcLo tx : UInt8), later.payload = [] ∧
      later.bytes = [magic, crcHi, crcLo, 0, 3, tx, 0x7F, 0x26, terminator] ∧
      magic ∉ [crcHi, crcLo, 0, 3, tx, 0x7F, 0x26, terminator] ∧ 0 < crcHi.toNat ∧ 0 < crcLo.toNat ∧
      found.getLast? ≠ some (.ok later) := by
  by_cases h : found.getLast? = some (.ok ⟨.heartbeat, 0x10, 0x7F, []⟩)
  · refine ⟨⟨.heartbeat, 0x11, 0x7F, []⟩, 171, 241, 0x11, rfl, by decide +kernel, by decide,
      by decide, by decide, ?_⟩
    rw [h]
    simp
  · exact ⟨⟨.heartbeat, 0x10, 0x7F, []⟩, 107, 160, 0x10, rfl, by decide +kernel, by decide,
      by decide, by decide, h⟩

/-- A length that claims more bytes than there are keeps the decoder waiting. -/
theorem next_of_large (crcHi crcLo hi lo : UInt8) {rest : Bytes}
    (hlarge : 12 < hi.toNat * 256 + lo.toNat) (hrest : rest.length ≤ 12) :
    next (magic :: crcHi :: crcLo :: hi :: lo :: rest) = .incomplete := by
  rw [← Bytes.toNat_uint16] at hlarge
  refine next_of_missing ?_ (by omega)
  rw [UInt16.lt_iff_toNat_lt]
  show ¬(Bytes.uint16 hi lo).toNat < 3
  omega

/-- A length that claims the first bytes of a frame behind: that frame, which has no payload and no
second magic byte, is taken off in whole or in part, and what is left of it starts no frame. -/
theorem getLast?_of_claimed {later : Frame} {bare : Bytes} (hpayload : later.payload = [])
    (hbytes : later.bytes = magic :: bare) (hbare : magic ∉ bare) (hlength : 4 < later.bytes.length)
    (crcHi crcLo : UInt8) {lenHi lenLo : UInt8} {tail : Bytes} (long : ¬Bytes.uint16 lenHi lenLo < 3)
    (missing : tail.length < (Bytes.uint16 lenHi lenLo).toNat + 1)
    (enough : (Bytes.uint16 lenHi lenLo).toNat + 1 ≤ (tail ++ later.bytes).length)
    (found : List (Except WireError Frame)) :
    (found ++ (drain (magic :: crcHi :: crcLo :: lenHi :: lenLo :: (tail ++ later.bytes))).1).getLast? ≠
      some (.ok later) := by
  rw [List.length_append] at enough
  generalize hcount : (Bytes.uint16 lenHi lenLo).toNat + 1 - tail.length = count
  have hwhole : (tail ++ later.bytes.take count).length = (Bytes.uint16 lenHi lenLo).toNat + 1 := by
    rw [List.length_append, List.length_take]
    omega
  obtain ⟨tx, rx, kind, body, hbody, hfront⟩ := front_of_whole crcHi crcLo long hwhole
    (later.bytes.drop count)
  rw [List.append_assoc, List.take_append_drop] at hfront
  rw [drain_of_front hfront]
  cases hrest : later.bytes.drop count with
  | nil =>
    -- a frame that was found would have a payload, which this one has not
    rw [drain_of_incomplete rfl, List.getLast?_concat]
    intro hfound
    obtain ⟨hend, -⟩ := ofParts_eq_ok (Option.some.inj hfound)
    rw [hpayload, List.nil_append] at hend
    have hfour := congrArg List.length hbody
    rw [hend, hwhole] at hfour
    have hall := List.drop_eq_nil_iff.mp hrest
    simp only [List.length_cons, List.length_nil] at hfour
    omega
  | cons first rest =>
    have hnone : magic ∉ first :: rest := by
      rw [← hrest, hbytes, ← Nat.succ_pred_eq_of_pos (n := count) (by omega), List.drop_succ_cons]
      exact fun hmem => hbare (List.mem_of_mem_drop hmem)
    rw [drain_of_not_mem hnone]
    simp

/-- Behind a magic byte that reaches beyond the end, a frame can be lost, whatever was found before. -/
theorem Reaches.loses {bytes : Bytes} (h : Reaches bytes) (found : List (Except WireError Frame)) :
    ∃ later : Frame, later.Fits ∧
      (found ++ (drain (bytes ++ later.bytes)).1).getLast? ≠ some (.ok later) := by
  obtain ⟨later, crcHi, crcLo, tx, hpayload, hbytes, hmagic, hhi, hlo, hlast⟩ := exists_heartbeat found
  have hfits : later.Fits := by
    rw [Fits, hpayload]
    exact Nat.zero_le _
  refine ⟨later, hfits, ?_⟩
  -- where the decoder waits for more bytes, nothing is found
  have hwaits : next (bytes ++ later.bytes) = .incomplete →
      (found ++ (drain (bytes ++ later.bytes)).1).getLast? ≠ some (.ok later) := by
    intro hnext
    rw [drain_of_incomplete hnext, List.append_nil]
    exact hlast
  cases h with
  | @cut tail few =>
    -- the length is made of bytes of the frame behind, and claims more than that has
    have hninety : magic.toNat = 90 := rfl
    refine hwaits ?_
    rw [hbytes]
    obtain _ | ⟨_, _ | ⟨_, _ | ⟨hi, _ | ⟨_, _⟩⟩⟩⟩ := tail
    · exact next_of_large _ _ crcLo 0 (by omega) (by simp)
    · exact next_of_large _ _ crcHi crcLo (by omega) (by simp)
    · exact next_of_large _ _ magic crcHi (by omega) (by simp)
    · exact next_of_large _ _ hi magic (by omega) (by simp)
    · simp only [List.length_cons] at few
      omega
  | @beyond hi lo lenHi lenLo tail long missing =>
    by_cases hmore : (tail ++ later.bytes).length < (Bytes.uint16 lenHi lenLo).toNat + 1
    · exact hwaits (next_of_missing long hmore)
    · have hlength : 4 < later.bytes.length := by rw [hbytes]; simp
      exact getLast?_of_claimed hpayload hbytes hmagic hlength hi lo long missing
        (Nat.le_of_not_lt hmore) found

-- ---------------------------------------------------------------------------
-- One byte of a frame
-- ---------------------------------------------------------------------------

/-- The length that bytes state where a frame has its length; none if there are too few. -/
def statedLength : Bytes → Nat
  | _ :: _ :: _ :: lenHi :: lenLo :: _ => (Bytes.uint16 lenHi lenLo).toNat
  | _ => 0

theorem contained_of_not_mem {bytes : Bytes} (h : magic ∉ bytes) : Contained bytes := by
  cases bytes with
  | nil => exact ⟨_, .nothing []⟩
  | cons first tail =>
    obtain ⟨hfirst, htail⟩ := List.ne_and_not_mem_of_not_mem_cons h
    have htaken : Taken (tail.dropWhile (· ≠ magic)) [] [] := by
      rw [dropWhile_of_not_mem htail]
      exact .nothing []
    exact ⟨_, .garbage (Ne.symm hfirst) htaken⟩

/-- A magic byte with no other behind it is contained exactly if there are as many bytes as its length
claims. -/
theorem contained_iff {crcHi crcLo lenHi lenLo : UInt8} {tail : Bytes}
    (honly : magic ∉ crcHi :: crcLo :: lenHi :: lenLo :: tail) (hlong : 3 ≤ tail.length) :
    Contained (magic :: crcHi :: crcLo :: lenHi :: lenLo :: tail) ↔
      (Bytes.uint16 lenHi lenLo).toNat < tail.length := by
  by_cases hshort : Bytes.uint16 lenHi lenLo < 3
  · obtain ⟨found, htaken⟩ := contained_of_not_mem honly
    have hless : (Bytes.uint16 lenHi lenLo).toNat < 3 := UInt16.lt_iff_toNat_lt.mp hshort
    exact iff_of_true ⟨_, .undersized hshort htaken⟩ (by omega)
  · by_cases hmissing : tail.length < (Bytes.uint16 lenHi lenLo).toNat + 1
    · exact iff_of_false (Reaches.beyond hshort hmissing).not_contained (by omega)
    · -- behind the bytes that are claimed stands nothing that starts a frame
      have hnone : magic ∉ tail.drop ((Bytes.uint16 lenHi lenLo).toNat + 1) := by
        intro hmem
        have htail := List.mem_of_mem_drop hmem
        simp [htail] at honly
      obtain ⟨found, htaken⟩ := contained_of_not_mem hnone
      obtain ⟨result, hclaimed⟩ := htaken.exists_whole crcHi crcLo hshort
        (List.length_take_of_le (Nat.le_of_not_lt hmissing))
      rw [List.take_append_drop] at hclaimed
      exact iff_of_true ⟨_, hclaimed⟩ (by omega)

/-- A frame of which one byte was hit: magic byte and length are what they were unless they were hit
themselves. -/
theorem set_bytes_eq {frame : Frame} (h : frame.Fits) (place : Nat) (byte : UInt8) :
    ∃ first crcHi crcLo lenHi lenLo tail,
      frame.bytes.set place byte = first :: crcHi :: crcLo :: lenHi :: lenLo :: tail ∧
      tail.length = statedLength frame.bytes + 1 ∧ 3 ≤ statedLength frame.bytes ∧
      (place ≠ 0 → first = magic) ∧
      (place ≠ 3 → place ≠ 4 → (Bytes.uint16 lenHi lenLo).toNat = statedLength frame.bytes) := by
  obtain ⟨crcHi, crcLo, lenHi, lenLo, middle, hbytes, hlong, hlength, -⟩ := bytes_eq_of_fits h
  have hstated : statedLength frame.bytes = middle.length := by rw [hbytes, statedLength, hlength]
  have hmiddle : (middle ++ [terminator]).length = middle.length + 1 := by simp
  rw [hstated, hbytes]
  match place with
  | 0 => exact ⟨byte, _, _, _, _, _, rfl, hmiddle, hlong, by simp, fun _ _ => hlength⟩
  | 1 => exact ⟨_, byte, _, _, _, _, rfl, hmiddle, hlong, fun _ => rfl, fun _ _ => hlength⟩
  | 2 => exact ⟨_, _, byte, _, _, _, rfl, hmiddle, hlong, fun _ => rfl, fun _ _ => hlength⟩
  | 3 => exact ⟨_, _, _, byte, _, _, rfl, hmiddle, hlong, fun _ => rfl, by simp⟩
  | 4 => exact ⟨_, _, _, _, byte, _, rfl, hmiddle, hlong, fun _ => rfl, by simp⟩
  | place + 5 =>
    refine ⟨_, _, _, _, _, _, rfl, ?_, hlong, fun _ => rfl, fun _ _ => hlength⟩
    rw [List.length_set, hmiddle]

theorem drain_bytes_append {frames : List Frame} (h : ∀ frame ∈ frames, frame.Fits) (rest : Bytes) :
    drain ((frames.map bytes).flatten ++ rest) =
      (frames.map .ok ++ (drain rest).1, (drain rest).2) := by
  induction frames with
  | nil => rfl
  | cons frame frames ih =>
    obtain ⟨hfits, hframes⟩ := List.forall_mem_cons.mp h
    have hfront : Front (frame.bytes ++ ((frames.map bytes).flatten ++ rest)) (.ok frame)
        ((frames.map bytes).flatten ++ rest) := front_iff_next.mpr (next_bytes_append hfits _)
    rw [List.map_cons, List.flatten_cons, List.append_assoc, drain_of_front hfront, ih hframes]
    rfl

/-- The bytes of frames begin with a magic byte, and more than a few follow. -/
theorem exists_magic_cons (frame : Frame) (frames : List Frame) :
    ∃ later, ((frame :: frames).map bytes).flatten = magic :: later ∧ 3 ≤ later.length := by
  rw [List.map_cons, List.flatten_cons, bytes, List.cons_append]
  refine ⟨_, rfl, ?_⟩
  simp only [List.length_append, covered, List.length_cons, Bytes.length_ofUInt16]
  omega

/-- Frames arrive one after the other, and one byte of one of them is not what it was.

The frames in front of the damaged one are read.  If a decoder comes to the end of the damaged one, then
what it finds in it does not depend on the frames around it, and those behind it are all read, with
nothing left over; otherwise there is a frame that is not read behind it.

A decoder comes to the end of it wherever it was hit but in its magic byte and in its length.  Where no
byte behind its first is a magic byte, this is so exactly if it does not state a larger length than it
had. -/
theorem frames_behind_read {frame : Frame} (hfits : frame.Fits) (place : Nat) (byte : UInt8) :
    (Contained (frame.bytes.set place byte) →
      ∃ found, ∀ before behind : List Frame, (∀ f ∈ before ++ behind, f.Fits) → behind ≠ [] →
        drain ((before.map bytes).flatten ++ frame.bytes.set place byte ++
            (behind.map bytes).flatten) =
          (before.map .ok ++ found ++ behind.map .ok, [])) ∧
    (¬Contained (frame.bytes.set place byte) →
      ∃ (behind : Frame) (found : List (Except WireError Frame)),
        behind.Fits ∧ found.getLast? ≠ some (.ok behind) ∧
        ∀ before : List Frame, (∀ f ∈ before, f.Fits) →
          (drain ((before.map bytes).flatten ++ frame.bytes.set place byte ++ behind.bytes)).1 =
            before.map .ok ++ found) ∧
    (place ≠ 0 → place ≠ 3 → place ≠ 4 → Contained (frame.bytes.set place byte)) ∧
    (magic ∉ (frame.bytes.set place byte).tail →
      (Contained (frame.bytes.set place byte) ↔
        statedLength (frame.bytes.set place byte) ≤ statedLength frame.bytes)) := by
  obtain ⟨first, crcHi, crcLo, lenHi, lenLo, tail, hdamaged, hlength, hlong, hfirst, hkept⟩ :=
    set_bytes_eq hfits place byte
  refine ⟨?_, ?_, ?_, ?_⟩
  · rintro ⟨found, htaken⟩
    refine ⟨found, fun before behind hframes hbehind => ?_⟩
    have hbefore : ∀ f ∈ before, f.Fits := fun f hf => hframes f (List.mem_append_left _ hf)
    have hbehindFits : ∀ f ∈ behind, f.Fits := fun f hf => hframes f (List.mem_append_right _ hf)
    obtain ⟨later, hlater, hthree⟩ : ∃ later, (behind.map bytes).flatten = magic :: later ∧
        3 ≤ later.length := by
      obtain ⟨f, fs, rfl⟩ := List.exists_cons_of_ne_nil hbehind
      exact exists_magic_cons f fs
    rw [List.append_assoc, drain_bytes_append hbefore, hlater, htaken.drain_append hthree,
      List.nil_append, ← hlater, drain_bytes hbehindFits, List.append_assoc]
  · intro hreaches
    obtain ⟨found, rest, htaken, hrest⟩ := exists_taken (frame.bytes.set place byte)
    rcases hrest with rfl | hrest
    · exact absurd ⟨found, htaken⟩ hreaches
    · obtain ⟨behind, hbehind, hlast⟩ := hrest.loses found
      obtain ⟨later, hlater, hthree⟩ := exists_magic_cons behind []
      refine ⟨behind, _, hbehind, hlast, fun before hbefore => ?_⟩
      rw [List.map_singleton, List.flatten_singleton] at hlater
      rw [List.append_assoc, drain_bytes_append hbefore, hlater, htaken.drain_append hthree]
  · intro hzero hthree hfour
    obtain rfl := hfirst hzero
    have hstated := hkept hthree hfour
    have hclaims : ¬Bytes.uint16 lenHi lenLo < 3 := by
      rw [UInt16.lt_iff_toNat_lt, hstated]
      exact Nat.not_lt.mpr hlong
    obtain ⟨result, htaken⟩ := (Taken.nothing []).exists_whole crcHi crcLo hclaims
      (show tail.length = _ by rw [hstated, hlength])
    rw [List.append_nil, ← hdamaged] at htaken
    exact ⟨_, htaken⟩
  · intro honly
    rw [hdamaged] at honly ⊢
    rw [statedLength]
    by_cases hmagic : first = magic
    · subst hmagic
      rw [contained_iff honly (by omega), hlength, Nat.lt_succ_iff]
    · -- the magic byte was hit, and the length was not
      have hzero : place = 0 := by
        by_contra hplace
        exact hmagic (hfirst hplace)
      have hnone : magic ∉ first :: crcHi :: crcLo :: lenHi :: lenLo :: tail :=
        List.not_mem_cons_of_ne_of_not_mem (Ne.symm hmagic) honly
      refine iff_of_true (contained_of_not_mem hnone) ?_
      exact Nat.le_of_eq (hkept (by omega) (by omega))

/-- A data frame with a length that was made shorter: what is left of it behind that length is
garbage, and the heartbeat behind it is read. -/
theorem frames_behind_read_shorter :
    Fits ⟨.data, 0x10, 0x7F, [65, 84]⟩ ∧
    Contained ((Frame.mk .data 0x10 0x7F [65, 84]).bytes.set 4 3) ∧
    ∃ found, drain ((Frame.mk .data 0x10 0x7F [65, 84]).bytes.set 4 3 ++
        (Frame.mk .heartbeat 0x11 0x7F []).bytes) =
      (found ++ [.ok ⟨.heartbeat, 0x11, 0x7F, []⟩], []) := by
  have hfits : Fits ⟨.data, 0x10, 0x7F, [65, 84]⟩ := Nat.le_of_ble_eq_true rfl
  have hheartbeat : Fits ⟨.heartbeat, 0x11, 0x7F, []⟩ := Nat.zero_le _
  have hbytes : (Frame.mk .data 0x10 0x7F [65, 84]).bytes =
      [90, 39, 232, 0, 5, 16, 127, 32, 65, 84, 13] := by decide +kernel
  obtain ⟨hread, -, -, hiff⟩ := frames_behind_read hfits 4 3
  have hcontained : Contained ((Frame.mk .data 0x10 0x7F [65, 84]).bytes.set 4 3) := by
    rw [hbytes] at hiff ⊢
    exact (hiff (by decide)).mpr (by decide)
  obtain ⟨found, hdrain⟩ := hread hcontained
  have hboth := hdrain [] [⟨.heartbeat, 0x11, 0x7F, []⟩] (by simpa using hheartbeat) (by simp)
  exact ⟨hfits, hcontained, found, by simpa using hboth⟩

/-- Two heartbeats, the first with a length that was made larger: with one byte more, the magic byte of
the second is dropped and the rest of it with it; with many more, the decoder waits for bytes that may
never come.  Either way the second is not read. -/
theorem heartbeat_behind_lost :
    drain ((Frame.mk .heartbeat 0x11 0x7F []).bytes.set 4 4 ++
        (Frame.mk .heartbeat 0x12 0x7F []).bytes) =
      ([.error .missingTerminator, .error (.badMagic 171)], []) ∧
    (drain ((Frame.mk .heartbeat 0x11 0x7F []).bytes.set 3 0xFF ++
        (Frame.mk .heartbeat 0x12 0x7F []).bytes)).1 = [] := by
  have hfirst : (Frame.mk .heartbeat 0x11 0x7F []).bytes =
      [90, 171, 241, 0, 3, 17, 127, 38, 13] := by decide +kernel
  have hsecond : (Frame.mk .heartbeat 0x12 0x7F []).bytes =
      [90, 171, 1, 0, 3, 18, 127, 38, 13] := by decide +kernel
  rw [hfirst, hsecond]
  constructor
  · have hfront : Front [90, 171, 241, 0, 4, 17, 127, 38, 13, 90, 171, 1, 0, 3, 18, 127, 38, 13]
        (.error .missingTerminator) [171, 1, 0, 3, 18, 127, 38, 13] :=
      front_iff_next.mpr (by decide)
    show drain [90, 171, 241, 0, 4, 17, 127, 38, 13, 90, 171, 1, 0, 3, 18, 127, 38, 13] = _
    rw [drain_of_front hfront, drain_of_not_mem (by decide)]
  · have hnext : next [90, 171, 241, 255, 3, 17, 127, 38, 13, 90, 171, 1, 0, 3, 18, 127, 38, 13] =
        .incomplete := by decide
    show (drain [90, 171, 241, 255, 3, 17, 127, 38, 13, 90, 171, 1, 0, 3, 18, 127, 38, 13]).1 = []
    rw [drain_of_incomplete hnext]

end Switchboard.Frame
