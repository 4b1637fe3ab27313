import Switchboard.Frame.Decoder
import Switchboard.Frame.Payload
import Switchboard.Proofs.Bytes

/-!
# Frames read back

Main results:

* `Frame.next_bytes_append`: a frame is read back from in front of whatever follows it.
* `Frame.drain_bytes`: frames written one after the other are read back, each once and in order.
* `DataPayload.parse_encode`: so is the payload of a data frame.
-/

namespace Switchboard

theorem FrameKind.ofByte_byte (kind : FrameKind) : ofByte kind.byte = .ok kind := by
  cases kind <;> rfl

theorem FrameKind.byte_of_ofByte {b : UInt8} {kind : FrameKind} (h : ofByte b = .ok kind) :
    kind.byte = b := by
  unfold ofByte at h
  split at h
  · next hfound =>
    cases h
    simpa using List.find?_some hfound
  · cases h

namespace Frame

/-- Whether the length field can count the payload of a frame. -/
def Fits (frame : Frame) : Prop :=
  frame.payload.length ≤ maxFramePayload

theorem encode_of_fits {frame : Frame} (h : frame.Fits) : frame.encode = .ok frame.bytes :=
  if_neg (Nat.not_lt.mpr h)

theorem encode_of_not_fits {frame : Frame} (h : ¬frame.Fits) :
    frame.encode = .error (.payloadTooLarge frame.payload.length) :=
  if_pos (Nat.lt_of_not_le h)

theorem encode_eq_ok_iff {frame : Frame} {written : Bytes} :
    frame.encode = .ok written ↔ frame.Fits ∧ written = frame.bytes := by
  by_cases h : frame.Fits
  · rw [encode_of_fits h, Except.ok.injEq]
    exact ⟨fun heq => ⟨h, heq.symm⟩, fun hboth => hboth.2.symm⟩
  · rw [encode_of_not_fits h]
    exact iff_of_false (fun herror => nomatch herror) fun hboth => h hboth.1

/-- The part of a frame that its length field claims is what was written there. -/
theorem ofParts_bytes (frame : Frame) {lenHi lenLo crcHi crcLo : UInt8}
    (hlength : Bytes.ofUInt16 (UInt16.ofNat (3 + frame.payload.length)) = [lenHi, lenLo])
    (hcrc : Bytes.ofUInt16 (crc16 frame.covered) = [crcHi, crcLo]) :
    ofParts crcHi crcLo lenHi lenLo frame.tx frame.rx frame.kind.byte
      (frame.payload ++ [terminator]) = .ok frame := by
  -- the checksum is taken over the same bytes again
  have hcovered : lenHi :: lenLo :: frame.tx :: frame.rx :: frame.kind.byte :: frame.payload =
      frame.covered := by
    rw [covered, hlength]
    rfl
  rw [ofParts, List.getLast?_concat]
  simp only [List.dropLast_concat, hcovered, Bytes.uint16_ofUInt16 hcrc, FrameKind.ofByte_byte,
    ne_eq, not_true_eq_false, ↓reduceIte]

/-- A frame is read back from in front of whatever follows it. -/
theorem next_bytes_append {frame : Frame} (h : frame.Fits) (rest : Bytes) :
    next (frame.bytes ++ rest) = .frame frame rest := by
  obtain ⟨crcHi, crcLo, hcrc⟩ := Bytes.exists_ofUInt16 (crc16 frame.covered)
  obtain ⟨lenHi, lenLo, hlen⟩ := Bytes.exists_ofUInt16 (UInt16.ofNat (3 + frame.payload.length))
  have hbytes : frame.bytes ++ rest = magic :: crcHi :: crcLo :: lenHi :: lenLo :: frame.tx ::
      frame.rx :: frame.kind.byte :: (frame.payload ++ [terminator] ++ rest) := by
    rw [bytes, hcrc, covered, hlen]
    simp
  -- the length field holds the number of bytes behind it, less the last
  have hcount : (UInt16.ofNat (3 + frame.payload.length)).toNat = 3 + frame.payload.length := by
    rw [Fits, maxFramePayload] at h
    rw [UInt16.toNat_ofNat']
    omega
  have hmin : ¬UInt16.ofNat (3 + frame.payload.length) < 3 := by
    rw [UInt16.lt_iff_toNat_lt, hcount]
    show ¬3 + frame.payload.length < 3
    omega
  -- sequence numbers and kind are part of that length, while the terminator is not
  have hbody : (frame.payload ++ [terminator]).length = 3 + frame.payload.length - 2 := by
    rw [List.length_append, List.length_singleton]
    omega
  rw [hbytes, next, if_neg (not_not_intro rfl)]
  simp only [Bytes.uint16_ofUInt16 hlen, hcount]
  rw [if_neg hmin, List.take_left' hbody, if_neg (by omega), ofParts_bytes frame hlen hcrc,
    List.drop_left' hbody]

theorem drainOnto_bytes_append {frame : Frame} (h : frame.Fits)
    (found : List (Except WireError Frame)) (rest : Bytes) :
    drainOnto found (frame.bytes ++ rest) = drainOnto (.ok frame :: found) rest := by
  rw [drainOnto]
  split
  · next hnext => rw [next_bytes_append h] at hnext; cases hnext
  · next hnext => rw [next_bytes_append h] at hnext; cases hnext; rfl
  · next hnext => rw [next_bytes_append h] at hnext; cases hnext

theorem drainOnto_bytes {frames : List Frame} (h : ∀ frame ∈ frames, frame.Fits)
    (found : List (Except WireError Frame)) :
    drainOnto found (frames.map bytes).flatten = (found.reverse ++ frames.map .ok, []) := by
  induction frames generalizing found with
  | nil =>
    rw [List.map_nil, List.flatten_nil, drainOnto, List.map_nil, List.append_nil]
    split
    · rfl
    · next hnext => cases hnext
    · next hnext => cases hnext
  | cons frame frames ih =>
    rw [List.map_cons, List.flatten_cons, drainOnto_bytes_append (h frame (List.mem_cons_self ..)),
      ih (fun f hf => h f (List.mem_cons_of_mem _ hf)), List.reverse_cons, List.append_assoc]
    rfl

/-- Frames written one after the other are read back, each once and in order. -/
theorem drain_bytes {frames : List Frame} (h : ∀ frame ∈ frames, frame.Fits) :
    drain (frames.map bytes).flatten = (frames.map .ok, []) :=
  drainOnto_bytes h []

end Frame

namespace DataPayload

theorem length_encode (payload : DataPayload) : payload.encode.length = 4 + payload.body.length := by
  rw [encode, List.length_append, List.length_append, Bytes.length_ofUInt16]
  rfl

/-- The payload of a data frame is read back. -/
theorem parse_encode (payload : DataPayload) : parse payload.encode = .ok payload := by
  show Except.ok (⟨payload.token, Bytes.uint16 _ _, payload.body⟩ : DataPayload) = _
  rw [Bytes.uint16_ofUInt16 (v := payload.streamId) rfl]

end DataPayload

end Switchboard
