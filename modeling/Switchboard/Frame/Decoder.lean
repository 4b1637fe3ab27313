import Switchboard.Frame.Basic

/-!
# Reading frames

Bytes arrive in pieces of any size and are appended to a buffer; `Frame.next` takes the next frame
off the front of it.  After a fault the offending bytes are dropped, so that the next call starts at
a byte that may begin a frame.

Main results: `Frame.length_of_next_frame` and `Frame.length_of_next_fault`, every step that finds
something makes the buffer shorter, so `Frame.drain` ends.
-/

namespace Switchboard

/-- What the front of a buffer holds, with the bytes after it. -/
inductive FrameStep where
  /-- Not enough bytes to tell. -/
  | incomplete
  | frame (frame : Frame) (rest : Bytes)
  | fault (error : WireError) (rest : Bytes)
  deriving Repr, DecidableEq

namespace Frame

/-- Reads a frame from the part of the buffer that its length field claims: the checksum bytes, the
length bytes and the rest up to where the terminator should be. -/
def ofParts (crcHi crcLo lenHi lenLo tx rx kind : UInt8) (body : Bytes) :
    Except WireError Frame :=
  match body.getLast? with
  | some last =>
    if last ≠ terminator then .error .missingTerminator
    else
      let payload := body.dropLast
      let expected := Bytes.uint16 crcHi crcLo
      let actual := crc16 (lenHi :: lenLo :: tx :: rx :: kind :: payload)
      if expected ≠ actual then .error (.crcMismatch expected actual)
      else
        match FrameKind.ofByte kind with
        | .ok kind => .ok ⟨kind, tx, rx, payload⟩
        | .error error => .error error
  | none => .error .missingTerminator

/-- What the front of a buffer holds. -/
def next : Bytes → FrameStep
  | [] => .incomplete
  | first :: rest =>
    if first ≠ magic then .fault (.badMagic first) (rest.dropWhile (· ≠ magic))
    else
      match rest with
      | crcHi :: crcLo :: lenHi :: lenLo :: tx :: rx :: kind :: more =>
        let length := Bytes.uint16 lenHi lenLo
        if length < 3 then .fault (.badLength length) rest
        else
          -- The payload and the terminator.
          let count := length.toNat - 2
          let body := more.take count
          if body.length < count then .incomplete
          else
            match ofParts crcHi crcLo lenHi lenLo tx rx kind body with
            | .ok frame => .frame frame (more.drop count)
            | .error error => .fault error (more.drop count)
      | _ => .incomplete

theorem length_dropWhile_le (p : UInt8 → Bool) (bytes : Bytes) :
    (bytes.dropWhile p).length ≤ bytes.length :=
  (List.dropWhile_sublist p).length_le

/-- A step that finds a frame makes the buffer shorter. -/
theorem length_of_next_frame {buffer rest : Bytes} {frame : Frame}
    (h : next buffer = .frame frame rest) : rest.length < buffer.length := by
  unfold next at h
  split at h
  · cases h
  · split at h
    · cases h
    · split at h
      · dsimp only at h
        split at h
        · cases h
        · split at h
          · cases h
          · split at h <;> cases h
            simp only [List.length_drop, List.length_cons]
            omega
      · cases h

/-- A step that finds a fault makes the buffer shorter. -/
theorem length_of_next_fault {buffer rest : Bytes} {error : WireError}
    (h : next buffer = .fault error rest) : rest.length < buffer.length := by
  unfold next at h
  split at h
  · cases h
  · split at h
    · cases h
      have := length_dropWhile_le (· ≠ magic) ‹Bytes›
      simp only [List.length_cons]
      omega
    · split at h
      · dsimp only at h
        split at h
        · cases h
          simp only [List.length_cons]
          omega
        · split at h
          · cases h
          · split at h <;> cases h
            simp only [List.length_drop, List.length_cons]
            omega
      · cases h

/-- Takes everything off the front of a buffer that is complete: the frames and faults found, after
those found before (latest first), and the bytes that remain. -/
def drainOnto (found : List (Except WireError Frame)) (buffer : Bytes) :
    List (Except WireError Frame) × Bytes :=
  match h : next buffer with
  | .incomplete => (found.reverse, buffer)
  | .frame frame rest =>
    have := length_of_next_frame h
    drainOnto (.ok frame :: found) rest
  | .fault error rest =>
    have := length_of_next_fault h
    drainOnto (.error error :: found) rest
  termination_by buffer.length

/-- Takes everything off the front of a buffer that is complete. -/
def drain (buffer : Bytes) : List (Except WireError Frame) × Bytes :=
  drainOnto [] buffer

end Frame

end Switchboard
