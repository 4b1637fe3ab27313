import Switchboard.Frame.Checksum
import Switchboard.Frame.Error

/-!
# Frames

Every byte between server and client travels in a frame:

    [magic][checksum 2][length 2][tx][rx][kind][payload ...][terminator]

The length counts the two sequence numbers, the kind and the payload.  The checksum covers the
length and everything up to the end of the payload.
-/

namespace Switchboard

/-- The kinds of frame. -/
inductive FrameKind where
  | data
  | ss
  | ssr
  | init
  | ack
  | nak
  | heartbeat
  deriving Repr, DecidableEq

namespace FrameKind

/-- The byte that stands for the kind. -/
def byte : FrameKind → UInt8
  | data => 0x20
  | ss => 0x21
  | ssr => 0x22
  | init => 0x23
  | ack => 0x24
  | nak => 0x25
  | heartbeat => 0x26

/-- All kinds. -/
def all : List FrameKind := [data, ss, ssr, init, ack, nak, heartbeat]

/-- The kind that a byte stands for. -/
def ofByte? (b : UInt8) : Option FrameKind :=
  all.find? (·.byte == b)

/-- The kind that a byte stands for. -/
def ofByte (b : UInt8) : Except WireError FrameKind :=
  match ofByte? b with
  | some kind => .ok kind
  | none => .error (.unknownFrameKind b)

end FrameKind

/-- A frame: its kind, the sender's sequence number, the last one the sender received, and the
payload. -/
structure Frame where
  kind : FrameKind
  tx : UInt8
  rx : UInt8
  payload : Bytes
  deriving Repr, DecidableEq

namespace Frame

/-- The byte that starts a frame. -/
def magic : UInt8 := 0x5A

/-- The byte that ends a frame. -/
def terminator : UInt8 := 0x0D

/-- The smallest and the largest sequence number. -/
def firstSeq : UInt8 := 0x10

@[inherit_doc firstSeq]
def lastSeq : UInt8 := 0x7F

/-- The sequence number after the given one; the last is followed by the first, and so is a number
out of range. -/
def nextSeq (seq : UInt8) : UInt8 :=
  if firstSeq ≤ seq ∧ seq < lastSeq then seq + 1 else firstSeq

/-- The bytes that the checksum covers. -/
def covered (frame : Frame) : Bytes :=
  Bytes.ofUInt16 (UInt16.ofNat (3 + frame.payload.length)) ++
    frame.tx :: frame.rx :: frame.kind.byte :: frame.payload

/-- The bytes of a frame. -/
def bytes (frame : Frame) : Bytes :=
  magic :: (Bytes.ofUInt16 (crc16 frame.covered) ++ (frame.covered ++ [terminator]))

/-- The bytes of a frame whose payload the length field can count. -/
def encode (frame : Frame) : Except WireError Bytes :=
  let count := frame.payload.length
  if maxFramePayload < count then .error (.payloadTooLarge count) else .ok frame.bytes

end Frame

end Switchboard
