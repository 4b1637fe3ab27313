import Switchboard.Text.Hex

/-!
# What can be wrong on the link

Every fault that reading or writing frames and messages can meet, with the one place that words it.
-/

namespace Switchboard

/-- The largest payload of a frame: what the length field can count beyond the three bytes before
the payload. -/
def maxFramePayload : Nat := 65532

/-- Why bytes on the link are refused. -/
inductive WireError where
  /-- A byte that starts no frame. -/
  | badMagic (found : UInt8)
  /-- A length too small to cover the fixed fields. -/
  | badLength (length : UInt16)
  | crcMismatch (expected actual : UInt16)
  | missingTerminator
  | unknownFrameKind (kind : UInt8)
  | payloadTooLarge (length : Nat)
  | shortPayload (need got : Nat)
  /-- Text that is not UTF-8. -/
  | badText
  deriving Repr, DecidableEq

/-- The wording of the error. -/
def WireError.message : WireError → String
  | badMagic found => s!"bad frame magic: 0x{String.ofList (Text.hexByte found)}"
  | badLength length => s!"bad frame length: {length}"
  | crcMismatch expected actual =>
    s!"frame crc mismatch: expected 0x{String.ofList (Text.hexWord expected)}, " ++
      s!"got 0x{String.ofList (Text.hexWord actual)}"
  | missingTerminator => "frame terminator missing"
  | unknownFrameKind kind => s!"unknown frame kind: 0x{String.ofList (Text.hexByte kind)}"
  | payloadTooLarge length => s!"payload length {length} exceeds maximum {maxFramePayload}"
  | shortPayload need got => s!"payload too short: need {need} bytes, got {got}"
  | badText => "text field is not valid utf-8"

end Switchboard
