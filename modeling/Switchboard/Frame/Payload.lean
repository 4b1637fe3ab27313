import Switchboard.Frame.Error
import Switchboard.Token

/-!
# Frame payloads

The payload of a data frame starts with a token and a stream id, four bytes in all.  The payload of
the frame that a client opens the link with says what kind of client it is.
-/

namespace Switchboard

/-- The payload of a data frame. -/
structure DataPayload where
  token : Token
  streamId : UInt16
  body : Bytes
  deriving Repr, DecidableEq

namespace DataPayload

/-- Reads the payload of a data frame. -/
def parse : Bytes → Except WireError DataPayload
  | a :: b :: hi :: lo :: body => .ok ⟨⟨a, b⟩, Bytes.uint16 hi lo, body⟩
  | short => .error (.shortPayload 4 short.length)

/-- The bytes of the payload. -/
def encode (payload : DataPayload) : Bytes :=
  payload.token.bytes ++ Bytes.ofUInt16 payload.streamId ++ payload.body

end DataPayload

/-- The platform of a client. -/
inductive Platform where
  | windows
  | mac
  | unknown
  deriving Repr, DecidableEq

/-- How a platform is referred to. -/
def Platform.label : Platform → String
  | windows => "windows"
  | mac => "mac"
  | unknown => "unknown"

/-- What a client announces about itself when the link comes up. -/
structure ClientProfile where
  platform : Platform
  version : UInt16
  /-- Whether it can show colour art. -/
  color : Bool
  deriving Repr, DecidableEq

namespace ClientProfile

/-- A client that has announced nothing. -/
def unknown : ClientProfile := ⟨.unknown, 0, false⟩

/-- The platform that a byte stands for: a number or a letter. -/
def platformOf (b : UInt8) : Platform :=
  if b.toNat = 'W'.toNat ∨ b = 1 then .windows
  else if b.toNat = 'M'.toNat ∨ b = 2 then .mac
  else .unknown

/-- Reads an announcement: platform, two bytes of version, flags.  What is missing is unknown. -/
def ofAnnouncement : Bytes → ClientProfile
  | [] => unknown
  | [p] | [p, _] => ⟨platformOf p, 0, false⟩
  | p :: hi :: lo :: flags =>
    ⟨platformOf p, Bytes.uint16 hi lo, flags.head?.any fun f => f.toNat % 2 = 1⟩

end ClientProfile

end Switchboard
