import Switchboard.Frame.Basic
import Switchboard.Frame.Payload

/-!
# Client messages

What a client says in data frames.  Messages about a transfer start with its id in four bytes; text
fields lose trailing zero bytes; what follows the fixed part of a message is ignored.
-/

namespace Switchboard

/-- A message from a client. -/
inductive ClientMessage where
  | signOn (screenName : String)
  | downloadAck (id : UInt32)
  | downloadConfirm (id : UInt32)
  | cancel (id : UInt32)
  | uploadPicked (id : UInt32) (filename : String)
  | uploadStats (id size : UInt32)
  | uploadData (id : UInt32) (data : Bytes)
  | uploadEnd (id : UInt32)
  /-- A token that means nothing to the server. -/
  | other (token : Token) (data : Bytes)
  deriving Repr, DecidableEq

/-- The transfer id at the front of a message, with the bytes after it. -/
def transferId (data : Bytes) : Except WireError (UInt32 × Bytes) :=
  match Bytes.uint32? data with
  | some found => .ok found
  | none => .error (.shortPayload 4 data.length)

/-- The transfer id at the front of a download segment or of the end of a download. -/
def segmentTransferId? (body : Bytes) : Option UInt32 :=
  (Bytes.uint32? body).map (·.1)

/-- A text field, without the zero characters at its end. -/
def textField (data : Bytes) : Except WireError String :=
  match Text.utf8? data with
  | some s => .ok (String.ofList (s.toList.reverse.dropWhile (· == '\x00')).reverse)
  | none => .error .badText

namespace ClientMessage

/-- Reads a message. -/
def parse (token : Token) (data : Bytes) : Except WireError ClientMessage := do
  if token = .signOn then return signOn (← textField data)
  else if token = .downloadAck then return downloadAck (← transferId data).1
  else if token = .downloadConfirm then return downloadConfirm (← transferId data).1
  else if token = .cancel then return cancel (← transferId data).1
  else if token = .uploadPicked then
    let (id, rest) ← transferId data
    return uploadPicked id (← textField rest)
  else if token = .uploadStats then
    let (id, rest) ← transferId data
    match Bytes.uint32? rest with
    | some (size, _) => return uploadStats id size
    | none => .error (.shortPayload 8 data.length)
  else if token = .uploadData then
    let (id, rest) ← transferId data
    return uploadData id rest
  else if token = .uploadEnd then return uploadEnd (← transferId data).1
  else return other token data

/-- The token and body of a message, as a client sends them. -/
def encode : ClientMessage → Token × Bytes
  | signOn screenName => (.signOn, Text.utf8 screenName)
  | downloadAck id => (.downloadAck, Bytes.ofUInt32 id)
  | downloadConfirm id => (.downloadConfirm, Bytes.ofUInt32 id)
  | cancel id => (.cancel, Bytes.ofUInt32 id)
  | uploadPicked id filename => (.uploadPicked, Bytes.ofUInt32 id ++ Text.utf8 filename)
  | uploadStats id size => (.uploadStats, Bytes.ofUInt32 id ++ Bytes.ofUInt32 size)
  | uploadData id data => (.uploadData, Bytes.ofUInt32 id ++ data)
  | uploadEnd id => (.uploadEnd, Bytes.ofUInt32 id)
  | other token data => (token, data)

/-- The frame in which a client sends a message, outside any stream. -/
def frame (message : ClientMessage) (tx rx : UInt8) : Frame :=
  let (token, body) := message.encode
  ⟨.data, tx, rx, DataPayload.encode ⟨token, 0, body⟩⟩

end ClientMessage

/-- The body of a download segment. -/
def downloadSegment (id : UInt32) (bytes : Bytes) : Bytes :=
  Bytes.ofUInt32 id ++ bytes

/-- The body of the message that ends a download of `total` bytes. -/
def downloadEnd (id total : UInt32) : Bytes :=
  Bytes.ofUInt32 id ++ Bytes.ofUInt32 total

end Switchboard
