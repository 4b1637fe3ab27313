import Switchboard.Text.Utf8

/-!
# Tokens

A token is the two-byte key at the front of every data payload that says what the rest is.  Streams
of atoms travel under one token; file transfers have tokens of their own, so that a client can route
their segments without reading atoms.
-/

namespace Switchboard

/-- A two-byte routing key. -/
structure Token where
  first : UInt8
  second : UInt8
  deriving Repr, DecidableEq

namespace Token

/-- The token that two ASCII characters spell. -/
def ofChars (first second : Char) : Token :=
  ⟨UInt8.ofNat first.toNat, UInt8.ofNat second.toNat⟩

/-- A stream of atoms, sent to the client. -/
def stream : Token := ofChars 'A' 'T'

/-- A client signing on under a screen name. -/
def signOn : Token := ofChars 'S' 'N'

/-- A segment of a download. -/
def downloadData : Token := ofChars 'F' '7'

/-- The end of a download. -/
def downloadEnd : Token := ofChars 'F' '9'

/-- The client accepts a download. -/
def downloadAck : Token := ofChars 't' 'A'

/-- The client has stored a download. -/
def downloadConfirm : Token := ofChars 't' 'C'

/-- The client cancels a transfer. -/
def cancel : Token := ofChars 't' 'X'

/-- The client has picked a file to upload. -/
def uploadPicked : Token := ofChars 'u' 'P'

/-- The size of the file to upload. -/
def uploadStats : Token := ofChars 'u' 'S'

/-- A segment of an upload. -/
def uploadData : Token := ofChars 'u' 'D'

/-- The end of an upload. -/
def uploadEnd : Token := ofChars 'u' 'E'

/-- The two bytes in order. -/
def bytes (token : Token) : Bytes :=
  [token.first, token.second]

/-- The token as text, for display only. -/
def text (token : Token) : String :=
  Text.lossy token.bytes

end Token

end Switchboard
