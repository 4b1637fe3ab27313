import Switchboard.Atom.Encoding
import Switchboard.Script.Error
import Switchboard.Token

/-!
# Chunks

An encoded stream is sent in chunks that each fit one frame.  A chunk may end anywhere inside the
data of an atom, but never inside its tag and length, at whatever level the atom stands: a header
that would be cut moves to the next chunk as a whole.
-/

namespace Switchboard

/-- A piece of a message, small enough for one frame. -/
structure Chunk where
  token : Token
  streamId : UInt16
  /-- The position of the chunk in its message, from zero, as far as 32 bits count it. -/
  index : Nat
  /-- Whether this is the final chunk of its message. -/
  last : Bool
  body : Bytes
  /-- What the message is, for diagnostics. -/
  label : String
  deriving Repr, DecidableEq

namespace Chunk

/-- The bytes of a data payload before its body: a token and a stream id. -/
def headLength : Nat := 4

/-- The longest header of an atom: two bytes of tag and two of length. -/
def maxHeader : Nat := 4

/-- The size of the frame payload that carries the chunk. -/
def payloadLength (chunk : Chunk) : Nat :=
  headLength + chunk.body.length

/-- A message of one chunk. -/
def single (token : Token) (streamId : UInt16) (body : Bytes) (label : String) : Chunk :=
  ⟨token, streamId, 0, true, body, label⟩

/-- The size of the piece from `pos` that would reach to `stop`: it ends earlier if the first of the
given spans starts within it. -/
def pieceSize (pos stop : Nat) : List Span → Nat
  | [] => stop - pos
  | span :: _ => if pos < span.offset ∧ span.offset < stop then span.offset - pos else stop - pos

theorem pieceSize_pos {pos stop : Nat} (h : pos < stop) (spans : List Span) :
    0 < pieceSize pos stop spans := by
  unfold pieceSize
  split
  · omega
  · split <;> omega

/-- Cuts the rest of a stream, which starts at `pos`, into pieces of at most `capacity` bytes.
`spans` are those of the atoms whose header does not end before `pos`, and `done` holds the pieces
before, latest first. -/
def cut (capacity : Nat) (positive : 0 < capacity) (pos : Nat) (spans : List Span)
    (done : List Bytes) : Bytes → List Bytes
  | [] => done.reverse
  | byte :: more =>
    let rest := byte :: more
    let stop := pos + (rest.take capacity).length
    let later := spans.dropWhile fun span => span.offset + span.headerLength ≤ stop
    let size := pieceSize pos stop later
    cut capacity positive (pos + size) later (rest.take size :: done) (rest.drop size)
  termination_by rest => rest.length
  decreasing_by
    have hlt : pos < pos + ((byte :: more).take capacity).length := by
      rw [List.length_take, List.length_cons]; omega
    have := pieceSize_pos hlt (spans.dropWhile fun span =>
      span.offset + span.headerLength ≤ pos + ((byte :: more).take capacity).length)
    simp only [List.length_drop, List.length_cons]
    omega

/-- The pieces of a message as chunks, counted from `index`. -/
def number (token : Token) (streamId : UInt16) (label : String) (index : Nat) :
    List Bytes → List Chunk
  | [] => []
  | [body] => [⟨token, streamId, (UInt32.ofNat index).toNat, true, body, label⟩]
  | body :: next :: rest =>
    ⟨token, streamId, (UInt32.ofNat index).toNat, false, body, label⟩ ::
      number token streamId label (index + 1) (next :: rest)

/-- Splits an encoded stream into chunks whose frame payload is at most `limit` bytes. -/
def ofStream (token : Token) (streamId : UInt16) (encoded : Encoded) (limit : Nat)
    (label : String) : Except CompileError (List Chunk) :=
  if h : headLength + maxHeader ≤ limit then
    have : 0 < limit - headLength := by
      simp only [headLength, maxHeader] at h ⊢; omega
    .ok (number token streamId label 0
      (cut (limit - headLength) this 0 encoded.spans [] encoded.bytes))
  else .error (.frameTooSmall limit)

/-- The bodies of the chunks one after the other. -/
def reassemble (chunks : List Chunk) : Bytes :=
  chunks.flatMap (·.body)

end Chunk

end Switchboard
