import Switchboard.Bytes

/-!
# UTF-8

Text travels as UTF-8.  Reading is strict: anything but the shortest form of a Unicode scalar value
is refused.  `lossy` is the forgiving reading used where bytes are only shown: each maximal run of
bytes that begins a character without completing it becomes one replacement character.
-/

namespace Switchboard.Text

/-- The UTF-8 form of a text. -/
def utf8 (s : String) : Bytes :=
  s.toByteArray.data.toList

/-- The text with the given UTF-8 form, if there is one. -/
def utf8? (bytes : Bytes) : Option String :=
  String.fromUTF8? ⟨bytes.toArray⟩

/-- The replacement character. -/
def replacement : Char := '\ufffd'

/-- Whether a byte continues a character. -/
def isContinuation (b : UInt8) : Bool :=
  0x80 ≤ b && b ≤ 0xBF

/-- How many bytes a character with this first byte has, and the range of its second byte.  A
single-byte character and a byte that begins no character have no entry. -/
def leadByte? (b : UInt8) : Option (Nat × UInt8 × UInt8) :=
  if 0xC2 ≤ b && b ≤ 0xDF then some (2, 0x80, 0xBF)
  else if b == 0xE0 then some (3, 0xA0, 0xBF)
  else if b == 0xED then some (3, 0x80, 0x9F)
  else if 0xE1 ≤ b && b ≤ 0xEF then some (3, 0x80, 0xBF)
  else if b == 0xF0 then some (4, 0x90, 0xBF)
  else if 0xF1 ≤ b && b ≤ 0xF3 then some (4, 0x80, 0xBF)
  else if b == 0xF4 then some (4, 0x80, 0x8F)
  else none

/-- How many of the bytes after a first byte belong to its character: those that may follow it, up
to the character's length. -/
def tailLength (b : UInt8) (rest : Bytes) : Nat :=
  match leadByte? b, rest with
  | some (count, lo, hi), second :: more =>
    if lo ≤ second && second ≤ hi then
      1 + ((more.take (count - 2)).takeWhile isContinuation).length
    else 0
  | _, _ => 0

/-- The bytes as text, with a replacement character for every malformed run. -/
def lossyChars : Bytes → List Char
  | [] => []
  | b :: rest =>
    let size := tailLength b rest
    let char := match utf8? (b :: rest.take size) with
      | some s => s.toList
      | none => [replacement]
    char ++ lossyChars (rest.drop size)
  termination_by bytes => bytes.length
  decreasing_by simp only [List.length_drop, List.length_cons]; omega

/-- The bytes as text, with a replacement character for every malformed run. -/
def lossy (bytes : Bytes) : String :=
  String.ofList (lossyChars bytes)

end Switchboard.Text
