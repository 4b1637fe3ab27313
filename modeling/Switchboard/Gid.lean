import Switchboard.Bytes
import Switchboard.Text.Blank
import Switchboard.Text.Decimal

/-!
# Global ids

A global id addresses a remote object, a piece of art or a form.  It has two or three numeric
components and two forms: as text the components stand in decimal between single dashes, on the wire
they take three or four bytes.  The number of components is part of the identity, so `1-2` and
`1-0-2` are different ids in either form.
-/

namespace Switchboard

/-- A hierarchical address with two or three components. -/
inductive Gid where
  | two (domain : UInt8) (id : UInt16)
  | three (domain major : UInt8) (id : UInt16)
  deriving Repr, DecidableEq

namespace Gid

/-- The components in order. -/
def components : Gid → List Nat
  | two domain id => [domain.toNat, id.toNat]
  | three domain major id => [domain.toNat, major.toNat, id.toNat]

-- ---------------------------------------------------------------------------
-- Wire form
-- ---------------------------------------------------------------------------

/-- The number of bytes on the wire. -/
def wireLength : Gid → Nat
  | two .. => 3
  | three .. => 4

/-- The wire form: one byte for each component but the last, which takes two. -/
def encode : Gid → Bytes
  | two domain id => domain :: Bytes.ofUInt16 id
  | three domain major id => domain :: major :: Bytes.ofUInt16 id

/-- Reads a wire form of exactly three or four bytes. -/
def decode? : Bytes → Option Gid
  | [domain, hi, lo] => some (two domain (Bytes.uint16 hi lo))
  | [domain, major, hi, lo] => some (three domain major (Bytes.uint16 hi lo))
  | _ => none

-- ---------------------------------------------------------------------------
-- Text form
-- ---------------------------------------------------------------------------

/-- The text form, character by character. -/
def chars (gid : Gid) : List Char :=
  List.intercalate ['-'] (gid.components.map Text.decimal)

/-- The text form. -/
def text (gid : Gid) : String :=
  String.ofList gid.chars

/-- A number in the range of one byte. -/
def byte? (cs : List Char) : Option UInt8 :=
  (Text.decimalBelow? 256 cs).map UInt8.ofNat

/-- A number in the range of two bytes. -/
def word? (cs : List Char) : Option UInt16 :=
  (Text.decimalBelow? 65536 cs).map UInt16.ofNat

/-- Reads a text form.  White space around it is ignored; the components are runs of digits whose
values fit their width. -/
def ofChars? (cs : List Char) : Option Gid :=
  match (Text.trim cs).splitOn '-' with
  | [a, b] => do return two (← byte? a) (← word? b)
  | [a, b, c] => do return three (← byte? a) (← byte? b) (← word? c)
  | _ => none

/-- Reads a text form. -/
def parse? (s : String) : Option Gid :=
  ofChars? s.toList

end Gid

end Switchboard
