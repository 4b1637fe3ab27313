/-!
# Bytes

Everything that is stored or sent is a finite sequence of bytes.  Multi-byte integers travel most
significant byte first; this module holds the two widths the wire formats use, in both directions.
-/

namespace Switchboard

/-- A finite sequence of bytes. -/
abbrev Bytes := List UInt8

namespace Bytes

/-- The two bytes of a 16-bit value, most significant first. -/
def ofUInt16 (v : UInt16) : Bytes :=
  [UInt8.ofNat (v.toNat / 256), UInt8.ofNat v.toNat]

/-- The four bytes of a 32-bit value, most significant first. -/
def ofUInt32 (v : UInt32) : Bytes :=
  [UInt8.ofNat (v.toNat / 16777216), UInt8.ofNat (v.toNat / 65536),
    UInt8.ofNat (v.toNat / 256), UInt8.ofNat v.toNat]

/-- The value that bytes denote when read most significant first. -/
def toNat (bytes : Bytes) : Nat :=
  bytes.foldl (fun n b => n * 256 + b.toNat) 0

/-- The 16-bit value of two bytes, most significant first. -/
def uint16 (hi lo : UInt8) : UInt16 :=
  UInt16.ofNat (toNat [hi, lo])

/-- The 32-bit value of four bytes, most significant first. -/
def uint32 (a b c d : UInt8) : UInt32 :=
  UInt32.ofNat (toNat [a, b, c, d])

/-- The first four bytes as a 32-bit value, with the bytes that follow them. -/
def uint32? : Bytes → Option (UInt32 × Bytes)
  | a :: b :: c :: d :: rest => some (uint32 a b c d, rest)
  | _ => none

theorem length_ofUInt16 (v : UInt16) : (ofUInt16 v).length = 2 := rfl

theorem length_ofUInt32 (v : UInt32) : (ofUInt32 v).length = 4 := rfl

end Bytes

end Switchboard
