import Switchboard.Bytes

/-!
# Checksum

Frames are protected by a cyclic redundancy check of sixteen bits: the reflected polynomial
`x¹⁶ + x¹⁵ + x² + 1`, starting from zero, without a final inversion.
-/

namespace Switchboard

/-- One bit of the division: shifts the remainder, and subtracts the polynomial if a one falls
out. -/
def crcBit (crc : UInt16) : UInt16 :=
  if crc &&& 1 = 1 then (crc >>> 1) ^^^ 0xA001 else crc >>> 1

/-- The remainder after one more byte. -/
def crcByte (crc : UInt16) (b : UInt8) : UInt16 :=
  crcBit (crcBit (crcBit (crcBit (crcBit (crcBit (crcBit (crcBit (crc ^^^ b.toUInt16))))))))

/-- The checksum of some bytes. -/
def crc16 (bytes : Bytes) : UInt16 :=
  bytes.foldl crcByte 0

theorem crc16_append (xs ys : Bytes) : crc16 (xs ++ ys) = ys.foldl crcByte (crc16 xs) :=
  List.foldl_append

end Switchboard
