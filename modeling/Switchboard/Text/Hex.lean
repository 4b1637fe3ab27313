import Switchboard.Bytes

/-!
# Hexadecimal

Digits of base sixteen, in both directions.  Output uses lower case letters; input may use either.
-/

namespace Switchboard.Text

/-- The digit of a value below sixteen, in lower case. -/
def hexDigit (n : Nat) : Char :=
  if n < 10 then Char.ofNat ('0'.toNat + n) else Char.ofNat ('a'.toNat + (n - 10))

/-- The value of a hexadecimal digit of either case. -/
def hexValue? (c : Char) : Option Nat :=
  if '0' ≤ c ∧ c ≤ '9' then some (c.toNat - '0'.toNat)
  else if 'a' ≤ c ∧ c ≤ 'f' then some (c.toNat - 'a'.toNat + 10)
  else if 'A' ≤ c ∧ c ≤ 'F' then some (c.toNat - 'A'.toNat + 10)
  else none

/-- The two digits of a byte. -/
def hexByte (b : UInt8) : List Char :=
  [hexDigit (b.toNat / 16), hexDigit (b.toNat % 16)]

/-- The four digits of a 16-bit word. -/
def hexWord (w : UInt16) : List Char :=
  (Bytes.ofUInt16 w).flatMap hexByte

/-- Two digits for each byte, in order. -/
def hexEncode (bytes : Bytes) : List Char :=
  bytes.flatMap hexByte

/-- Reads pairs of digits; refuses an odd count and anything that is not a digit. -/
def hexDecode? (cs : List Char) : Option Bytes :=
  go [] cs
where
  /-- Reads the remaining pairs, given the bytes read so far, latest first. -/
  go (done : Bytes) : List Char → Option Bytes
    | [] => some done.reverse
    | [_] => none
    | hi :: lo :: rest =>
      match hexValue? hi, hexValue? lo with
      | some h, some l => go (UInt8.ofNat (h * 16 + l) :: done) rest
      | _, _ => none

/-- The digits of a number in base sixteen, without leading zeros. -/
def hexNat (n : Nat) : List Char :=
  if n < 16 then [hexDigit n] else hexNat (n / 16) ++ [hexDigit (n % 16)]

end Switchboard.Text
