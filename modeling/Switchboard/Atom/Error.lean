import Switchboard.Atom.Basic
import Switchboard.Text.Quoted

/-!
# What can be wrong with an atom

Every fault that building, encoding or decoding an atom can meet, with the one place that words it.
-/

namespace Switchboard

/-- A value or a byte sequence that does not have the form its signature asks for.  Operands are
counted from one. -/
inductive FormatFault where
  /-- A text that is no global id. -/
  | gidLiteral (text : String)
  /-- A global id on the wire that has neither three nor four bytes. -/
  | gidLength (count : Nat)
  /-- Too few or too many operands. -/
  | arity (signature : Signature) (got : Nat)
  /-- An operand of the wrong type. -/
  | wrongType (atom : String) (index : Nat) (expected : FieldKind) (got : OperandType)
  /-- A value too large for one byte. -/
  | exceedsByte (atom : String) (index : Nat) (value : UInt32)
  /-- A value too large for two bytes. -/
  | exceedsWord (atom : String) (index : Nat) (value : UInt32)
  /-- A text too long for its field. -/
  | textTooLong (atom : String) (count limit : Nat)
  /-- More data than the length field of an atom can state. -/
  | dataTooLong (atom : String) (count : Nat)
  /-- An operand that the encoder cannot write as the field's kind. -/
  | mismatch (atom : String) (kind : FieldKind)
  /-- Data that ends inside an operand of fixed width. -/
  | operandTruncated (atom : String) (index : Nat)
  /-- A number of no byte or more than four bytes. -/
  | numberLength (atom : String) (count : Nat)
  /-- Text that is not UTF-8. -/
  | notUtf8 (atom : String)
  /-- Data after the last operand. -/
  | trailing (atom : String) (count : Nat)
  deriving Repr, DecidableEq

/-- The largest data region of one atom: what fifteen bits can count. -/
def Atom.maxData : Nat := 0x7FFF

namespace FormatFault

/-- The operand counts a signature admits, in words. -/
def arityRange (s : Signature) : String :=
  if s.required = s.fields.length then s!"{s.fields.length}"
  else s!"{s.required}..={s.fields.length}"

/-- The wording of the fault. -/
def message : FormatFault → String
  | gidLiteral text => s!"invalid gid literal {Text.quoted text}"
  | gidLength count => s!"gid field must be 3 or 4 bytes, got {count}"
  | arity s got => s!"{s.name} takes {arityRange s} operand(s), got {got}"
  | wrongType atom index expected got =>
    s!"{atom} operand {index} expects {expected.label}, got {got.label}"
  | exceedsByte atom index value => s!"{atom} operand {index} value {value} exceeds byte width"
  | exceedsWord atom index value => s!"{atom} operand {index} value {value} exceeds word width"
  | textTooLong atom count limit =>
    s!"{atom} string of {count} bytes exceeds field width {limit}"
  | dataTooLong atom count =>
    s!"{atom} data of {count} bytes exceeds {Atom.maxData} byte atom limit"
  | mismatch atom kind => s!"{atom} operand does not match {kind.label}"
  | operandTruncated atom index => s!"{atom} operand {index} truncated"
  | numberLength atom count => s!"{atom} numeric field must be 1-4 bytes, got {count}"
  | notUtf8 atom => s!"{atom} text is not valid utf-8"
  | trailing atom count => s!"{atom} has {count} trailing data byte(s)"

end FormatFault

/-- Why an atom or a stream of atoms is refused. -/
inductive AtomError where
  | unknownAtom (name : String)
  | unknownTag (tag : Tag)
  | format (fault : FormatFault)
  /-- The stream ends inside the atom that starts at the given offset. -/
  | truncated (offset : Nat)
  deriving Repr, DecidableEq

/-- The wording of the error. -/
def AtomError.message : AtomError → String
  | unknownAtom name => s!"unknown atom {Text.quoted name}"
  | unknownTag tag => s!"unknown atom tag {tag.protocol}:{tag.atom}"
  | format fault => s!"format error: {fault.message}"
  | truncated offset => s!"atom stream truncated at offset {offset}"

/-- Reads the text form of a global id. -/
def Gid.ofText (s : String) : Except AtomError Gid :=
  match Gid.parse? s with
  | some gid => .ok gid
  | none => .error (.format (.gidLiteral s))

/-- Reads the wire form of a global id. -/
def Gid.decode (bytes : Bytes) : Except AtomError Gid :=
  match Gid.decode? bytes with
  | some gid => .ok gid
  | none => .error (.format (.gidLength bytes.length))

end Switchboard
