import Switchboard.Atom.Depth
import Switchboard.Atom.Error

/-!
# Reading atoms from the wire

The inverse of encoding.  Depths are not on the wire; they are counted from the scope effects of the
atoms.  The reader accepts more than the writer produces: a two-byte length for short data, and
numbers with leading zero bytes.

A stream that an atom carries is read where it stands: the reader is told how many of the bytes
before it belong to the stream, so that bytes are not copied once for every atom around them.
-/

namespace Switchboard

/-- Splits the tag and the length off the front of an atom: the tag, how many bytes the two take, how
many bytes of data they announce, and the bytes after them. -/
def splitHeader? : Bytes → Option (Tag × Nat × Nat × Bytes)
  | protocol :: number :: first :: rest =>
    if first < 0x80 then some (⟨protocol, number⟩, 3, first.toNat, rest)
    else
      match rest with
      | [] => none
      | second :: rest =>
        some (⟨protocol, number⟩, 4, (first.toNat - 0x80) * 256 + second.toNat, rest)
  | _ => none

/-- A header takes three bytes or four. -/
theorem length_splitHeader? {bytes rest : Bytes} {tag : Tag} {header size : Nat}
    (eq : splitHeader? bytes = some (tag, header, size, rest)) :
    3 ≤ header ∧ header + rest.length = bytes.length := by
  unfold splitHeader? at eq
  split at eq
  · split at eq
    · cases eq
      simp only [List.length_cons]; omega
    · split at eq <;> cases eq
      simp only [List.length_cons]; omega
  · cases eq

/-- Finds the first atom of a stream that is made of the first `count` bytes: its tag, the length of
its header, the length of its data, and the bytes from its data on.  There is none if the stream ends
inside the atom. -/
def splitAtom? (count : Nat) (bytes : Bytes) : Option (Tag × Nat × Nat × Bytes) :=
  (splitHeader? bytes).filter fun (_, header, size, _) => header + size ≤ count

/-- The atom lies within the stream. -/
theorem size_splitAtom? {count : Nat} {bytes rest : Bytes} {tag : Tag} {header size : Nat}
    (eq : splitAtom? count bytes = some (tag, header, size, rest)) :
    3 ≤ header ∧ header + size ≤ count := by
  unfold splitAtom? at eq
  simp only [Option.filter_eq_some_iff, decide_eq_true_eq] at eq
  exact ⟨(length_splitHeader? eq.1).1, eq.2⟩

/-- Reads a field that carries no stream from the front of the data: the value and the data after
it. -/
def FieldKind.decodePlain (atom : String) (index : Nat) (kind : FieldKind) (data : Bytes) :
    Except AtomError (Operand × Bytes) :=
  match kind with
  | .byte | .named _ =>
    match data with
    | b :: rest => .ok (.int b.toUInt32, rest)
    | _ => .error (.format (.operandTruncated atom index))
  | .word =>
    match data with
    | hi :: lo :: rest => .ok (.int (Bytes.uint16 hi lo).toUInt32, rest)
    | _ => .error (.format (.operandTruncated atom index))
  | .dword =>
    match Bytes.uint32? data with
    | some (v, rest) => .ok (.int v, rest)
    | none => .error (.format (.operandTruncated atom index))
  | .num =>
    if data = [] ∨ 4 < data.length then .error (.format (.numberLength atom data.length))
    else .ok (.int (UInt32.ofNat (Bytes.toNat data)), [])
  | .text _ =>
    match Text.utf8? data with
    | some s => .ok (.str s, [])
    | none => .error (.format (.notUtf8 atom))
  | .gid => do return (.gid (← Gid.decode data), [])
  | .raw | .stream => .ok (.raw data, [])

theorem FieldKind.length_decodePlain {atom : String} {index : Nat} {kind : FieldKind}
    {data rest : Bytes} {op : Operand}
    (eq : kind.decodePlain atom index data = .ok (op, rest)) : rest.length ≤ data.length := by
  cases kind <;> simp only [FieldKind.decodePlain] at eq
  case byte | named => split at eq <;> cases eq; simp
  case word => split at eq <;> cases eq; simp; omega
  case dword =>
    split at eq
    · rename_i v r h
      cases eq
      unfold Bytes.uint32? at h
      split at h <;> cases h
      simp; omega
    · cases eq
  case num => split at eq <;> cases eq; simp
  case text => split at eq <;> cases eq; simp
  case gid =>
    cases h : Gid.decode data <;> rw [h] at eq <;> cases eq
    simp
  case raw | stream => cases eq; simp

mutual

/-- Reads the operands of an atom, whose data is the first `count` bytes.  `fields` are those still to
be read, `index` counts the operands read so far, `offset` is the position of the data in the whole
input and `inner` the depth of a nested stream.  Operands that may be omitted end with the data. -/
def Operand.decodeFields (s : Signature) (offset : Nat) (inner : UInt16) (index : Nat)
    (fields : List FieldKind) (count : Nat) (bytes : Bytes) : Except AtomError (List Operand) :=
  match fields with
  | [] => if count = 0 then .ok [] else .error (.format (.trailing s.name count))
  | kind :: fields =>
    if count = 0 ∧ s.required ≤ index then .ok []
    else if kind = .stream then do
      let atoms ← Atom.decodeFrom offset inner 0 inner [] count bytes
      let ops ← Operand.decodeFields s offset inner (index + 1) fields 0 []
      return .stream atoms :: ops
    else
      match h : kind.decodePlain s.name (index + 1) (bytes.take count) with
      | .error e => .error e
      | .ok (op, rest) => do
        have : rest.length ≤ count :=
          Nat.le_trans (FieldKind.length_decodePlain h) (List.length_take_le ..)
        let ops ← Operand.decodeFields s offset inner (index + 1) fields rest.length rest
        return op :: ops
  termination_by (count, fields.length + 1)
  decreasing_by
    all_goals simp only [Prod.lex_def, List.length_cons, true_and]
    all_goals omega

/-- Reads the rest of a stream, which is the first `count` bytes.  `offset` is the position of the
stream in the whole input, `pos` the position in the stream, and `done` holds the atoms before it,
latest first. -/
def Atom.decodeFrom (offset : Nat) (base : UInt16) (pos : Nat) (depth : UInt16) (done : List Atom)
    (count : Nat) (bytes : Bytes) : Except AtomError (List Atom) :=
  if count = 0 then .ok done.reverse
  else
    match h : splitAtom? count bytes with
    | none => .error (.truncated (offset + pos))
    | some (tag, header, size, rest) =>
      match Signature.byTag? tag with
      | none => .error (.unknownTag tag)
      | some s => do
        have := size_splitAtom? h
        let here := s.effect.depthAt base depth
        let start := pos + header
        let ops ← Operand.decodeFields s (offset + start) (here + 1) 0 s.fields size rest
        Atom.decodeFrom offset base (start + size) (s.effect.depthAfter here)
          (.mk s ops here :: done) (count - (header + size)) (rest.drop size)
  termination_by (count, 0)

end

/-- Reads a complete stream of atoms. -/
def Atom.decodeStream (bytes : Bytes) : Except AtomError (List Atom) :=
  Atom.decodeFrom 0 0 0 0 [] bytes.length bytes

end Switchboard
