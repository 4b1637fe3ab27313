import Switchboard.Atom.Error

/-!
# The wire form of atoms

An atom is written as the two bytes of its tag, the length of its data in one or two bytes, and the
data, in which the operands follow each other without separators:

    [protocol][number][length, 1 or 2 bytes][data ...]

A length below `0x80` takes one byte.  A longer one takes two, the first with its high bit set, so an
atom carries at most `0x7FFF` bytes of data.

Encoding has two steps.  First an atom is *laid out*: it becomes a tree in which the length of every
part is known.  Then the tree is written, as the bytes of the stream and as the spans that tell for
every atom, nested ones included, which bytes are its own.
-/

namespace Switchboard

/-- The bytes of one encoded atom within a stream. -/
structure Span where
  /-- Where the atom starts. -/
  offset : Nat
  /-- How many bytes its tag and length take. -/
  headerLength : Nat
  /-- How many bytes it takes in all. -/
  totalLength : Nat
  deriving Repr, DecidableEq

/-- Encoded atoms: the bytes, and the span of every atom in document order. -/
structure Encoded where
  bytes : Bytes
  spans : List Span
  deriving Repr, DecidableEq

-- ---------------------------------------------------------------------------
-- The layout of atoms
-- ---------------------------------------------------------------------------

mutual

/-- An atom as it is laid out: its tag, the number of its data bytes, and its data by operands. -/
inductive AtomLayout where
  | mk (tag : Tag) (count : Nat) (fields : List FieldLayout)

/-- The data of one operand. -/
inductive FieldLayout where
  | plain (bytes : Bytes)
  | stream (atoms : List AtomLayout)

end

namespace AtomLayout

/-- The length field for a data region. -/
def lengthField (count : Nat) : Bytes :=
  if count < 0x80 then [UInt8.ofNat count]
  else [UInt8.ofNat (0x80 + count / 256), UInt8.ofNat count]

/-- The tag and the length field. -/
def header (tag : Tag) (count : Nat) : Bytes :=
  tag.protocol :: tag.atom :: lengthField count

/-- The number of bytes that the atom takes in all. -/
def size : AtomLayout → Nat
  | mk tag count _ => (header tag count).length + count

/-- The span of the atom if it starts at the given offset. -/
def span (offset : Nat) : AtomLayout → Span
  | mk tag count _ => ⟨offset, (header tag count).length, (header tag count).length + count⟩

end AtomLayout

/-- The number of bytes that the operand takes. -/
def FieldLayout.size : FieldLayout → Nat
  | plain bytes => bytes.length
  | stream atoms => atoms.foldl (fun n a => n + a.size) 0

-- ---------------------------------------------------------------------------
-- Laying out
-- ---------------------------------------------------------------------------

/-- A number in as few bytes as it needs, but at least one. -/
def minimalBytes (v : UInt32) : Bytes :=
  let bytes := Bytes.ofUInt32 v
  bytes.drop ((bytes.take 3).takeWhile (· == 0)).length

mutual

/-- Lays out one operand as the field's kind. -/
def Operand.layout (atom : String) (kind : FieldKind) : Operand → Except AtomError FieldLayout
  | .int v =>
    match kind with
    | .byte | .named _ => .ok (.plain [UInt8.ofNat v.toNat])
    | .word => .ok (.plain (Bytes.ofUInt16 (UInt16.ofNat v.toNat)))
    | .dword => .ok (.plain (Bytes.ofUInt32 v))
    | .num => .ok (.plain (minimalBytes v))
    | _ => .error (.format (.mismatch atom kind))
  | .str s =>
    match kind with
    | .text _ => .ok (.plain (Text.utf8 s))
    | _ => .error (.format (.mismatch atom kind))
  | .raw bytes =>
    match kind with
    | .raw => .ok (.plain bytes)
    | _ => .error (.format (.mismatch atom kind))
  | .gid g =>
    match kind with
    | .gid => .ok (.plain g.encode)
    | _ => .error (.format (.mismatch atom kind))
  | .stream atoms =>
    match kind with
    | .stream => do return .stream (← Atom.layoutEach [] atoms)
    | _ => .error (.format (.mismatch atom kind))

/-- Lays out the operands that have a field, in order. -/
def Operand.layoutEach (atom : String) : List FieldKind → List Operand →
    Except AtomError (List FieldLayout)
  | kind :: kinds, op :: ops => do
    let first ← op.layout atom kind
    let rest ← Operand.layoutEach atom kinds ops
    return first :: rest
  | _, _ => .ok []

/-- Lays out one atom. -/
def Atom.layout : Atom → Except AtomError AtomLayout
  | .mk s ops _ => do
    let fields ← Operand.layoutEach s.name s.fields ops
    let count := fields.foldl (fun n f => n + f.size) 0
    if Atom.maxData < count then .error (.format (.dataTooLong s.name count))
    else return .mk s.tag count fields

/-- Lays out the atoms of a stream, given those laid out so far, latest first. -/
def Atom.layoutEach (done : List AtomLayout) : List Atom → Except AtomError (List AtomLayout)
  | [] => .ok done.reverse
  | a :: as => do Atom.layoutEach ((← a.layout) :: done) as

end

/-! ## Writing

What has been written so far is kept latest first. -/

mutual

/-- Writes the bytes of an operand. -/
def FieldLayout.bytesOnto (done : Bytes) : FieldLayout → Bytes
  | .plain bytes => bytes.reverseAux done
  | .stream atoms => AtomLayout.bytesOntoEach done atoms

/-- Writes the bytes of operands. -/
def FieldLayout.bytesOntoEach (done : Bytes) : List FieldLayout → Bytes
  | [] => done
  | field :: fields => FieldLayout.bytesOntoEach (field.bytesOnto done) fields

/-- Writes the bytes of an atom. -/
def AtomLayout.bytesOnto (done : Bytes) : AtomLayout → Bytes
  | .mk tag count fields =>
    FieldLayout.bytesOntoEach ((AtomLayout.header tag count).reverseAux done) fields

/-- Writes the bytes of atoms. -/
def AtomLayout.bytesOntoEach (done : Bytes) : List AtomLayout → Bytes
  | [] => done
  | atom :: atoms => AtomLayout.bytesOntoEach (atom.bytesOnto done) atoms

end

mutual

/-- Notes the spans of the atoms in an operand that starts at the given offset. -/
def FieldLayout.spansOnto (offset : Nat) (done : List Span) : FieldLayout → List Span
  | .plain _ => done
  | .stream atoms => AtomLayout.spansOntoEach offset done atoms

/-- Notes the spans of the atoms in operands, the first of which starts at the given offset. -/
def FieldLayout.spansOntoEach (offset : Nat) (done : List Span) : List FieldLayout → List Span
  | [] => done
  | field :: fields =>
    FieldLayout.spansOntoEach (offset + field.size) (field.spansOnto offset done) fields

/-- Notes the spans of an atom that starts at the given offset and of the atoms nested in it. -/
def AtomLayout.spansOnto (offset : Nat) (done : List Span) : AtomLayout → List Span
  | .mk tag count fields =>
    let span := AtomLayout.span offset (.mk tag count fields)
    FieldLayout.spansOntoEach (offset + span.headerLength) (span :: done) fields

/-- Notes the spans of atoms, the first of which starts at the given offset. -/
def AtomLayout.spansOntoEach (offset : Nat) (done : List Span) : List AtomLayout → List Span
  | [] => done
  | atom :: atoms =>
    AtomLayout.spansOntoEach (offset + atom.size) (atom.spansOnto offset done) atoms

end

/-- The encoded form of atoms that have been laid out. -/
def Encoded.ofLayout (atoms : List AtomLayout) : Encoded :=
  ⟨(AtomLayout.bytesOntoEach [] atoms).reverse, (AtomLayout.spansOntoEach 0 [] atoms).reverse⟩

namespace Atom

/-- Writes one atom. -/
def encode (atom : Atom) : Except AtomError Encoded := do
  return .ofLayout [← atom.layout]

/-- Writes a stream of atoms. -/
def encodeStream (atoms : List Atom) : Except AtomError Encoded := do
  return .ofLayout (← Atom.layoutEach [] atoms)

end Atom

end Switchboard
