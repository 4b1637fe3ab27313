import Switchboard.Atom.Error

/-!
# Building checked atoms

`Atom.make` is the only way to build an atom from parts that have not been checked yet: it looks up
the signature, drops what the wire form cannot tell from omission, and accepts exactly the operand
lists that `Signature.check` admits.
-/

namespace Switchboard

/-- Checks the type and width of one operand. -/
def FieldKind.check (atom : String) (index : Nat) (kind : FieldKind) (op : Operand) :
    Except FormatFault Unit :=
  match kind, op with
  | .byte, .int v | .named _, .int v =>
    if v ≤ 0xFF then .ok () else .error (.exceedsByte atom index v)
  | .word, .int v => if v ≤ 0xFFFF then .ok () else .error (.exceedsWord atom index v)
  | .dword, .int _ | .num, .int _ => .ok ()
  | .text limit, .str s =>
    if s.utf8ByteSize ≤ limit then .ok () else .error (.textTooLong atom s.utf8ByteSize limit)
  | .raw, .raw _ | .gid, .gid _ | .stream, .stream _ => .ok ()
  | _, _ => .error (.wrongType atom index kind op.type)

namespace Signature

/-- Checks the operands of an atom against the fields from the given position on. -/
def checkFields (atom : String) (index : Nat) : List FieldKind → List Operand →
    Except FormatFault Unit
  | kind :: kinds, op :: ops => do
    kind.check atom index op
    checkFields atom (index + 1) kinds ops
  | _, _ => .ok ()

/-- Checks number, types and widths of the operands; the first fault counts. -/
def check (s : Signature) (ops : List Operand) : Except FormatFault Unit :=
  if ops.length < s.required ∨ s.fields.length < ops.length then .error (.arity s ops.length)
  else checkFields s.name 1 s.fields ops

end Signature

/-- Whether the operand is an empty text or block, which the wire form cannot tell from an omitted
one. -/
def Operand.isEmptyText : Operand → Bool
  | .str s => s.isEmpty
  | .raw bytes => bytes.isEmpty
  | _ => false

/-- The operands without the empty texts at the end that may be omitted. -/
def Operand.dropOmitted (required : Nat) (ops : List Operand) : List Operand :=
  ops.take required ++ ((ops.drop required).reverse.dropWhile (·.isEmptyText)).reverse

/-- Builds a checked atom. -/
def Atom.make (name : String) (ops : List Operand) : Except AtomError Atom :=
  match Signature.byName? name with
  | none => .error (.unknownAtom name)
  | some s =>
    let ops := Operand.dropOmitted s.required ops
    match s.check ops with
    | .ok () => .ok (.mk s ops 0)
    | .error fault => .error (.format fault)

end Switchboard
