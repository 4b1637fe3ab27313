import Switchboard.Atom.Basic
import Switchboard.Text.Quoted

/-!
# Listings

The text form of atoms: the name, and the operands between angle brackets.  A listing puts each atom
of a stream on its own line, indented by its depth.
-/

namespace Switchboard

/-- The items with a separator between each two. -/
def joinWith (separator : List Char) (items : List (List Char)) : List Char :=
  (items.intersperse separator).flatten

/-- A byte as listings write it: two hexadecimal digits and an `x`. -/
def byteLiteral (b : UInt8) : List Char :=
  Text.hexByte b ++ ['x']

/-- A number as listings write it: by its name where its field has one for it, else in decimal. -/
def numberLiteral (kind : FieldKind) (v : UInt32) : List Char :=
  let name? := match kind with
    | .named vocabulary => vocabulary.nameOf? v.toNat
    | _ => none
  match name? with
  | some name => name.toList
  | none => Text.decimal v.toNat

/-! What has been written so far is kept latest first. -/

mutual

/-- Writes the text form of one operand. -/
def Operand.charsOnto (kind : FieldKind) (done : List Char) : Operand → List Char
  | .int v => (numberLiteral kind v).reverseAux done
  | .str s => (Text.quotedChars s.toList).reverseAux done
  | .raw bytes => (joinWith [' '] (bytes.map byteLiteral)).reverseAux done
  | .gid g => g.chars.reverseAux done
  | .stream atoms => Atom.charsOntoEach [] done atoms

/-- Writes the text forms of the operands that have a field: `separator` before the first, a comma and
a space before each of the others. -/
def Operand.charsOntoEach (separator done : List Char) : List FieldKind → List Operand → List Char
  | kind :: kinds, op :: ops =>
    Operand.charsOntoEach [',', ' '] (op.charsOnto kind (separator.reverseAux done)) kinds ops
  | _, _ => done

/-- Writes the text form of an atom. -/
def Atom.charsOnto (done : List Char) : Atom → List Char
  | .mk s ops _ =>
    let named := s.name.toList.reverseAux done
    match ops with
    | [] => named
    | op :: ops => '>' :: Operand.charsOntoEach [] ('<' :: ' ' :: named) s.fields (op :: ops)

/-- Writes the text forms of the atoms of a stream: `separator` before the first, a space before each
of the others. -/
def Atom.charsOntoEach (separator done : List Char) : List Atom → List Char
  | [] => done
  | a :: as => Atom.charsOntoEach [' '] (a.charsOnto (separator.reverseAux done)) as

end

/-- The text form of an atom, character by character. -/
def Atom.chars (a : Atom) : List Char :=
  (a.charsOnto []).reverse

/-- The text form of an atom. -/
def Atom.text (a : Atom) : String :=
  String.ofList a.chars

/-- One line of a listing. -/
def Atom.line (a : Atom) : String :=
  ("".pushn ' ' (2 * a.depth.toNat) ++ a.text).push '\n'

/-- The listing of a stream. -/
def Atom.listing (atoms : List Atom) : String :=
  String.join (atoms.map Atom.line)

theorem toList_pushn (s : String) (c : Char) (n : Nat) :
    (s.pushn c n).toList = s.toList ++ List.replicate n c := by
  rw [String.pushn_eq_repeat_push]
  induction n with
  | zero => simp [Nat.repeat]
  | succ n ih => rw [Nat.repeat, String.toList_push, ih, List.replicate_succ', List.append_assoc]

/-- A line is two blanks for each level of depth, the text form and a line end. -/
theorem Atom.toList_line (a : Atom) :
    a.line.toList = List.replicate (2 * a.depth.toNat) ' ' ++ (a.chars ++ ['\n']) := by
  rw [line, String.toList_push, String.toList_append, toList_pushn, text, String.toList_ofList]
  simp

end Switchboard
