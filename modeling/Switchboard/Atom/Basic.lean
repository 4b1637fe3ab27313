import Switchboard.Atom.Table
import Switchboard.Gid
import Switchboard.Text.Utf8

/-!
# Atoms and operands

An atom is a signature with values for its operands and the depth at which it stands.  Operands may
carry whole streams of atoms, so the two types are defined together.
-/

namespace Switchboard

mutual

/-- The value of one operand. -/
inductive Operand where
  | int (value : UInt32)
  | str (text : String)
  | raw (bytes : Bytes)
  | gid (gid : Gid)
  | stream (atoms : List Atom)

/-- One instruction with its operands and nesting depth. -/
inductive Atom where
  | mk (signature : Signature) (operands : List Operand) (depth : UInt16)

end

-- ---------------------------------------------------------------------------
-- Equality
-- ---------------------------------------------------------------------------

mutual

/-- Decides whether two operands are equal. -/
def Operand.decEq : (a b : Operand) → Decidable (a = b)
  | .int v, .int w => if h : v = w then isTrue (by rw [h]) else isFalse (by simpa using h)
  | .str v, .str w => if h : v = w then isTrue (by rw [h]) else isFalse (by simpa using h)
  | .raw v, .raw w => if h : v = w then isTrue (by rw [h]) else isFalse (by simpa using h)
  | .gid v, .gid w => if h : v = w then isTrue (by rw [h]) else isFalse (by simpa using h)
  | .stream v, .stream w =>
    match Atom.decEqList v w with
    | isTrue h => isTrue (by rw [h])
    | isFalse h => isFalse (by simpa using h)
  | .int _, .str _ | .int _, .raw _ | .int _, .gid _ | .int _, .stream _
  | .str _, .int _ | .str _, .raw _ | .str _, .gid _ | .str _, .stream _
  | .raw _, .int _ | .raw _, .str _ | .raw _, .gid _ | .raw _, .stream _
  | .gid _, .int _ | .gid _, .str _ | .gid _, .raw _ | .gid _, .stream _
  | .stream _, .int _ | .stream _, .str _ | .stream _, .raw _ | .stream _, .gid _ => isFalse nofun
  termination_by structural a => a

/-- Decides whether two atoms are equal. -/
def Atom.decEq : (a b : Atom) → Decidable (a = b)
  | .mk s ops d, .mk s' ops' d' =>
    if h : s = s' ∧ d = d' then
      match Operand.decEqList ops ops' with
      | isTrue h' => isTrue (by rw [h.1, h.2, h'])
      | isFalse h' => isFalse (by simp [h'])
    else isFalse fun heq => h ⟨(Atom.mk.inj heq).1, (Atom.mk.inj heq).2.2⟩
  termination_by structural a => a

/-- Decides whether two operand lists are equal. -/
def Operand.decEqList : (as bs : List Operand) → Decidable (as = bs)
  | [], [] => isTrue rfl
  | a :: as, b :: bs =>
    match Operand.decEq a b with
    | isTrue h =>
      match Operand.decEqList as bs with
      | isTrue h' => isTrue (by rw [h, h'])
      | isFalse h' => isFalse (by simp [h'])
    | isFalse h => isFalse (by simp [h])
  | [], _ :: _ | _ :: _, [] => isFalse nofun
  termination_by structural a => a

/-- Decides whether two atom lists are equal. -/
def Atom.decEqList : (as bs : List Atom) → Decidable (as = bs)
  | [], [] => isTrue rfl
  | a :: as, b :: bs =>
    match Atom.decEq a b with
    | isTrue h =>
      match Atom.decEqList as bs with
      | isTrue h' => isTrue (by rw [h, h'])
      | isFalse h' => isFalse (by simp [h'])
    | isFalse h => isFalse (by simp [h])
  | [], _ :: _ | _ :: _, [] => isFalse nofun
  termination_by structural a => a

end

instance : DecidableEq Operand := Operand.decEq
instance : DecidableEq Atom := Atom.decEq

namespace Atom

/-- The atom's signature. -/
def signature : Atom → Signature
  | mk s _ _ => s

/-- The atom's operands. -/
def operands : Atom → List Operand
  | mk _ ops _ => ops

/-- The number of scopes around the atom. -/
def depth : Atom → UInt16
  | mk _ _ d => d

/-- The atom's name. -/
def name (a : Atom) : String := a.signature.name

/-- What the atom does to the nesting of scopes. -/
def effect (a : Atom) : ScopeEffect := a.signature.effect

end Atom

/-- The types of operand values. -/
inductive OperandType where
  | integer
  | string
  | byteBlock
  | gid
  | stream
  deriving Repr, DecidableEq

/-- How messages refer to the type. -/
def OperandType.label : OperandType → String
  | integer => "integer"
  | string => "string"
  | byteBlock => "byte block"
  | gid => "gid"
  | stream => "stream"

/-- The type of a value. -/
def Operand.type : Operand → OperandType
  | int _ => .integer
  | str _ => .string
  | raw _ => .byteBlock
  | gid _ => .gid
  | stream _ => .stream

/-- The value if the operand is an integer. -/
def Operand.int? : Operand → Option UInt32
  | int v => some v
  | _ => none

end Switchboard
