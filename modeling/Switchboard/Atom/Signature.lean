import Switchboard.Atom.Vocabulary

/-!
# Atom signatures

An *atom* is one instruction of the form description language.  Its *signature* says how the
instruction is called in text, which two bytes identify it on the wire, what operands it takes and
what it does to the nesting of scopes.
-/

namespace Switchboard

/-- The two bytes that identify an atom on the wire: its family and its number there. -/
structure Tag where
  protocol : UInt8
  atom : UInt8
  deriving Repr, DecidableEq

/-- The wire type of one operand.  The fixed-width kinds may stand anywhere in a signature; the
others take the rest of the atom's data and therefore stand last. -/
inductive FieldKind where
  /-- One byte. -/
  | byte
  /-- Two bytes. -/
  | word
  /-- Four bytes. -/
  | dword
  /-- One to four bytes, as few as the value needs. -/
  | num
  /-- One byte whose values have names. -/
  | named (vocabulary : Vocabulary)
  /-- Text of at most the given number of bytes. -/
  | text (limit : Nat)
  /-- An opaque block of bytes. -/
  | raw
  /-- A global id. -/
  | gid
  /-- A nested stream of atoms. -/
  | stream
  deriving Repr, DecidableEq

namespace FieldKind

/-- Whether the field takes the rest of the data. -/
def isVariable : FieldKind → Bool
  | byte | word | dword | named _ => false
  | num | text _ | raw | gid | stream => true

/-- How messages refer to the kind. -/
def label : FieldKind → String
  | byte => "Byte"
  | word => "Word"
  | dword => "Dword"
  | num => "Num"
  | named vocabulary => s!"Named({vocabulary.label})"
  | text limit => s!"Str({limit})"
  | raw => "Raw"
  | gid => "Gid"
  | stream => "Stream"

end FieldKind

/-- The kinds of scope that atoms open and close. -/
inductive Scope where
  | stream
  | object
  | context
  deriving Repr, DecidableEq

/-- How messages refer to the scope. -/
def Scope.label : Scope → String
  | stream => "stream"
  | object => "object"
  | context => "context"

/-- What an atom does to the nesting of scopes. -/
inductive ScopeEffect where
  | none
  /-- Opens a scope. -/
  | opens (scope : Scope)
  /-- Closes the innermost scope. -/
  | closes (scope : Scope)
  /-- Closes the innermost scope and opens another of the same kind in its place. -/
  | reopens (scope : Scope)
  deriving Repr, DecidableEq

namespace ScopeEffect

/-- Whether the atom leaves the innermost scope before it stands. -/
def leaves : ScopeEffect → Bool
  | closes _ | reopens _ => true
  | none | opens _ => false

/-- Whether the atoms after it stand in a new scope. -/
def enters : ScopeEffect → Bool
  | opens _ | reopens _ => true
  | none | closes _ => false

end ScopeEffect

/-- The fixed description of one instruction. -/
structure Signature where
  name : String
  tag : Tag
  fields : List FieldKind
  /-- Operands beyond this count may be omitted from the end. -/
  required : Nat
  effect : ScopeEffect
  deriving Repr, DecidableEq

end Switchboard
