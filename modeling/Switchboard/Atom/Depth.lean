import Switchboard.Atom.Basic

/-!
# Nesting depths

The depth of an atom is the number of scopes open before it, counted from the base of its stream.
An atom that closes a scope stands outside that scope, and the atoms of a nested stream stand one
level deeper than the atom that carries them.  A closer without an opener stays at the base.
-/

namespace Switchboard

namespace ScopeEffect

/-- The depth at which an atom stands, after the atoms before it left the depth at `depth`. -/
def depthAt (effect : ScopeEffect) (base depth : UInt16) : UInt16 :=
  if effect.leaves then max base (if depth = 0 then 0 else depth - 1) else depth

/-- The depth of the atoms after one that stands at `depth`. -/
def depthAfter (effect : ScopeEffect) (depth : UInt16) : UInt16 :=
  if effect.enters then depth + 1 else depth

end ScopeEffect

mutual

/-- The operand with depths counted from `base` in the stream it carries, if it carries one. -/
def Operand.withDepths (base : UInt16) : Operand → Operand
  | .int v => .int v
  | .str s => .str s
  | .raw b => .raw b
  | .gid g => .gid g
  | .stream atoms => .stream (Atom.assignFrom base base [] atoms)

/-- The operands with depths counted from `base` in the streams they carry. -/
def Operand.withDepthsList (base : UInt16) : List Operand → List Operand
  | [] => []
  | op :: ops => op.withDepths base :: Operand.withDepthsList base ops

/-- The atom at the given depth, with the streams it carries one level deeper. -/
def Atom.atDepth (depth : UInt16) : Atom → Atom
  | .mk s ops _ => .mk s (Operand.withDepthsList (depth + 1) ops) depth

/-- Assigns depths to the rest of a stream, given the atoms before it, latest first, and the depth
they leave. -/
def Atom.assignFrom (base depth : UInt16) (done : List Atom) : List Atom → List Atom
  | [] => done.reverse
  | a :: as =>
    let here := a.effect.depthAt base depth
    Atom.assignFrom base (a.effect.depthAfter here) (a.atDepth here :: done) as

end

/-- The stream with the depth of each atom, counted from `base`. -/
def Atom.assignDepths (base : UInt16) (atoms : List Atom) : List Atom :=
  Atom.assignFrom base base [] atoms

end Switchboard
