import Switchboard.Atom.Check
import Switchboard.Atom.Depth
import Switchboard.Chunk
import Switchboard.Script.Basic

/-!
# Compiling scripts

A script becomes a sequence of atoms in document order.  Each block becomes its opener, its contents
and its closer, with three rules: sibling objects share one closer, the body of an action becomes a
nested stream, and an action on `select` has an atom of its own while any other names its criterion
first.  Compiling is pure: the same script always gives the same bytes.
-/

namespace Switchboard

/-- Builds an atom of a script. -/
def Atom.forScript (name : String) (ops : List Operand) : Except CompileError Atom :=
  match Atom.make name ops with
  | .ok atom => .ok atom
  | .error error => .error (.ofAtomError error)

/-- The value of the criterion `select`. -/
def selectCriterion : UInt8 := 1

/-- The opener of a context. -/
def ContextTarget.opener : ContextTarget → Except CompileError Atom
  | global gid => Atom.forScript "man_set_context_globalid" [.gid gid]
  | relative tag => Atom.forScript "man_set_context_relative" [.int tag]

/-- The atoms of an action with a given body, in order. -/
def actionAtoms (criterion : UInt8) (body : List Atom) : Except CompileError (List Atom) := do
  if criterion = selectCriterion then
    return [← Atom.forScript "act_replace_select_action" [.stream body]]
  else
    return [← Atom.forScript "act_set_criterion" [.int criterion.toUInt32],
      ← Atom.forScript "act_replace_action" [.stream body]]

mutual

/-- Adds the atoms of a node to those before it, latest first.  An object that is `continued` by a
sibling leaves the closer to it. -/
def Node.flattenOnto (out : List Atom) (continued : Bool) : Node → Except CompileError (List Atom)
  | .atom a => .ok (a :: out)
  | .stream id children => do
    let opener ← Atom.forScript "uni_start_stream" (id.map Operand.int).toList
    let out ← Node.flattenAllOnto (opener :: out) children
    return (← Atom.forScript "uni_end_stream" []) :: out
  | .object kind title sibling children => do
    let name := if sibling then "man_start_sibling" else "man_start_object"
    let opener ← Atom.forScript name [.int kind.toUInt32, .str title]
    let out ← Node.flattenAllOnto (opener :: out) children
    if continued then return out else return (← Atom.forScript "man_end_object" []) :: out
  | .context target children => do
    let opener ← target.opener
    let out ← Node.flattenAllOnto (opener :: out) children
    return (← Atom.forScript "man_end_context" []) :: out
  | .action criterion body => do
    let opener ← Atom.forScript "uni_start_stream" []
    let inner ← Node.flattenAllOnto [opener] body
    let closer ← Atom.forScript "uni_end_stream" []
    return (← actionAtoms criterion (closer :: inner).reverse).reverse ++ out

/-- Adds the atoms of nodes to those before them, latest first. -/
def Node.flattenAllOnto (out : List Atom) : List Node → Except CompileError (List Atom)
  | [] => .ok out
  | node :: rest => do
    let out ← node.flattenOnto out (rest.head?.any (·.isSibling))
    Node.flattenAllOnto out rest

end

namespace Script

/-- The atoms of a script, with their depths. -/
def flatten (script : Script) : Except CompileError (List Atom) := do
  return Atom.assignDepths 0 (← Node.flattenAllOnto [] script.nodes).reverse

/-- The wire form of a script. -/
def encode (script : Script) : Except CompileError Encoded := do
  match Atom.encodeStream (← script.flatten) with
  | .ok encoded => return encoded
  | .error error => .error (.ofAtomError error)

/-- The chunks of a script, for frames whose payload is at most `limit` bytes. -/
def compile (script : Script) (limit : Nat) (streamId : UInt16) (label : String) :
    Except CompileError (List Chunk) := do
  Chunk.ofStream .stream streamId (← script.encode) limit label

end Script

end Switchboard
