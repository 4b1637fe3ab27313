import Switchboard.Script.Error

/-!
# Scripts

A script is a tree: streams hold objects, contexts, actions and plain atoms.  An object may follow
another as its sibling, which replaces it at the same level.  An action attaches a stream of its own
to an event of the object or context around it.
-/

namespace Switchboard

/-- The remote object that a context addresses. -/
inductive ContextTarget where
  | global (gid : Gid)
  /-- A child of the current object, by its tag. -/
  | relative (tag : UInt32)
  deriving Repr, DecidableEq

/-- One node of a script. -/
inductive Node where
  | atom (atom : Atom)
  | stream (id : Option UInt32) (children : List Node)
  /-- An object; `sibling` says that it replaces the object before it. -/
  | object (kind : UInt8) (title : String) (sibling : Bool) (children : List Node)
  | context (target : ContextTarget) (children : List Node)
  | action (criterion : UInt8) (body : List Node)

namespace Node

/-- Whether the node is an object that replaces the one before it. -/
def isSibling : Node → Bool
  | object _ _ sibling _ => sibling
  | _ => false

end Node

/-- A complete script: its top-level nodes. -/
structure Script where
  nodes : List Node

/-- Whether the script has no nodes. -/
def Script.isEmpty (script : Script) : Bool :=
  script.nodes.isEmpty

end Switchboard
