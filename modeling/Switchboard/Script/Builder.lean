import Switchboard.Atom.Check
import Switchboard.Script.Balance
import Switchboard.Script.Basic

/-!
# Building scripts

A builder takes a script call by call and checks that blocks pair up as the calls are made.  Atoms
that change scopes enter a script only through the calls for blocks.  The first fault is remembered,
every later call changes nothing, and `Builder.build` reports that fault.
-/

namespace Switchboard

/-- What a block is opened with. -/
inductive Head where
  | stream (id : Option UInt32)
  | object (kind : UInt8) (title : String) (sibling : Bool)
  | context (target : ContextTarget)
  | action (criterion : UInt8)
  deriving Repr, DecidableEq

namespace Head

/-- The kind of block. -/
def block : Head → Block
  | stream _ => .stream
  | object .. => .object
  | context _ => .context
  | action _ => .action

/-- The node of a finished block. -/
def node (children : List Node) : Head → Node
  | stream id => .stream id children
  | object kind title sibling => .object kind title sibling children
  | context target => .context target children
  | action criterion => .action criterion children

end Head

/-- A block under construction: its head and the nodes in it, latest first. -/
structure OpenBlock where
  head : Head
  children : List Node

/-- A script under construction: the finished top-level nodes, latest first, the open blocks,
innermost first, and the first fault. -/
structure Builder where
  roots : List Node
  opened : List OpenBlock
  fault : Option CompileError

namespace Builder

/-- A builder with nothing in it. -/
def empty : Builder := ⟨[], [], none⟩

/-- Whether a call has failed. -/
def failed (b : Builder) : Bool :=
  b.fault.isSome

/-- Records a fault unless there is one already. -/
def fail (b : Builder) (error : CompileError) : Builder :=
  if b.failed then b else { b with fault := some error }

/-- The kind of the innermost open block. -/
def innermost (b : Builder) : Option Block :=
  b.opened.head?.map (·.head.block)

/-- Continues if no call has failed and a block is open; `what` names the call otherwise. -/
def inside (b : Builder) (what : String) (next : Builder → Builder) : Builder :=
  if b.failed then b
  else if b.opened.isEmpty then b.fail (.structural (.outside what))
  else next b

/-- Adds a node to the innermost block, or to the top level. -/
def push (b : Builder) (node : Node) : Builder :=
  match b.opened with
  | [] => { b with roots := node :: b.roots }
  | block :: outer => { b with opened := { block with children := node :: block.children } :: outer }

/-- Opens a block. -/
def openBlock (b : Builder) (head : Head) : Builder :=
  if b.failed then b else { b with opened := ⟨head, []⟩ :: b.opened }

/-- Closes the innermost block, which must be of the given kind. -/
def close (b : Builder) (kind : Block) : Builder :=
  if b.failed then b
  else
    match b.opened with
    | [] => b.fail (.structural (.noOpenBlock kind))
    | block :: outer =>
      if block.head.block = kind then
        { b with opened := outer }.push (block.head.node block.children.reverse)
      else b.fail (.structural (.wrongEnd kind block.head.block))

/-- Adds an atom, which must not change scopes and whose nested streams must be balanced. -/
def pushPlain (b : Builder) (atom : Atom) : Builder :=
  if atom.effect = .none then
    match Operand.checkBalanceList atom.operands with
    | .ok () => b.push (.atom atom)
    | .error fault => b.fail (.structural fault)
  else b.fail (.structural (.changesScope atom.name))

-- ---------------------------------------------------------------------------
-- The calls
-- ---------------------------------------------------------------------------

/-- Opens a stream. -/
def stream (b : Builder) : Builder :=
  b.openBlock (.stream none)

/-- Opens a stream with an id of its own. -/
def streamWithId (b : Builder) (id : UInt32) : Builder :=
  b.openBlock (.stream (some id))

/-- Closes a stream. -/
def endStream (b : Builder) : Builder :=
  b.close .stream

/-- Continues with the value of an object type. -/
def withObjectType (b : Builder) (name : String) (next : UInt8 → Builder) : Builder :=
  match Vocabulary.objectType.value? name with
  | some kind => next kind
  | none => b.fail (.format (.unknownObjectType name))

/-- Opens an object of the named type. -/
def object (b : Builder) (type title : String) : Builder :=
  b.inside "man_start_object" fun b =>
    b.withObjectType type fun kind => b.openBlock (.object kind title false)

/-- Closes the innermost object and opens another at the same level. -/
def sibling (b : Builder) (type title : String) : Builder :=
  if b.failed then b
  else if b.innermost ≠ some .object then b.fail (.structural .siblingOutside)
  else b.withObjectType type fun kind =>
    (b.close .object).openBlock (.object kind title true)

/-- Closes an object. -/
def endObject (b : Builder) : Builder :=
  b.close .object

/-- Opens a context on a remote object. -/
def context (b : Builder) (gid : Gid) : Builder :=
  b.inside "man_set_context_globalid" (·.openBlock (.context (.global gid)))

/-- Opens a context on a child of the current object. -/
def contextRelative (b : Builder) (tag : UInt32) : Builder :=
  b.inside "man_set_context_relative" (·.openBlock (.context (.relative tag)))

/-- Closes a context. -/
def endContext (b : Builder) : Builder :=
  b.close .context

/-- Opens an action that fires on the named criterion. -/
def action (b : Builder) (criterion : String) : Builder :=
  if b.failed then b
  else if b.innermost ≠ some .object ∧ b.innermost ≠ some .context then
    b.fail (.structural (.actionOutside criterion))
  else
    match Vocabulary.criterion.value? criterion with
    | some value => b.openBlock (.action value)
    | none => b.fail (.format (.unknownCriterion criterion))

/-- Closes an action. -/
def endAction (b : Builder) : Builder :=
  b.close .action

/-- Adds an atom that has been checked. -/
def pushAtom (b : Builder) (atom : Atom) : Builder :=
  b.inside atom.name (·.pushPlain atom)

/-- Adds an atom. -/
def atom (b : Builder) (name : String) (ops : List Operand) : Builder :=
  b.inside name fun b =>
    match Atom.make name ops with
    | .ok atom => b.pushPlain atom
    | .error error => b.fail (.ofAtomError error)

/-- Adds an atom whose first operand is given by a symbolic name. -/
def named (b : Builder) (name symbol : String) (rest : List Operand) : Builder :=
  if b.failed then b
  else
    match Signature.byName? name with
    | none => b.fail (.unknownAtom name)
    | some s =>
      match s.fields with
      | .named vocabulary :: _ =>
        match vocabulary.value? symbol with
        | some value => b.atom name (.int value.toUInt32 :: rest)
        | none => b.fail (.format (.unknownName name vocabulary symbol))
      | _ => b.fail (.format (.noSymbolicOperand name))

/-- Finishes the script. -/
def build (b : Builder) : Except CompileError Script :=
  match b.fault, b.opened with
  | some error, _ => .error error
  | none, block :: _ => .error (.structural (.unclosed block.head.block))
  | none, [] => .ok ⟨b.roots.reverse⟩

end Builder

end Switchboard
