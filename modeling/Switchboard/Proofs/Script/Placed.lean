import Switchboard.Proofs.Script.Calls

/-!
# Where the nodes of a script stand

The calls of a builder put nodes only where their kinds may stand: streams anywhere, all else inside a
block, actions inside an object or a context only, and a sibling only behind an object.

Main results:

* `Builder.isPlaced_of_done`: a call that does not fail keeps every node in its place.
* `Script.isPlaced_of_build`: so they are in every script that a builder returns.
-/

namespace Switchboard

-- ---------------------------------------------------------------------------
-- Places
-- ---------------------------------------------------------------------------

/-- Whether the node is an object. -/
def Node.isObject : Node → Bool
  | .object .. => true
  | _ => false

mutual

/-- Whether a node may stand in a block of the given kind, or at the top level, and so may the nodes in
it: atoms, objects and contexts stand inside a block, and actions inside an object or a context.  An atom
changes no scope, and the streams that it carries are balanced. -/
def Node.IsPlaced (around : Option Block) : Node → Prop
  | .atom a => around.isSome = true ∧ a.IsSelfContained
  | .stream _ children => Node.ArePlaced (some .stream) false children
  | .object _ _ _ children => around.isSome = true ∧ Node.ArePlaced (some .object) false children
  | .context _ children => around.isSome = true ∧ Node.ArePlaced (some .context) false children
  | .action _ body =>
    (around = some .object ∨ around = some .context) ∧ Node.ArePlaced (some .action) false body

/-- Whether nodes may stand side by side in a block of the given kind, or at the top level: each may
stand there, and a sibling stands right behind an object.  `behind` says whether the first of them does
so. -/
def Node.ArePlaced (around : Option Block) (behind : Bool) : List Node → Prop
  | [] => True
  | node :: rest =>
    (node.isSibling = true → behind = true) ∧ node.IsPlaced around ∧
      Node.ArePlaced around node.isObject rest

end

/-- Whether every node of a script stands where its kind may stand.  At the top level these are streams
only. -/
def Script.IsPlaced (script : Script) : Prop :=
  Node.ArePlaced none false script.nodes

theorem Node.arePlaced_concat {around : Option Block} {behind : Bool} {nodes : List Node}
    {node : Node} :
    Node.ArePlaced around behind (nodes ++ [node]) ↔
      Node.ArePlaced around behind nodes ∧ node.IsPlaced around ∧
        (node.isSibling = true → (nodes.getLast?.elim behind (·.isObject)) = true) := by
  induction nodes generalizing behind with
  | nil => simp [ArePlaced, and_comm]
  | cons first rest ih =>
    rw [List.cons_append, ArePlaced, ArePlaced, ih]
    have hlast : ((first :: rest).getLast?.elim behind (·.isObject)) =
        rest.getLast?.elim first.isObject (·.isObject) := by
      cases rest with
      | nil => rfl
      | cons second rest =>
        rw [List.getLast?_cons_cons, List.getLast?_cons]
        rfl
    rw [hlast]
    simp only [and_assoc]

theorem Node.isPlaced_of_arePlaced {around : Option Block} {behind : Bool} {nodes : List Node}
    {node : Node} (h : Node.ArePlaced around behind nodes) (hmem : node ∈ nodes) :
    node.IsPlaced around := by
  induction nodes generalizing behind with
  | nil => cases hmem
  | cons first rest ih =>
    obtain ⟨-, hfirst, hrest⟩ := h
    cases hmem with
    | head => exact hfirst
    | tail _ hmem => exact ih hrest hmem

/-- At the top level of a script stand streams. -/
theorem Node.exists_stream_of_isPlaced {node : Node} (h : node.IsPlaced none) :
    ∃ id children, node = .stream id children := by
  cases node with
  | stream id children => exact ⟨id, children, rfl⟩
  | atom a => simp [IsPlaced] at h
  | object kind title sibling children => simp [IsPlaced] at h
  | context target children => simp [IsPlaced] at h
  | action criterion body => simp [IsPlaced] at h

-- ---------------------------------------------------------------------------
-- Builders
-- ---------------------------------------------------------------------------

theorem Head.isPlaced_node (head : Head) (children : List Node) (around : Option Block) :
    (head.node children).IsPlaced around ↔
      head.FitsIn around ∧ Node.ArePlaced (some head.block) false children := by
  cases head with
  | stream id =>
    rw [node, Node.IsPlaced, FitsIn, true_and]
    rfl
  | object kind title sibling =>
    rw [node, Node.IsPlaced, FitsIn]
    rfl
  | context target =>
    rw [node, Node.IsPlaced, FitsIn]
    rfl
  | action criterion =>
    rw [node, Node.IsPlaced, FitsIn]
    rfl

theorem Head.isObject_node {head : Head} (h : head.block = .object) (children : List Node) :
    (head.node children).isObject = true := by
  cases head <;> first | rfl | cases h

namespace Builder

/-- The latest node of the innermost block, or of the top level. -/
def latestOf (roots : List Node) : List OpenBlock → Option Node
  | [] => roots.head?
  | block :: _ => block.children.head?

/-- Whether the next node of the innermost block, or of the top level, stands behind an object. -/
def behindObject (roots : List Node) (opened : List OpenBlock) : Bool :=
  (latestOf roots opened).any (·.isObject)

/-- Whether every node in the open blocks stands where its kind may stand, and so will the nodes that
the blocks become. -/
def ArePlaced (roots : List Node) : List OpenBlock → Prop
  | [] => Node.ArePlaced none false roots.reverse
  | block :: outer =>
    Node.ArePlaced (some block.head.block) false block.children.reverse ∧
      block.head.FitsIn (outer.head?.map (·.head.block)) ∧
      (block.head.isSibling = true → behindObject roots outer = true) ∧ ArePlaced roots outer

/-- Whether every node of a script under construction stands where its kind may stand. -/
def IsPlaced (b : Builder) : Prop :=
  ArePlaced b.roots b.opened

theorem isPlaced_empty : empty.IsPlaced :=
  trivial

/-- Nodes that stand latest first get another one. -/
theorem arePlaced_cons {around : Option Block} {node : Node} {nodes : List Node}
    (h : Node.ArePlaced around false nodes.reverse) (hnode : node.IsPlaced around)
    (hbehind : node.isSibling = true → nodes.head?.any (·.isObject) = true) :
    Node.ArePlaced around false (node :: nodes).reverse := by
  rw [List.reverse_cons, Node.arePlaced_concat, List.getLast?_reverse]
  refine ⟨h, hnode, fun hsibling => ?_⟩
  rw [← hbehind hsibling]
  cases nodes.head? <;> rfl

variable {b : Builder}

theorem isPlaced_push {node : Node} (h : b.IsPlaced) (hnode : node.IsPlaced b.innermost)
    (hbehind : node.isSibling = true → behindObject b.roots b.opened = true) :
    (b.push node).IsPlaced := by
  obtain ⟨roots, opened, fault⟩ := b
  cases opened with
  | nil => exact arePlaced_cons h hnode hbehind
  | cons block outer =>
    obtain ⟨hchildren, hrest⟩ := h
    exact ⟨arePlaced_cons hchildren hnode hbehind, hrest⟩

theorem isPlaced_opening {head : Head} (h : b.IsPlaced) (hfits : head.FitsIn b.innermost)
    (hbehind : head.isSibling = true → behindObject b.roots b.opened = true) :
    (b.opening head).IsPlaced :=
  ⟨trivial, hfits, hbehind, h⟩

section Closing

variable {block : OpenBlock} {outer : List OpenBlock}

theorem isPlaced_closing (h : b.IsPlaced) (hopened : b.opened = block :: outer) :
    (b.closing block outer).IsPlaced := by
  rw [IsPlaced, hopened] at h
  obtain ⟨hchildren, hfits, hbehind, houter⟩ := h
  have hnode : (block.head.node block.children.reverse).IsPlaced
      (outer.head?.map (·.head.block)) :=
    (block.head.isPlaced_node _ _).mpr ⟨hfits, hchildren⟩
  refine isPlaced_push houter hnode fun hsibling => ?_
  rw [Head.isSibling_node] at hsibling
  exact hbehind hsibling

theorem innermost_closing (b : Builder) (block : OpenBlock) (outer : List OpenBlock) :
    (b.closing block outer).innermost = outer.head?.map (·.head.block) := by
  cases outer <;> rfl

/-- What stands latest is the node that the closed block has become. -/
theorem latestOf_closing (b : Builder) (block : OpenBlock) (outer : List OpenBlock) :
    latestOf (b.closing block outer).roots (b.closing block outer).opened =
      some (block.head.node block.children.reverse) := by
  cases outer <;> rfl

end Closing

/-- A call that does not fail keeps every node in its place. -/
theorem isPlaced_of_done {c : Call} {after : Builder} (h : b.IsPlaced) (hdone : Done b c after) :
    after.IsPlaced := by
  cases hdone with
  | opens head fits first =>
    refine isPlaced_opening h fits fun hsibling => ?_
    rw [first] at hsibling
    cases hsibling
  | closes innermost => exact isPlaced_closing h innermost
  | @replaces block outer innermost object kind title =>
    have hclosed := isPlaced_closing h innermost
    refine isPlaced_opening hclosed ?_ fun _ => ?_
    · -- the sibling stands where the object stood
      rw [IsPlaced, innermost] at h
      obtain ⟨-, hfits, -⟩ := h
      rw [Head.FitsIn, innermost_closing]
      cases hhead : block.head with
      | object kind title sibling =>
        rw [hhead] at hfits
        exact hfits
      | _ => rw [hhead] at object; cases object
    · rw [behindObject, latestOf_closing]
      exact Head.isObject_node object _
  | adds a made plain inside =>
    refine isPlaced_push h ?_ fun hsibling => nomatch hsibling
    rw [Node.IsPlaced]
    exact ⟨isSome_innermost inside, plain⟩

theorem isPlaced_callAll {calls : List Call} (h : (empty.callAll calls).failed = false) :
    (empty.callAll calls).IsPlaced :=
  callAll_induction (P := fun _ b => b.IsPlaced) isPlaced_empty
    (fun _ _ _ _ _ hplaced hdone => isPlaced_of_done hplaced hdone) calls h

end Builder

/-- A script that a builder returns is what its top-level nodes are. -/
theorem Builder.build_eq_ok_iff {b : Builder} {script : Script} :
    b.build = .ok script ↔
      b.failed = false ∧ b.opened = [] ∧ script = ⟨b.roots.reverse⟩ := by
  unfold build failed
  cases b.fault with
  | some error => simp
  | none =>
    cases b.opened with
    | nil => simp [eq_comm]
    | cons block outer => simp

/-- In every script that a builder returns, the nodes stand where their kinds may stand. -/
theorem Script.isPlaced_of_build {calls : List Builder.Call} {script : Script}
    (h : (Builder.empty.callAll calls).build = .ok script) : script.IsPlaced := by
  obtain ⟨hfailed, hopened, rfl⟩ := Builder.build_eq_ok_iff.mp h
  have hplaced := Builder.isPlaced_callAll hfailed
  rw [Builder.IsPlaced, hopened] at hplaced
  exact hplaced

end Switchboard
