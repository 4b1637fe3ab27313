import Switchboard.Proofs.Except
import Switchboard.Script.Builder
import Switchboard.Script.Compile

/-!
# The atoms of a script under construction

A builder holds a script whose blocks are not all closed.  Its *draft* is what flattening has
written of it so far: the atoms of the innermost stream, and those of the streams around it, of
which each waits for the action that is being written inside it.

Main results:

* `Builder.draft_openBlock`, `Builder.draft_push` and `Builder.draft_close`: what the calls add to
  the draft.
* `Builder.draft_of_build`: the draft of a finished script is what flattening gives.
-/

namespace Switchboard

-- ---------------------------------------------------------------------------
-- Nodes, latest first
-- ---------------------------------------------------------------------------

/-- Adds the atoms of nodes, which stand latest first, to those before them.  The latest node may be
`continued` by a sibling. -/
def Node.flattenLatest (out : List Atom) (continued : Bool) :
    List Node → Except CompileError (List Atom)
  | [] => .ok out
  | node :: earlier => do
    let out ← Node.flattenLatest out node.isSibling earlier
    node.flattenOnto out continued

theorem Node.flattenAllOnto_reverseAux (out : List Atom) (earlier later : List Node) :
    Node.flattenAllOnto out (earlier.reverseAux later) =
      Node.flattenLatest out (later.head?.any (·.isSibling)) earlier >>= fun out =>
        Node.flattenAllOnto out later := by
  induction earlier generalizing later with
  | nil => rfl
  | cons node earlier ih =>
    rw [List.reverseAux_cons, ih, Node.flattenLatest, bind_assoc]
    refine bind_congr fun out => ?_
    rw [Node.flattenAllOnto]

/-- Flattening nodes in order, or from the latest one back. -/
theorem Node.flattenAllOnto_reverse (out : List Atom) (nodes : List Node) :
    Node.flattenAllOnto out nodes.reverse = Node.flattenLatest out false nodes := by
  have h := Node.flattenAllOnto_reverseAux out nodes []
  rw [List.reverseAux_eq, List.append_nil] at h
  rw [h]
  have hnone : (fun out => Node.flattenAllOnto out []) = pure := by
    funext out
    rw [Node.flattenAllOnto]
    rfl
  rw [hnone, bind_pure]
  rfl

-- ---------------------------------------------------------------------------
-- Blocks
-- ---------------------------------------------------------------------------

/-- The atoms of streams that are being written, latest first. -/
structure Draft where
  /-- The innermost stream. -/
  here : List Atom
  /-- The streams around it, from the inside out, each with the criterion of the action whose body is
  being written. -/
  around : List (UInt8 × List Atom)

namespace Draft

/-- Adds an atom to the innermost stream. -/
def push (d : Draft) (a : Atom) : Draft :=
  { d with here := a :: d.here }

end Draft

namespace Head

/-- Whether the block replaces the object before it. -/
def isSibling : Head → Bool
  | object _ _ sibling => sibling
  | _ => false

theorem isSibling_node (head : Head) (children : List Node) :
    (head.node children).isSibling = head.isSibling := by
  cases head <;> rfl

/-- What a block starts with: an opener, or a stream of its own. -/
def begin (d : Draft) : Head → Except CompileError Draft
  | stream id => do return d.push (← Atom.forScript "uni_start_stream" (id.map Operand.int).toList)
  | object kind title sibling => do
    return d.push (← Atom.forScript (if sibling then "man_start_sibling" else "man_start_object")
      [.int kind.toUInt32, .str title])
  | context target => do return d.push (← target.opener)
  | action criterion => do
    return ⟨[← Atom.forScript "uni_start_stream" []], (criterion, d.here) :: d.around⟩

end Head

/-- What a block ends with: a closer, or an action that carries the stream.  An object that is
`continued` by a sibling has no closer. -/
def Block.finish (d : Draft) (continued : Bool) : Block → Except CompileError Draft
  | stream => do return d.push (← Atom.forScript "uni_end_stream" [])
  | object => do
    if continued then return d else return d.push (← Atom.forScript "man_end_object" [])
  | context => do return d.push (← Atom.forScript "man_end_context" [])
  | action => do
    let closer ← Atom.forScript "uni_end_stream" []
    match d.around with
    | [] => return d
    | (criterion, outer) :: around =>
      return ⟨(← actionAtoms criterion (closer :: d.here).reverse).reverse ++ outer, around⟩

namespace Head

/-- A closed block gives what it starts with, its contents and what it ends with. -/
theorem flattenOnto_node (head : Head) (children : List Node) (d : Draft) (continued : Bool) :
    (do return { d with here := ← (head.node children.reverse).flattenOnto d.here continued }) =
      (do
        let inner ← head.begin d
        let here ← Node.flattenLatest inner.here false children
        head.block.finish { inner with here } continued) := by
  cases head with
  | stream id =>
    simp only [node, Node.flattenOnto, Node.flattenAllOnto_reverse, begin, block,
      Block.finish, bind_assoc, pure_bind]
    rfl
  | object kind title sibling =>
    simp only [node, Node.flattenOnto, Node.flattenAllOnto_reverse, begin, block,
      Block.finish, bind_assoc, pure_bind]
    cases continued <;> rfl
  | context target =>
    simp only [node, Node.flattenOnto, Node.flattenAllOnto_reverse, begin, block,
      Block.finish, bind_assoc, pure_bind]
    rfl
  | action criterion =>
    simp only [node, Node.flattenOnto, Node.flattenAllOnto_reverse, begin, block,
      Block.finish, bind_assoc, pure_bind]

end Head

-- ---------------------------------------------------------------------------
-- Builders
-- ---------------------------------------------------------------------------

namespace Builder

/-- What flattening has written of the top-level nodes and the open blocks, innermost first. -/
def draftOf (roots : List Node) : List OpenBlock → Bool → Except CompileError Draft
  | [], continued => do return ⟨← Node.flattenLatest [] continued roots, []⟩
  | block :: outer, continued => do
    let d ← block.head.begin (← draftOf roots outer block.head.isSibling)
    return { d with here := ← Node.flattenLatest d.here continued block.children }

/-- What flattening has written of a script under construction.  The latest node may be `continued`
by a sibling. -/
def draft (b : Builder) (continued : Bool) : Except CompileError Draft :=
  draftOf b.roots b.opened continued

theorem draft_push (b : Builder) (node : Node) (continued : Bool) :
    (b.push node).draft continued = do
      let d ← b.draft node.isSibling
      return { d with here := ← node.flattenOnto d.here continued } := by
  obtain ⟨roots, opened, fault⟩ := b
  cases opened with
  | nil =>
    simp only [push, draft, draftOf, Node.flattenLatest, bind_assoc, pure_bind]
  | cons block outer =>
    simp only [push, draft, draftOf, Node.flattenLatest, bind_assoc, pure_bind]

/-- A block that has been opened. -/
theorem draft_open (b : Builder) (head : Head) (continued : Bool) :
    ({ b with opened := ⟨head, []⟩ :: b.opened } : Builder).draft continued =
      b.draft head.isSibling >>= head.begin := by
  simp only [draft, draftOf, Node.flattenLatest]
  refine bind_congr fun d => ?_
  cases head.begin d <;> rfl

/-- A block that has been closed. -/
theorem draft_closed {b : Builder} {block : OpenBlock} {outer : List OpenBlock}
    (h : b.opened = block :: outer) (continued : Bool) :
    (({ b with opened := outer } : Builder).push (block.head.node block.children.reverse)).draft
        continued = b.draft false >>= fun d => block.head.block.finish d continued := by
  rw [draft_push, Head.isSibling_node, draft, draft, h, draftOf]
  simp only [bind_assoc, pure_bind]
  refine bind_congr fun d => ?_
  exact block.head.flattenOnto_node block.children d continued

-- ---------------------------------------------------------------------------
-- Calls that do not fail
-- ---------------------------------------------------------------------------

section Calls

variable {b : Builder} {d : Draft} {continued : Bool}

theorem failed_fail (b : Builder) (error : CompileError) : (b.fail error).failed = true := by
  unfold fail
  split
  · assumption
  · rfl

theorem inside_eq {what : String} {next : Builder → Builder}
    (h : (b.inside what next).failed = false) :
    b.failed = false ∧ b.inside what next = next b := by
  unfold inside at h ⊢
  split at h
  · next hfailed => exact absurd (hfailed.symm.trans h) Bool.noConfusion
  · next hfailed =>
    split at h
    · rw [failed_fail] at h
      cases h
    · next hopened =>
      rw [if_neg hfailed, if_neg hopened]
      exact ⟨Bool.eq_false_iff.mpr hfailed, rfl⟩

theorem withObjectType_eq {name : String} {next : UInt8 → Builder}
    (h : (b.withObjectType name next).failed = false) :
    ∃ kind, Vocabulary.objectType.value? name = some kind ∧
      b.withObjectType name next = next kind := by
  unfold withObjectType at h ⊢
  split at h
  · next kind hkind =>
    rw [hkind]
    exact ⟨kind, rfl, rfl⟩
  · rw [failed_fail] at h
    cases h

/-- A block has been opened. -/
theorem draft_openBlock {head : Head} (h : (b.openBlock head).failed = false)
    (hd : (b.openBlock head).draft continued = .ok d) :
    b.failed = false ∧ ∃ before, b.draft head.isSibling = .ok before ∧ head.begin before = .ok d := by
  unfold openBlock at h hd
  split at h
  · next hfailed => exact absurd (hfailed.symm.trans h) Bool.noConfusion
  · next hfailed =>
    rw [if_neg hfailed, draft_open] at hd
    exact ⟨h, bind_eq_ok_iff.mp hd⟩

/-- A block has been closed. -/
theorem draft_close {kind : Block} (h : (b.close kind).failed = false)
    (hd : (b.close kind).draft continued = .ok d) :
    b.failed = false ∧ ∃ before, b.draft false = .ok before ∧
      kind.finish before continued = .ok d := by
  unfold close at h hd
  split at h
  · next hfailed => exact absurd (hfailed.symm.trans h) Bool.noConfusion
  · next hfailed =>
    rw [if_neg hfailed] at hd
    split at h
    · rw [failed_fail] at h
      cases h
    · next block outer hopened =>
      rw [hopened] at hd
      dsimp only at hd
      split at h
      · next hblock =>
        rw [if_pos hblock, draft_closed hopened] at hd
        obtain ⟨before, hbefore, hfinish⟩ := bind_eq_ok_iff.mp hd
        rw [hblock] at hfinish
        exact ⟨Bool.eq_false_iff.mpr hfailed, before, hbefore, hfinish⟩
      · rw [failed_fail] at h
        cases h

/-- An atom has been added. -/
theorem draft_pushAtom {a : Atom} (h : (b.pushAtom a).failed = false)
    (hd : (b.pushAtom a).draft continued = .ok d) :
    b.failed = false ∧ ∃ before, b.draft false = .ok before ∧ d = before.push a := by
  obtain ⟨hfailed, heq⟩ := inside_eq h
  rw [pushAtom, heq] at h hd
  have hpush : b.pushPlain a = b.push (.atom a) := by
    unfold pushPlain at h ⊢
    split at h
    · next heffect =>
      rw [if_pos heffect]
      split at h
      · rfl
      · rw [failed_fail] at h
        cases h
    · rw [failed_fail] at h
      cases h
  rw [hpush, draft_push] at hd
  obtain ⟨before, hbefore, hd⟩ := bind_eq_ok_iff.mp hd
  cases hd
  exact ⟨hfailed, before, hbefore, rfl⟩

/-- An object has been opened. -/
theorem draft_object {type title : String} (h : (b.object type title).failed = false)
    (hd : (b.object type title).draft continued = .ok d) :
    b.failed = false ∧ ∃ kind before, Vocabulary.objectType.value? type = some kind ∧
      b.draft false = .ok before ∧ (Head.object kind title false).begin before = .ok d := by
  obtain ⟨-, heq⟩ := inside_eq h
  rw [object, heq] at h hd
  obtain ⟨kind, hkind, heq⟩ := withObjectType_eq h
  rw [heq] at h hd
  obtain ⟨hfailed, before, hbefore, hbegin⟩ := draft_openBlock h hd
  exact ⟨hfailed, kind, before, hkind, hbefore, hbegin⟩

/-- An object has been replaced by its sibling, and has no closer. -/
theorem draft_sibling {type title : String} (h : (b.sibling type title).failed = false)
    (hd : (b.sibling type title).draft continued = .ok d) :
    b.failed = false ∧ ∃ kind before, Vocabulary.objectType.value? type = some kind ∧
      b.draft false = .ok before ∧ (Head.object kind title true).begin before = .ok d := by
  unfold sibling at h hd
  split at h
  · next hfailed => exact absurd (hfailed.symm.trans h) Bool.noConfusion
  · next hfailed =>
    rw [if_neg hfailed] at hd
    split at h
    · rw [failed_fail] at h
      cases h
    · next hinnermost =>
      rw [if_neg hinnermost] at hd
      obtain ⟨kind, hkind, heq⟩ := withObjectType_eq h
      rw [heq] at h hd
      obtain ⟨hclosed, closed, hdraft, hbegin⟩ := draft_openBlock h hd
      obtain ⟨hopen, before, hbefore, hfinish⟩ := draft_close hclosed hdraft
      cases hfinish
      exact ⟨hopen, kind, closed, hkind, hbefore, hbegin⟩

/-- An action has been opened: its body is a stream of its own. -/
theorem draft_action {criterion : String} (h : (b.action criterion).failed = false)
    (hd : (b.action criterion).draft continued = .ok d) :
    b.failed = false ∧ ∃ value before, Vocabulary.criterion.value? criterion = some value ∧
      b.draft false = .ok before ∧ (Head.action value).begin before = .ok d := by
  unfold action at h hd
  split at h
  · next hfailed => exact absurd (hfailed.symm.trans h) Bool.noConfusion
  · next hfailed =>
    rw [if_neg hfailed] at hd
    split at h
    · rw [failed_fail] at h
      cases h
    · next hinnermost =>
      rw [if_neg hinnermost] at hd
      split at h
      · next value hvalue =>
        rw [hvalue] at hd
        obtain ⟨hopen, before, hbefore, hbegin⟩ := draft_openBlock h hd
        exact ⟨hopen, value, before, hvalue, hbefore, hbegin⟩
      · rw [failed_fail] at h
        cases h

end Calls

/-- The draft of a finished script. -/
theorem draft_of_build {b : Builder} {script : Script} {atoms : List Atom}
    (h : b.build = .ok script) (hflatten : script.flatten = .ok atoms) :
    b.failed = false ∧ ∃ here, b.draft false = .ok ⟨here, []⟩ ∧
      atoms = Atom.assignDepths 0 here.reverse := by
  unfold build at h
  split at h
  · cases h
  · cases h
  · next hfault hopened =>
    cases h
    obtain ⟨here, hhere, heq⟩ := bind_eq_ok_iff.mp hflatten
    cases heq
    rw [Node.flattenAllOnto_reverse] at hhere
    refine ⟨by rw [failed, hfault]; rfl, here, ?_, rfl⟩
    rw [draft, hopened, draftOf, hhere]
    rfl

end Builder

end Switchboard
