import Switchboard.Proofs.Script.Placed

/-!
# The calls that a script was built by

A script says what calls it was built by: read in document order, each block stands for the call that
opens it, what is in it, and the call that closes it.  A sibling closes the object before it, so that
object has no closing call of its own.

Main results:

* `Builder.callsSoFar_of_done`: a call that does not fail is added to the calls that a builder stands
  for.
* `Builder.length_opened`: as many blocks are open as calls have opened and no call has closed.
* `Builder.build_exact`: if no call has failed and every block is closed, the script stands for exactly
  the calls that were made; otherwise the first fault is returned.
-/

namespace Switchboard

-- ---------------------------------------------------------------------------
-- The calls that nodes stand for
-- ---------------------------------------------------------------------------

/-- The calls that end a block: none for an object that is `continued` by a sibling. -/
def Block.endCalls (continued : Bool) (kind : Block) : List Builder.Call :=
  if kind = .object ∧ continued then [] else [kind.endCall]

mutual

/-- The calls that a node stands for.  An object may be `continued` by a sibling. -/
def Node.calls (continued : Bool) : Node → List Builder.Call
  | .atom a => [.pushAtom a]
  | .stream id children =>
    (Head.stream id).call :: (Node.callsEach children ++ Block.stream.endCalls continued)
  | .object kind title sibling children =>
    (Head.object kind title sibling).call ::
      (Node.callsEach children ++ Block.object.endCalls continued)
  | .context target children =>
    (Head.context target).call :: (Node.callsEach children ++ Block.context.endCalls continued)
  | .action criterion body =>
    (Head.action criterion).call :: (Node.callsEach body ++ Block.action.endCalls continued)

/-- The calls that nodes side by side stand for. -/
def Node.callsEach : List Node → List Builder.Call
  | [] => []
  | node :: rest => node.calls (rest.head?.any (·.isSibling)) ++ Node.callsEach rest

end

/-- The calls that a script stands for. -/
def Script.calls (script : Script) : List Builder.Call :=
  Node.callsEach script.nodes

/-- The calls that nodes stand for, which stand latest first.  The latest may be `continued` by a
sibling. -/
def Node.callsLatest (continued : Bool) : List Node → List Builder.Call
  | [] => []
  | node :: earlier => Node.callsLatest node.isSibling earlier ++ node.calls continued

theorem Node.callsEach_reverseAux (earlier later : List Node) :
    Node.callsEach (earlier.reverseAux later) =
      Node.callsLatest (later.head?.any (·.isSibling)) earlier ++ Node.callsEach later := by
  induction earlier generalizing later with
  | nil => rfl
  | cons node earlier ih =>
    rw [List.reverseAux_cons, ih, callsEach, callsLatest, List.append_assoc]
    rfl

/-- The calls are the same read in order, or from the latest node back. -/
theorem Node.callsEach_reverse (nodes : List Node) :
    Node.callsEach nodes.reverse = Node.callsLatest false nodes := by
  have h := Node.callsEach_reverseAux nodes []
  rw [List.reverseAux_eq, List.append_nil] at h
  rw [h, callsEach, List.append_nil]
  rfl

/-- A closed block stands for the call that opened it, what is in it, and the call that closed it. -/
theorem Head.calls_node (head : Head) (children : List Node) (continued : Bool) :
    (head.node children.reverse).calls continued =
      head.call :: (Node.callsLatest false children ++ head.block.endCalls continued) := by
  cases head <;> rw [node, Node.calls, Node.callsEach_reverse] <;> rfl

-- ---------------------------------------------------------------------------
-- The calls that a builder stands for
-- ---------------------------------------------------------------------------

namespace Builder

/-- The calls that the top-level nodes and the open blocks, innermost first, stand for. -/
def callsOf (roots : List Node) (continued : Bool) : List OpenBlock → List Call
  | [] => Node.callsLatest continued roots
  | block :: outer =>
    callsOf roots block.head.isSibling outer ++
      block.head.call :: Node.callsLatest continued block.children

/-- The calls that a script under construction stands for.  The latest node may be `continued` by a
sibling. -/
def callsSoFar (b : Builder) (continued : Bool) : List Call :=
  callsOf b.roots continued b.opened

theorem callsSoFar_push (b : Builder) (node : Node) (continued : Bool) :
    (b.push node).callsSoFar continued = b.callsSoFar node.isSibling ++ node.calls continued := by
  obtain ⟨roots, opened, fault⟩ := b
  cases opened with
  | nil => rfl
  | cons block outer =>
    show callsOf roots _ outer ++ _ :: (_ ++ _) = callsOf roots _ outer ++ _ :: _ ++ _
    rw [List.append_assoc]
    rfl

theorem callsSoFar_opening (b : Builder) (head : Head) (continued : Bool) :
    (b.opening head).callsSoFar continued = b.callsSoFar head.isSibling ++ [head.call] := rfl

theorem callsSoFar_closing {b : Builder} {block : OpenBlock} {outer : List OpenBlock}
    (h : b.opened = block :: outer) (continued : Bool) :
    (b.closing block outer).callsSoFar continued =
      b.callsSoFar false ++ block.head.block.endCalls continued := by
  rw [closing, callsSoFar_push, Head.isSibling_node, Head.calls_node]
  show callsOf b.roots _ outer ++ _ = callsOf b.roots _ b.opened ++ _
  rw [h, callsOf, List.append_assoc, List.cons_append]

theorem read_call (head : Head) : head.call.read = head.call := by
  cases head with
  | stream id => cases id <;> rfl
  | object kind title sibling => cases sibling <;> rfl
  | context target => cases target <;> rfl
  | action criterion => rfl

theorem read_endCall (kind : Block) : kind.endCall.read = kind.endCall := by
  cases kind <;> rfl

/-- A call that does not fail is added to the calls that a builder stands for. -/
theorem callsSoFar_of_done {b after : Builder} {c : Call} (h : Done b c after) :
    after.callsSoFar false = b.callsSoFar false ++ [c.read] := by
  cases h with
  | opens head fits first => rw [callsSoFar_opening, first, read_call]
  | @closes block outer innermost =>
    have hend : block.head.block.endCalls false = [block.head.block.endCall] := by simp [Block.endCalls]
    rw [callsSoFar_closing innermost, hend, read_endCall]
  | @replaces block outer innermost object kind title =>
    -- the object before the sibling has no closing call
    have hend : block.head.block.endCalls true = [] := by simp [Block.endCalls, object]
    rw [callsSoFar_opening, Head.isSibling, callsSoFar_closing innermost, hend, List.append_nil,
      read_call]
  | adds a made plain inside =>
    have hread : c.read = .pushAtom a := by rw [Call.read, made]
    rw [callsSoFar_push, hread]
    rfl

theorem callsSoFar_callAll {calls : List Call} (h : (empty.callAll calls).failed = false) :
    (empty.callAll calls).callsSoFar false = calls.map Call.read := by
  refine callAll_induction (P := fun calls b => b.callsSoFar false = calls.map Call.read) rfl ?_ calls h
  intro calls b c after _ hcalls hdone
  rw [callsSoFar_of_done hdone, hcalls, List.map_append, List.map_singleton]

end Builder

/-- A script stands for the calls that built it. -/
theorem Script.calls_of_build {calls : List Builder.Call} {script : Script}
    (h : (Builder.empty.callAll calls).build = .ok script) :
    script.calls = calls.map Builder.Call.read := by
  obtain ⟨hfailed, hopened, rfl⟩ := Builder.build_eq_ok_iff.mp h
  have hcalls := Builder.callsSoFar_callAll hfailed
  rw [Builder.callsSoFar, hopened, Builder.callsOf] at hcalls
  rw [← hcalls]
  exact Node.callsEach_reverse _

namespace Builder

-- ---------------------------------------------------------------------------
-- Open blocks
-- ---------------------------------------------------------------------------

/-- Whether the call opens a block. -/
def Call.isOpening : Call → Bool
  | .stream | .streamWithId _ | .object .. | .context _ | .contextRelative _ | .action _ => true
  | _ => false

/-- Whether the call closes a block, and opens no other. -/
def Call.isClosing : Call → Bool
  | .endStream | .endObject | .endContext | .endAction => true
  | _ => false

theorem counts_head {head : Head} (h : head.isSibling = false) :
    head.call.isOpening = true ∧ head.call.isClosing = false := by
  cases head with
  | stream id => cases id <;> exact ⟨rfl, rfl⟩
  | object kind title sibling =>
    have hsibling : sibling = false := h
    rw [hsibling]
    exact ⟨rfl, rfl⟩
  | context target => cases target <;> exact ⟨rfl, rfl⟩
  | action criterion => exact ⟨rfl, rfl⟩

theorem counts_endCall (kind : Block) :
    kind.endCall.isOpening = false ∧ kind.endCall.isClosing = true := by
  cases kind <;> exact ⟨rfl, rfl⟩

/-- A call for an atom neither opens nor closes a block. -/
theorem counts_atom {c : Call} {a : Atom} (h : c.atom? = some a) :
    c.isOpening = false ∧ c.isClosing = false := by
  cases c <;> first | exact ⟨rfl, rfl⟩ | exact absurd h.symm (Option.some_ne_none a)

theorem length_opened_push (b : Builder) (node : Node) :
    (b.push node).opened.length = b.opened.length := by
  unfold push
  split
  · rfl
  · next hopened => rw [hopened]; rfl

theorem length_opened_closing {b : Builder} {block : OpenBlock} {outer : List OpenBlock}
    (h : b.opened = block :: outer) : (b.closing block outer).opened.length + 1 = b.opened.length := by
  rw [closing, length_opened_push, h]
  rfl

/-- As many blocks are open as calls have opened and no call has closed. -/
theorem length_opened {calls : List Call} (h : (empty.callAll calls).failed = false) :
    (empty.callAll calls).opened.length + calls.countP Call.isClosing =
      calls.countP Call.isOpening := by
  refine callAll_induction (P := fun calls b =>
    b.opened.length + calls.countP Call.isClosing = calls.countP Call.isOpening) rfl ?_ calls h
  intro calls b c after _ hcount hdone
  rw [List.countP_append, List.countP_append, List.countP_singleton, List.countP_singleton]
  cases hdone with
  | opens head fits first =>
    obtain ⟨hopening, hclosing⟩ := counts_head first
    have hlength : (b.opening head).opened.length = b.opened.length + 1 := List.length_cons
    rw [hopening, hclosing, hlength]
    simp only [Bool.false_eq_true, if_true, if_false]
    omega
  | @closes block outer innermost =>
    obtain ⟨hopening, hclosing⟩ := counts_endCall block.head.block
    have hlength := length_opened_closing innermost
    rw [hopening, hclosing]
    simp only [Bool.false_eq_true, if_true, if_false]
    omega
  | @replaces block outer innermost object kind title =>
    -- one block is closed and one is opened
    have hlength := length_opened_closing innermost
    have hsibling : ((b.closing block outer).opening (.object kind title true)).opened.length =
        (b.closing block outer).opened.length + 1 := List.length_cons
    show _ + (_ + 0) = _ + 0
    omega
  | adds a made plain inside =>
    obtain ⟨hopening, hclosing⟩ := counts_atom made
    rw [hopening, hclosing, length_opened_push]
    simp only [Bool.false_eq_true, if_false]
    omega

-- ---------------------------------------------------------------------------
-- The first fault
-- ---------------------------------------------------------------------------

/-- If some call has failed, there is a first one, and no call after it changes anything. -/
theorem exists_first_fault {calls : List Call} (h : (empty.callAll calls).failed = true) :
    ∃ before c after error, calls = before ++ c :: after ∧ (empty.callAll before).failed = false ∧
      ((empty.callAll before).call c).fault = some error ∧
      ∀ more, empty.callAll (before ++ c :: more) = (empty.callAll before).call c := by
  induction calls using List.reverseRecOn with
  | nil => cases h
  | append_singleton calls c ih =>
    cases hfailed : (empty.callAll calls).failed with
    | true =>
      obtain ⟨before, first, after, error, rfl, hbefore, hfault, hlater⟩ := ih hfailed
      refine ⟨before, first, after ++ [c], error, ?_, hbefore, hfault, hlater⟩
      rw [List.append_assoc, List.cons_append]
    | false =>
      have hlast : ((empty.callAll calls).call c).failed = true := by
        rw [callAll_append] at h
        exact h
      obtain ⟨error, hfault⟩ := Option.isSome_iff_exists.mp hlast
      refine ⟨calls, c, [], error, rfl, hfailed, hfault, fun more => ?_⟩
      rw [callAll_append]
      exact callAll_of_failed hlast more

/-- A builder that has failed returns its fault. -/
theorem build_of_fault {b : Builder} {error : CompileError} (h : b.fault = some error) :
    b.build = .error error := by
  rw [build, h]

/-- A builder with open blocks names the innermost one. -/
theorem build_of_opened {b : Builder} {block : OpenBlock} {outer : List OpenBlock}
    (h : b.failed = false) (hopened : b.opened = block :: outer) :
    b.build = .error (.structural (.unclosed block.head.block)) := by
  have hfault : b.fault = none := Option.not_isSome_iff_eq_none.mp (Bool.eq_false_iff.mp h)
  rw [build, hfault, hopened]

-- ---------------------------------------------------------------------------
-- The builder is exact
-- ---------------------------------------------------------------------------

/-- If no call has failed and every block is closed, the script stands for exactly the calls that were
made, and its nodes stand where their kinds may stand.  If a call has failed, no later call changes
anything and the fault of the first one is returned.  If blocks are open, that is the fault. -/
theorem build_exact (calls : List Call) :
    ((empty.callAll calls).failed = false →
      calls.countP Call.isClosing = calls.countP Call.isOpening →
      ∃ script, (empty.callAll calls).build = .ok script ∧ script.calls = calls.map Call.read ∧
        script.IsPlaced ∧ ∀ node ∈ script.nodes, ∃ id children, node = .stream id children) ∧
    ((empty.callAll calls).failed = true →
      ∃ before c after error, calls = before ++ c :: after ∧
        (empty.callAll before).failed = false ∧
        ((empty.callAll before).call c).fault = some error ∧
        (∀ more, empty.callAll (before ++ c :: more) = (empty.callAll before).call c) ∧
        (empty.callAll calls).build = .error error) ∧
    ((empty.callAll calls).failed = false →
      calls.countP Call.isClosing ≠ calls.countP Call.isOpening →
      ∃ kind, (empty.callAll calls).build = .error (.structural (.unclosed kind))) := by
  refine ⟨fun h hcount => ?_, fun h => ?_, fun h hcount => ?_⟩
  · have hlength := length_opened h
    have hopened : (empty.callAll calls).opened = [] := List.eq_nil_of_length_eq_zero (by omega)
    have hbuild := build_eq_ok_iff.mpr ⟨h, hopened, rfl⟩
    have hplaced := Script.isPlaced_of_build hbuild
    refine ⟨_, hbuild, ?_, hplaced, fun node hmem => ?_⟩
    · have hcalls := callsSoFar_callAll h
      rw [callsSoFar, hopened, callsOf] at hcalls
      rw [← hcalls]
      exact Node.callsEach_reverse _
    · exact Node.exists_stream_of_isPlaced (Node.isPlaced_of_arePlaced hplaced hmem)
  · obtain ⟨before, c, after, error, rfl, hbefore, hfault, hlater⟩ := exists_first_fault h
    refine ⟨before, c, after, error, rfl, hbefore, hfault, hlater, ?_⟩
    rw [hlater]
    exact build_of_fault hfault
  · have hlength := length_opened h
    have hopened : (empty.callAll calls).opened ≠ [] := by
      intro hempty
      rw [hempty, List.length_nil] at hlength
      omega
    obtain ⟨block, outer, hopened⟩ := List.exists_cons_of_ne_nil hopened
    exact ⟨_, build_of_opened h hopened⟩

/-- Two objects side by side, the second with an action, come back as they were put in.  Without the
last call the stream is open, and an action at the top level is the fault that stays. -/
theorem build_exact_siblings :
    (∃ script, (empty.callAll [.stream, .object "trigger" "a", .sibling "trigger" "b",
        .action "select", .named "mat_orientation" "vcf" [], .endAction, .endObject,
        .endStream]).build = .ok script ∧
      script.calls = [.stream, .object "trigger" "a", .sibling "trigger" "b", .action "select",
        (Call.named "mat_orientation" "vcf" []).read, .endAction, .endObject, .endStream]) ∧
    (∃ kind, (empty.callAll [.stream, .object "trigger" "a", .endObject]).build =
      .error (.structural (.unclosed kind))) ∧
    (∃ error, (empty.callAll [.action "select", .stream]).build = .error error) := by
  refine ⟨?_, ?_, ?_⟩
  · obtain ⟨script, hbuild, hcalls, -⟩ := (build_exact [.stream, .object "trigger" "a",
      .sibling "trigger" "b", .action "select", .named "mat_orientation" "vcf" [], .endAction,
      .endObject, .endStream]).1 rfl rfl
    exact ⟨script, hbuild, hcalls⟩
  · exact (build_exact [.stream, .object "trigger" "a", .endObject]).2.2 rfl (by decide)
  · obtain ⟨-, -, -, error, -, -, -, -, hbuild⟩ := (build_exact [.action "select", .stream]).2.1 rfl
    exact ⟨error, hbuild⟩

end Builder

end Switchboard
