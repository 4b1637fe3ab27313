import Switchboard.Proofs.Script.Flatten
import Switchboard.Proofs.Script.History

/-!
# Calls that build a script

Whether calls build a script, and whether it can be flattened, can be told from the calls: whether
one fails depends on nothing but the kinds of the open blocks, and the titles of the script are
those of the calls.

Main results:

* `Builder.shape_call`: what a call does to the open blocks.
* `Builder.succeeds_build_iff`: calls build a script if none fails and every block is closed.
* `Script.succeeds_flatten_iff_of_build`: the script can be flattened if the titles among the calls
  are short enough.
-/

namespace Switchboard

-- ---------------------------------------------------------------------------
-- Blocks
-- ---------------------------------------------------------------------------

/-- The open blocks without the innermost one, which must be of the given kind. -/
def Block.closeIn (kind : Block) (blocks : List Block) : Option (List Block) :=
  if blocks.head? = some kind then some blocks.tail else none

/-- The open blocks, innermost first, after a call that does not fail. -/
def Builder.Call.moves (blocks : List Block) : Builder.Call → Option (List Block)
  | .stream | .streamWithId _ => some (.stream :: blocks)
  | .endStream => Block.stream.closeIn blocks
  | .object type _ =>
    if blocks ≠ [] ∧ (Vocabulary.objectType.value? type).isSome then some (.object :: blocks)
    else none
  | .sibling type _ =>
    if blocks.head? = some .object ∧ (Vocabulary.objectType.value? type).isSome then some blocks
    else none
  | .endObject => Block.object.closeIn blocks
  | .context _ | .contextRelative _ => if blocks ≠ [] then some (.context :: blocks) else none
  | .endContext => Block.context.closeIn blocks
  | .action criterion =>
    if (blocks.head? = some .object ∨ blocks.head? = some .context) ∧
        (Vocabulary.criterion.value? criterion).isSome then
      some (.action :: blocks)
    else none
  | .endAction => Block.action.closeIn blocks
  | .fail _ => none
  | .atom name ops => adds (Call.atom? (.atom name ops))
  | .named name symbol rest => adds (Call.atom? (.named name symbol rest))
  | .pushAtom a => adds (some a)
where
  /-- An atom leaves the open blocks as they are. -/
  adds : Option Atom → Option (List Block)
    | some a =>
      if blocks ≠ [] ∧ a.effect = .none ∧ (Operand.checkBalanceList a.operands).isOk then
        some blocks
      else none
    | none => none

namespace Builder

/-- The kinds of the open blocks, innermost first, if no call has failed. -/
def shape (b : Builder) : Option (List Block) :=
  if b.failed then none else some (b.opened.map (·.head.block))

variable {b : Builder}

theorem shape_of_failed (h : b.failed = true) : b.shape = none :=
  if_pos h

theorem shape_of_open (h : b.failed = false) : b.shape = some (b.opened.map (·.head.block)) :=
  if_neg (Bool.eq_false_iff.mp h)

theorem shape_fail (b : Builder) (error : CompileError) : (b.fail error).shape = none :=
  shape_of_failed (failed_fail b error)

theorem shape_push (b : Builder) (node : Node) : (b.push node).shape = b.shape := by
  obtain ⟨roots, opened, fault⟩ := b
  cases opened <;> rfl

theorem shape_openBlock (b : Builder) (head : Head) :
    (b.openBlock head).shape = b.shape.bind fun blocks => some (head.block :: blocks) := by
  cases hfailed : b.failed with
  | true => rw [openBlock_of_failed hfailed, shape_of_failed hfailed, Option.bind_none]
  | false =>
    rw [openBlock_eq hfailed, shape_of_open hfailed]
    exact shape_of_open hfailed

theorem innermost_eq (b : Builder) :
    b.innermost = (b.opened.map (·.head.block)).head? := by
  rw [innermost, List.head?_map]

theorem shape_close (b : Builder) (kind : Block) :
    (b.close kind).shape = b.shape.bind kind.closeIn := by
  cases hfailed : b.failed with
  | true => rw [close_of_failed hfailed, shape_of_failed hfailed, Option.bind_none]
  | false =>
    rw [shape_of_open hfailed, Option.bind_some, close, hfailed, if_neg Bool.false_ne_true]
    cases hopened : b.opened with
    | nil => exact shape_fail _ _
    | cons block outer =>
      dsimp only
      rw [List.map_cons, Block.closeIn, List.head?_cons, List.tail_cons]
      by_cases hkind : block.head.block = kind
      · rw [if_pos hkind, if_pos (congrArg some hkind), shape_push]
        exact shape_of_open hfailed
      · rw [if_neg hkind, if_neg fun h => hkind (Option.some.inj h), shape_fail]

theorem shape_inside (b : Builder) (what : String) (next : Builder → Builder) :
    (b.inside what next).shape =
      b.shape.bind fun blocks => if blocks ≠ [] then (next b).shape else none := by
  unfold inside
  cases hfailed : b.failed with
  | true => rw [if_pos rfl, shape_of_failed hfailed, Option.bind_none]
  | false =>
    rw [if_neg Bool.false_ne_true, shape_of_open hfailed, Option.bind_some]
    cases hopened : b.opened with
    | nil => exact shape_fail _ _
    | cons block outer => rfl

theorem shape_withObjectType (b : Builder) (name : String) (next : UInt8 → Builder) :
    (b.withObjectType name next).shape =
      (Vocabulary.objectType.value? name).bind fun kind => (next kind).shape := by
  unfold withObjectType
  cases Vocabulary.objectType.value? name with
  | none => exact shape_fail _ _
  | some kind => rfl

/-- An atom may stand in a block if it is self-contained. -/
theorem shape_adds (b : Builder) (what : String) (a : Atom) :
    (b.inside what (·.pushPlain a)).shape =
      b.shape.bind fun blocks => Call.moves.adds blocks (some a) := by
  rw [shape_inside]
  refine Option.bind_congr fun blocks hblocks => ?_
  rw [Call.moves.adds]
  by_cases hinside : blocks = []
  · simp [hinside]
  rw [if_pos hinside, pushPlain]
  by_cases heffect : a.effect = .none
  · rw [if_pos heffect]
    cases Operand.checkBalanceList a.operands with
    | error fault => simp [shape_fail, Except.isOk, Except.toBool]
    | ok done =>
      rw [shape_push]
      simp [Except.isOk, Except.toBool, hinside, heffect, hblocks]
  · rw [if_neg heffect, shape_fail]
    simp [heffect]

theorem shape_atom (b : Builder) (name : String) (ops : List Operand) :
    (b.atom name ops).shape =
      b.shape.bind fun blocks => Call.moves.adds blocks (Atom.make name ops).toOption := by
  unfold atom
  cases Atom.make name ops with
  | error error =>
    rw [shape_inside]
    refine Option.bind_congr fun blocks _ => ?_
    rw [shape_fail, ite_self]
    rfl
  | ok a => exact shape_adds b name a

theorem shape_named (b : Builder) (name symbol : String) (rest : List Operand) :
    (b.named name symbol rest).shape =
      b.shape.bind fun blocks => Call.moves.adds blocks (Call.atom? (.named name symbol rest)) := by
  rw [named, Call.atom?]
  cases hfailed : b.failed with
  | true => rw [if_pos rfl, shape_of_failed hfailed, Option.bind_none]
  | false =>
    rw [if_neg Bool.false_ne_true]
    have hnone : b.shape.bind (fun blocks => Call.moves.adds blocks none) = none := by
      cases b.shape <;> rfl
    cases Signature.byName? name with
    | none => exact (shape_fail _ _).trans hnone.symm
    | some s =>
      dsimp only
      rcases s.fields with _ | ⟨kind, fields⟩
      · exact (shape_fail _ _).trans hnone.symm
      · cases kind
        case named vocabulary =>
          dsimp only
          cases vocabulary.value? symbol with
          | none => exact (shape_fail _ _).trans hnone.symm
          | some value => exact shape_atom _ _ _
        all_goals exact (shape_fail _ _).trans hnone.symm

theorem shape_sibling (b : Builder) (type title : String) :
    (b.sibling type title).shape =
      b.shape.bind fun blocks => Call.moves blocks (.sibling type title) := by
  unfold sibling
  cases hfailed : b.failed with
  | true => rw [if_pos rfl, shape_of_failed hfailed, Option.bind_none]
  | false =>
    rw [if_neg Bool.false_ne_true, shape_of_open hfailed, Option.bind_some, innermost_eq,
      Call.moves]
    by_cases hobject : (b.opened.map (·.head.block)).head? = some .object
    · rw [if_neg (not_not.mpr hobject), shape_withObjectType]
      cases Vocabulary.objectType.value? type with
      | none => exact (if_neg fun h => nomatch h.2).symm
      | some kind =>
        rw [Option.bind_some, shape_openBlock, shape_close, shape_of_open hfailed, Option.bind_some,
          Block.closeIn, if_pos hobject, if_pos ⟨hobject, rfl⟩, Option.bind_some]
        obtain ⟨outer, houter⟩ := List.head?_eq_some_iff.mp hobject
        rw [houter]
        rfl
    · rw [if_pos hobject, shape_fail, if_neg fun h => hobject h.1]

theorem shape_action (b : Builder) (criterion : String) :
    (b.action criterion).shape =
      b.shape.bind fun blocks => Call.moves blocks (.action criterion) := by
  unfold action
  cases hfailed : b.failed with
  | true => rw [if_pos rfl, shape_of_failed hfailed, Option.bind_none]
  | false =>
    rw [if_neg Bool.false_ne_true, shape_of_open hfailed, Option.bind_some, innermost_eq,
      Call.moves]
    by_cases haround : (b.opened.map (·.head.block)).head? = some .object ∨
        (b.opened.map (·.head.block)).head? = some .context
    · rw [if_neg (not_and_or.mpr (haround.imp not_not.mpr not_not.mpr))]
      cases Vocabulary.criterion.value? criterion with
      | none => simp [shape_fail]
      | some value =>
        dsimp only
        rw [shape_openBlock, shape_of_open hfailed, if_pos ⟨haround, rfl⟩]
        rfl
    · rw [if_pos (not_or.mp haround), shape_fail, if_neg fun h => haround h.1]

/-- What a call does to the open blocks. -/
theorem shape_call (b : Builder) (c : Call) :
    (b.call c).shape = b.shape.bind (Call.moves · c) := by
  cases c with
  | stream => exact shape_openBlock _ _
  | streamWithId id => exact shape_openBlock _ _
  | endStream => exact shape_close _ _
  | object type title =>
    rw [call, object, shape_inside]
    refine Option.bind_congr fun blocks hblocks => ?_
    rw [shape_withObjectType, Call.moves]
    cases Vocabulary.objectType.value? type with
    | none => simp
    | some kind => simp [shape_openBlock, hblocks, Head.block]
  | sibling type title => exact shape_sibling _ _ _
  | endObject => exact shape_close _ _
  | context gid =>
    rw [call, context, shape_inside]
    refine Option.bind_congr fun blocks hblocks => ?_
    rw [shape_openBlock, hblocks]
    rfl
  | contextRelative tag =>
    rw [call, contextRelative, shape_inside]
    refine Option.bind_congr fun blocks hblocks => ?_
    rw [shape_openBlock, hblocks]
    rfl
  | endContext => exact shape_close _ _
  | action criterion => exact shape_action _ _
  | endAction => exact shape_close _ _
  | atom name ops => exact shape_atom _ _ _
  | named name symbol rest => exact shape_named _ _ _ _
  | pushAtom a => exact shape_adds _ _ _
  | fail error =>
    rw [call, shape_fail]
    cases b.shape <;> rfl

theorem shape_callAll (b : Builder) (calls : List Call) :
    (b.callAll calls).shape = b.shape.bind fun blocks => calls.foldlM Call.moves blocks := by
  induction calls generalizing b with
  | nil => exact (Option.bind_fun_some b.shape).symm
  | cons c calls ih =>
    show ((b.call c).callAll calls).shape = _
    rw [ih, shape_call, Option.bind_assoc]
    rfl

/-- A script is built if no call has failed and every block is closed. -/
theorem succeeds_build_iff (b : Builder) : Succeeds b.build ↔ b.shape = some [] := by
  unfold shape
  constructor
  · rintro ⟨script, hbuild⟩
    obtain ⟨hfailed, hopened, -⟩ := build_eq_ok_iff.mp hbuild
    rw [hfailed, hopened]
    rfl
  · intro h
    split at h
    · cases h
    · next hfailed =>
      have hopened := List.map_eq_nil_iff.mp (Option.some.inj h)
      exact ⟨_, build_eq_ok_iff.mpr ⟨Bool.eq_false_iff.mpr hfailed, hopened, rfl⟩⟩

end Builder

-- ---------------------------------------------------------------------------
-- Titles
-- ---------------------------------------------------------------------------

/-- The title of the object that the call opens. -/
def Builder.Call.title? : Builder.Call → Option String
  | .object _ title | .sibling _ title => some title
  | _ => none

theorem Builder.title?_endCalls (continued : Bool) (kind : Block) :
    (kind.endCalls continued).filterMap Builder.Call.title? = [] := by
  unfold Block.endCalls
  split
  · rfl
  · cases kind <;> rfl

/-- The titles among the calls of a block are its own, if it has one, and those of what is in it. -/
theorem Builder.titles_block (head : Head) (continued : Bool) (calls : List Builder.Call) :
    (head.call :: (calls ++ head.block.endCalls continued)).filterMap Builder.Call.title? =
      head.call.title?.toList ++ calls.filterMap Builder.Call.title? := by
  rw [List.filterMap_cons, List.filterMap_append, title?_endCalls, List.append_nil]
  cases head.call.title? <;> rfl

mutual

/-- The titles of a node are those of its calls. -/
theorem Node.titles_eq (continued : Bool) :
    ∀ node : Node, node.titles = (node.calls continued).filterMap Builder.Call.title?
  | .atom a => by
    rw [Node.titles, Node.calls]
    rfl
  | .stream id children => by
    rw [Node.titles, Node.calls, Node.titlesEach_eq children]
    refine Eq.trans ?_ (Builder.titles_block (.stream id) continued _).symm
    cases id <;> rfl
  | .object kind title sibling children => by
    rw [Node.titles, Node.calls, Node.titlesEach_eq children]
    refine Eq.trans ?_ (Builder.titles_block (.object kind title sibling) continued _).symm
    cases sibling <;> rfl
  | .context target children => by
    rw [Node.titles, Node.calls, Node.titlesEach_eq children]
    refine Eq.trans ?_ (Builder.titles_block (.context target) continued _).symm
    cases target <;> rfl
  | .action criterion body => by
    rw [Node.titles, Node.calls, Node.titlesEach_eq body]
    exact (Builder.titles_block (.action criterion) continued _).symm

theorem Node.titlesEach_eq :
    ∀ nodes : List Node,
      Node.titlesEach nodes = (Node.callsEach nodes).filterMap Builder.Call.title?
  | [] => by
    rw [Node.titlesEach, Node.callsEach]
    rfl
  | node :: rest => by
    rw [Node.titlesEach, Node.callsEach, List.filterMap_append, ← Node.titles_eq,
      ← Node.titlesEach_eq rest]

end

theorem Builder.title?_read (c : Builder.Call) : c.read.title? = c.title? := by
  unfold Call.read
  split
  · cases c <;> first | rfl | contradiction
  · rfl

/-- The script that calls have built can be flattened if their titles are short enough. -/
theorem Script.succeeds_flatten_iff_of_build {calls : List Builder.Call} {script : Script}
    (h : (Builder.empty.callAll calls).build = .ok script) :
    Succeeds script.flatten ↔ TitlesFit (calls.filterMap Builder.Call.title?) := by
  rw [succeeds_flatten_iff, not_hasLongTitle_iff, Node.titlesEach_eq]
  change TitlesFit (script.calls.filterMap Builder.Call.title?) ↔ _
  rw [calls_of_build h, List.filterMap_map, List.filterMap_congr]
  exact fun c _ => Builder.title?_read c

end Switchboard
