import Switchboard.Script.Builder
import Switchboard.Source.Operand

/-!
# Scripts from source text

The statements of a source text drive a script builder, so that read scripts obey the same pairing
rules as built ones.  Statements that open or close scopes become calls for blocks.  The body of an
action is itself a stream, so a stream written around all of it adds nothing and is left out.
-/

namespace Switchboard

/-- What a statement does to the script under construction. -/
inductive Role where
  | startStream
  | endStream
  | startObject
  | startSibling
  | endObject
  | globalContext
  | relativeContext
  | endContext
  /-- An action that fires on `select`. -/
  | selectAction
  /-- The criterion of the action that follows. -/
  | criterion
  /-- An action on the criterion set before it. -/
  | replaceAction
  /-- Adding an atom. -/
  | plain
  deriving Repr, DecidableEq

/-- The atoms with a role of their own. -/
def Role.table : List (String × Role) := [
  ("uni_start_stream", .startStream),
  ("uni_end_stream", .endStream),
  ("man_start_object", .startObject),
  ("man_start_sibling", .startSibling),
  ("man_end_object", .endObject),
  ("man_set_context_globalid", .globalContext),
  ("man_set_context_relative", .relativeContext),
  ("man_end_context", .endContext),
  ("act_replace_select_action", .selectAction),
  ("act_set_criterion", .criterion),
  ("act_replace_action", .replaceAction)]

namespace Statement

/-- The role of the statement. -/
def role (st : Statement) : Role :=
  (Role.table.lookup st.signature.name).getD .plain

/-- The statements without a stream written around all of them. -/
def unwrap (body : List Statement) : List Statement :=
  match body with
  | first :: rest =>
    match rest.getLast? with
    | some last =>
      if first.role = .startStream ∧ last.role = .endStream then rest.dropLast else body
    | none => body
  | [] => body

/-- The body of an action; an action without an argument has an empty one. -/
def actionBody (st : Statement) : List Statement :=
  match st.arguments with
  | .stream body :: _ => unwrap body
  | _ => []

theorem sizeOf_dropLast_le (body : List Statement) : sizeOf body.dropLast ≤ sizeOf body := by
  induction body with
  | nil => simp
  | cons st rest ih =>
    cases rest with
    | nil => simp only [List.dropLast_singleton, List.cons.sizeOf_spec, List.nil.sizeOf_spec]; omega
    | cons next rest =>
      simp only [List.dropLast_cons_cons, List.cons.sizeOf_spec] at ih ⊢
      omega

theorem sizeOf_unwrap_le (body : List Statement) : sizeOf (unwrap body) ≤ sizeOf body := by
  unfold unwrap
  split
  · split
    · split
      · have := sizeOf_dropLast_le ‹List Statement›
        simp only [List.cons.sizeOf_spec]; omega
      · exact Nat.le_refl _
    · exact Nat.le_refl _
  · exact Nat.le_refl _

theorem sizeOf_actionBody_lt (st : Statement) : sizeOf st.actionBody < sizeOf st := by
  cases st with
  | mk s line args =>
    unfold actionBody
    split
    · rename_i body more h
      have := sizeOf_unwrap_le body
      simp only [arguments] at h
      simp only [h, mk.sizeOf_spec, List.cons.sizeOf_spec, Argument.stream.sizeOf_spec]
      omega
    · have : 0 < sizeOf args := by
        cases args <;> simp only [List.nil.sizeOf_spec, List.cons.sizeOf_spec] <;> omega
      simp only [List.nil.sizeOf_spec, mk.sizeOf_spec]
      omega

/-- The name that the first operand has in a vocabulary. -/
def symbol? (vocabulary : Vocabulary) (ops : List Operand) : Option String := do
  let v ← (← ops.head?).int?
  vocabulary.nameOf? v.toNat

/-- The title among the operands of an object; one that is not written is empty. -/
def title : List Operand → String
  | _ :: .str text :: _ => text
  | _ => ""

/-- The type name and title that open an object. -/
def objectHead (st : Statement) : Except CompileError (String × String) := do
  let ops ← st.operands
  match symbol? .objectType ops with
  | some name => return (name, title ops)
  | none => .error (.format (.source st.line (.needsObjectType st.signature.name)))

/-- The name of the criterion that the statement sets. -/
def criterionName (st : Statement) : Except CompileError String := do
  match symbol? .criterion (← st.operands) with
  | some name => return name
  | none => .error (.format (.source st.line .needsCriterion))

/-- Carries out a statement that is no action. -/
def apply (b : Builder) (st : Statement) : Except CompileError Builder := do
  match st.role with
  | .startStream =>
    match (← st.operands).head? with
    | some (.int id) => return b.streamWithId id
    | _ => return b.stream
  | .endStream => return b.endStream
  | .startObject =>
    let (type, title) ← st.objectHead
    return b.object type title
  | .startSibling =>
    let (type, title) ← st.objectHead
    return b.sibling type title
  | .endObject => return b.endObject
  | .globalContext =>
    match (← st.operands).head? with
    | some (.gid gid) => return b.context gid
    | _ => return b.fail (.format (.source st.line .needsGid))
  | .relativeContext =>
    match (← st.operands).head? with
    | some (.int tag) => return b.contextRelative tag
    | _ => return b.fail (.format (.source st.line .needsTag))
  | .endContext => return b.endContext
  | .selectAction | .criterion | .replaceAction | .plain =>
    match Atom.make st.signature.name (← st.operands) with
    | .ok atom => return b.pushAtom atom
    | .error error => return b.fail (.ofAtomError error)

end Statement

/-- Carries out statements in order, until a call to the builder has failed. -/
def Builder.run (b : Builder) : List Statement → Except CompileError Builder
  | [] => .ok b
  | st :: rest =>
    if b.failed then .ok b
    else if st.role = .selectAction then do
      let b ← (b.action "select").run st.actionBody
      b.endAction.run rest
    else if st.role = .criterion then
      match rest with
      | next :: after =>
        if next.role = .replaceAction then do
          let b ← (b.action (← st.criterionName)).run next.actionBody
          b.endAction.run after
        else do (← st.apply b).run (next :: after)
      | [] => st.apply b
    else do (← st.apply b).run rest
  termination_by statements => sizeOf statements
  decreasing_by
    all_goals simp only [List.cons.sizeOf_spec]
    · have := Statement.sizeOf_actionBody_lt st
      omega
    · omega
    · have := Statement.sizeOf_actionBody_lt next
      omega
    · omega
    · omega
    · omega

/-- The script that a source text describes. -/
def Script.parse (source : String) : Except CompileError Script := do
  let statements ← Statement.read (← Lexeme.scan source.toList)
  (← Builder.empty.run statements).build

end Switchboard
