import Switchboard.Proofs.Script.Flatten
import Switchboard.Source.Parse

/-!
# Scripts read from source text

The reader of source text builds every atom by the look-up, the atoms of nested streams included, and
hands them to a script builder.  A builder *is made* if the look-up built the atoms it was given.

Main results:

* `Statement.areMade_plainAtoms`: a nested stream is made as it is read.
* `Builder.isMade_run`: carrying out statements keeps a builder made.
* `Script.isMade_of_parse`: a script read from source text is made.
-/

namespace Switchboard

-- ---------------------------------------------------------------------------
-- Operands and nested streams
-- ---------------------------------------------------------------------------

theorem readLexeme_ne_stream {atom : String} {line : Nat} {kind : FieldKind} {lexeme : Lexeme}
    {op : Operand} (h : readLexeme atom line kind lexeme = .ok op) : op.type ≠ .stream := by
  -- fields of all numeric kinds are read by the same reader
  have hnumber {op : Operand} (h : readNumber atom line lexeme = .ok op) : op.type ≠ .stream := by
    unfold readNumber at h
    split at h <;> cases h
    simp [Operand.type]
  unfold readLexeme at h
  split at h
  · cases h
    simp [Operand.type]
  · split at h <;> cases h
    simp [Operand.type]
  · split at h
    · cases h
      simp [Operand.type]
    · split at h <;> cases h
      simp [Operand.type]
  · exact hnumber h
  · exact hnumber h
  · exact hnumber h
  · exact hnumber h
  · exact hnumber h
  · cases h

theorem readLexemes_ne_stream {atom : String} {line : Nat} {kind : FieldKind}
    {lexemes : List Lexeme} {op : Operand} (h : readLexemes atom line kind lexemes = .ok op) :
    op.type ≠ .stream := by
  unfold readLexemes at h
  split at h
  · obtain ⟨bytes, -, heq⟩ := bind_eq_ok_iff.mp h
    cases heq
    simp [Operand.type]
  · split at h
    · exact readLexeme_ne_stream h
    · cases h

mutual

theorem Argument.areMade_operand :
    ∀ (arg : Argument) {atom : String} {line : Nat} {kind : FieldKind} {op : Operand},
      arg.operand atom line kind = .ok op → ∀ inner, .stream inner = op → Atom.AreMade inner
  | .literals lexemes, atom, line, kind, op, h, inner, heq => by
    rw [Argument.operand] at h
    subst heq
    exact absurd rfl (readLexemes_ne_stream h)
  | .stream statements, atom, line, kind, op, h, inner, heq => by
    rw [Argument.operand] at h
    obtain ⟨atoms, hatoms, hstream⟩ := bind_eq_ok_iff.mp h
    cases hstream
    cases heq
    exact Statement.areMade_plainAtoms statements hatoms

theorem Argument.areMade_operands :
    ∀ (args : List Argument) {atom : String} {line : Nat} {kinds : List FieldKind}
      {ops : List Operand}, Argument.operands atom line kinds args = .ok ops →
      ∀ inner, .stream inner ∈ ops → Atom.AreMade inner
  | [], atom, line, kinds, ops, h, inner, hinner => by
    rw [Argument.operands] at h
    · cases h
      cases hinner
    · rintro _ _ _ _ _ ⟨⟩
  | arg :: args, atom, line, [], ops, h, inner, hinner => by
    rw [Argument.operands] at h
    · cases h
      cases hinner
    · rintro _ _ _ _ ⟨⟩
  | arg :: args, atom, line, kind :: kinds, ops, h, inner, hinner => by
    rw [Argument.operands] at h
    obtain ⟨op, hop, h⟩ := bind_eq_ok_iff.mp h
    obtain ⟨rest, hrest, heq⟩ := bind_eq_ok_iff.mp h
    cases heq
    rcases List.mem_cons.mp hinner with heq | hmem
    · exact Argument.areMade_operand arg hop inner heq
    · exact Argument.areMade_operands args hrest inner hmem

theorem Statement.areMade_operands :
    ∀ (st : Statement) {ops : List Operand}, st.operands = .ok ops →
      ∀ inner, .stream inner ∈ ops → Atom.AreMade inner
  | .mk s line args, ops, h, inner, hinner => by
    rw [Statement.operands] at h
    exact Argument.areMade_operands args h inner hinner

/-- The atoms of a nested stream, as it is written, were built by the look-up. -/
theorem Statement.areMade_plainAtoms :
    ∀ (statements : List Statement) {atoms : List Atom},
      Statement.plainAtoms statements = .ok atoms → Atom.AreMade atoms
  | [], atoms, h => by
    unfold Statement.plainAtoms at h
    cases h
    exact Atom.everywhere_nil _
  | st :: rest, atoms, h => by
    rw [Statement.plainAtoms] at h
    obtain ⟨ops, hops, h⟩ := bind_eq_ok_iff.mp h
    -- the look-up refuses the statement, or gives an atom whose streams are made
    cases hmake : Atom.make st.signature.name ops with
    | error error =>
      rw [hmake] at h
      cases h
    | ok a =>
      rw [hmake] at h
      obtain ⟨more, hmore, heq⟩ := bind_eq_ok_iff.mp h
      cases heq
      have hfirst := Atom.areMade_singleton_of_make hmake (Statement.areMade_operands st hops)
      exact Atom.everywhere_append.mpr ⟨hfirst, Statement.areMade_plainAtoms rest hmore⟩

end

-- ---------------------------------------------------------------------------
-- Builders
-- ---------------------------------------------------------------------------

theorem Node.areMade_atomsEach_iff {nodes : List Node} :
    Atom.AreMade (Node.atomsEach nodes) ↔ ∀ node ∈ nodes, Atom.AreMade node.atoms := by
  induction nodes with
  | nil =>
    rw [Node.atomsEach]
    exact iff_of_true (Atom.everywhere_nil _) (fun _ h => nomatch h)
  | cons node rest ih =>
    rw [Node.atomsEach, List.forall_mem_cons, ← ih]
    exact Atom.everywhere_append

namespace Builder

/-- Whether the look-up built every atom that the builder holds, at every level. -/
structure IsMade (b : Builder) : Prop where
  roots : ∀ node ∈ b.roots, Atom.AreMade node.atoms
  opened : ∀ block ∈ b.opened, ∀ node ∈ block.children, Atom.AreMade node.atoms

theorem isMade_empty : empty.IsMade :=
  ⟨(fun _ h => nomatch h), (fun _ h => nomatch h)⟩

variable {b : Builder}

theorem isMade_fail (h : b.IsMade) (error : CompileError) : (b.fail error).IsMade := by
  unfold fail
  split
  · exact h
  · exact ⟨h.roots, h.opened⟩

theorem isMade_inside {what : String} {next : Builder → Builder} (h : b.IsMade)
    (hnext : (next b).IsMade) : (b.inside what next).IsMade := by
  unfold inside
  split
  · exact h
  · split
    · exact isMade_fail h _
    · exact hnext

theorem isMade_push (h : b.IsMade) {node : Node} (hnode : Atom.AreMade node.atoms) :
    (b.push node).IsMade := by
  unfold push
  split
  · next hopened => exact ⟨List.forall_mem_cons.mpr ⟨hnode, h.roots⟩, h.opened⟩
  · next block outer hopened =>
    -- the node joins the contents of the innermost block
    have hblocks := h.opened
    rw [hopened, List.forall_mem_cons] at hblocks
    refine ⟨h.roots, List.forall_mem_cons.mpr ⟨?_, hblocks.2⟩⟩
    exact List.forall_mem_cons.mpr ⟨hnode, hblocks.1⟩

theorem isMade_openBlock (h : b.IsMade) (head : Head) : (b.openBlock head).IsMade := by
  unfold openBlock
  split
  · exact h
  · exact ⟨h.roots, List.forall_mem_cons.mpr ⟨(fun _ hmem => nomatch hmem), h.opened⟩⟩

theorem atoms_node (head : Head) (children : List Node) :
    (head.node children).atoms = Node.atomsEach children := by
  cases head <;> rw [Head.node, Node.atoms]

theorem isMade_close (h : b.IsMade) (kind : Block) : (b.close kind).IsMade := by
  unfold close
  split
  · exact h
  · split
    · exact isMade_fail h _
    · next block outer hopened =>
      -- the contents of the closed block become a node of the block around it
      have hblocks := h.opened
      rw [hopened, List.forall_mem_cons] at hblocks
      split
      · have houter : IsMade { b with opened := outer } := ⟨h.roots, hblocks.2⟩
        refine isMade_push houter ?_
        rw [atoms_node, Node.areMade_atomsEach_iff]
        exact fun node hmem => hblocks.1 node (List.mem_reverse.mp hmem)
      · exact isMade_fail h _

theorem isMade_pushAtom (h : b.IsMade) {a : Atom} (ha : Atom.AreMade [a]) :
    (b.pushAtom a).IsMade := by
  refine isMade_inside h ?_
  unfold pushPlain
  split
  · split
    · refine isMade_push h ?_
      rw [Node.atoms]
      exact ha
    · exact isMade_fail h _
  · exact isMade_fail h _

theorem isMade_withObjectType (h : b.IsMade) {name : String} {next : UInt8 → Builder}
    (hnext : ∀ kind, (next kind).IsMade) : (b.withObjectType name next).IsMade := by
  unfold withObjectType
  split
  · exact hnext _
  · exact isMade_fail h _

theorem isMade_object (h : b.IsMade) (type title : String) : (b.object type title).IsMade :=
  isMade_inside h (isMade_withObjectType h fun _ => isMade_openBlock h _)

theorem isMade_sibling (h : b.IsMade) (type title : String) : (b.sibling type title).IsMade := by
  unfold sibling
  split
  · exact h
  · split
    · exact isMade_fail h _
    · exact isMade_withObjectType h fun _ => isMade_openBlock (isMade_close h _) _

theorem isMade_action (h : b.IsMade) (criterion : String) : (b.action criterion).IsMade := by
  unfold action
  split
  · exact h
  · split
    · exact isMade_fail h _
    · split
      · exact isMade_openBlock h _
      · exact isMade_fail h _

/-- Building a made script. -/
theorem isMade_of_build {script : Script} (h : b.IsMade) (hbuild : b.build = .ok script) :
    script.IsMade := by
  unfold build at hbuild
  split at hbuild <;> cases hbuild
  rw [Script.IsMade, Node.areMade_atomsEach_iff]
  exact fun node hmem => h.roots node (List.mem_reverse.mp hmem)

end Builder

-- ---------------------------------------------------------------------------
-- Statements
-- ---------------------------------------------------------------------------

/-- A statement that is no action keeps a builder made. -/
theorem Statement.isMade_apply {b next : Builder} {st : Statement} (h : b.IsMade)
    (happly : st.apply b = .ok next) : next.IsMade := by
  unfold apply at happly
  split at happly
  -- a stream opens
  · obtain ⟨ops, -, happly⟩ := bind_eq_ok_iff.mp happly
    split at happly <;> cases happly <;> exact Builder.isMade_openBlock h _
  · cases happly
    exact Builder.isMade_close h _
  -- an object, or its sibling, takes a type and a title
  · obtain ⟨⟨type, title⟩, -, heq⟩ := bind_eq_ok_iff.mp happly
    cases heq
    exact Builder.isMade_object h type title
  · obtain ⟨⟨type, title⟩, -, heq⟩ := bind_eq_ok_iff.mp happly
    cases heq
    exact Builder.isMade_sibling h type title
  · cases happly
    exact Builder.isMade_close h _
  -- contexts open inside a stream only, the global ones and the relative ones
  · obtain ⟨ops, -, happly⟩ := bind_eq_ok_iff.mp happly
    split at happly <;> cases happly
    · exact Builder.isMade_inside h (Builder.isMade_openBlock h _)
    · exact Builder.isMade_fail h _
  · obtain ⟨ops, -, happly⟩ := bind_eq_ok_iff.mp happly
    split at happly <;> cases happly
    · exact Builder.isMade_inside h (Builder.isMade_openBlock h _)
    · exact Builder.isMade_fail h _
  · cases happly
    exact Builder.isMade_close h _
  -- whatever is left stands for an atom, which the look-up builds from the operands
  all_goals
    obtain ⟨ops, hops, happly⟩ := bind_eq_ok_iff.mp happly
    split at happly <;> cases happly
    · next a hmake =>
      refine Builder.isMade_pushAtom h (Atom.areMade_singleton_of_make hmake ?_)
      exact Statement.areMade_operands st hops
    · exact Builder.isMade_fail h _

theorem Builder.run_failed {b : Builder} (hfailed : b.failed = true) (st : Statement)
    (rest : List Statement) : b.run (st :: rest) = .ok b := by
  cases rest <;> rw [run, if_pos hfailed]

theorem Builder.run_select {b : Builder} {st : Statement} (hfailed : ¬b.failed = true)
    (hrole : st.role = .selectAction) (rest : List Statement) :
    b.run (st :: rest) =
      (b.action "select").run st.actionBody >>= fun b => b.endAction.run rest := by
  cases rest <;> rw [run, if_neg hfailed, if_pos hrole]

theorem Builder.run_apply {b : Builder} {st : Statement} (hfailed : ¬b.failed = true)
    (hselect : ¬st.role = .selectAction) (hcriterion : ¬st.role = .criterion)
    (rest : List Statement) :
    b.run (st :: rest) = st.apply b >>= fun b => b.run rest := by
  cases rest <;> rw [run, if_neg hfailed, if_neg hselect, if_neg hcriterion]

/-- Carrying out statements keeps a builder made. -/
theorem Builder.isMade_run {b final : Builder} {statements : List Statement} (h : b.IsMade)
    (hrun : b.run statements = .ok final) : final.IsMade := by
  -- the recursion follows the statements, with the body of an action taken before what follows it
  induction b, statements using run.induct generalizing final with
  -- no statement is left
  | case1 b =>
    unfold run at hrun
    cases hrun
    exact h
  -- a builder that has failed is not changed any more
  | case2 b st rest hfailed =>
    rw [run_failed hfailed] at hrun
    cases hrun
    exact h
  -- an action written in one statement, with its own body
  | case3 b st rest hfailed hrole ihBody ihRest =>
    rw [run_select hfailed hrole] at hrun
    obtain ⟨mid, hmid, hrun⟩ := bind_eq_ok_iff.mp hrun
    have hbody := ihBody (isMade_action h "select") hmid
    exact ihRest mid (isMade_close hbody _) hrun
  -- a criterion, and the action that it belongs to
  | case4 b st hfailed hselect hrole next after hnext ihBody ihRest =>
    rw [run, if_neg hfailed, if_neg hselect, if_pos hrole, if_pos hnext] at hrun
    obtain ⟨criterion, -, hrun⟩ := bind_eq_ok_iff.mp hrun
    obtain ⟨mid, hmid, hrun⟩ := bind_eq_ok_iff.mp hrun
    have hbody := ihBody criterion (isMade_action h criterion) hmid
    exact ihRest mid (isMade_close hbody _) hrun
  -- a criterion that stands by itself is an atom like any other
  | case5 b st hfailed hselect hrole next after hnext ih =>
    rw [run, if_neg hfailed, if_neg hselect, if_pos hrole, if_neg hnext] at hrun
    obtain ⟨mid, hmid, hrun⟩ := bind_eq_ok_iff.mp hrun
    exact ih mid (Statement.isMade_apply h hmid) hrun
  | case6 b st hfailed hselect hrole =>
    rw [run, if_neg hfailed, if_neg hselect, if_pos hrole] at hrun
    exact Statement.isMade_apply h hrun
  -- any other statement
  | case7 b st rest hfailed hselect hrole ih =>
    rw [run_apply hfailed hselect hrole] at hrun
    obtain ⟨mid, hmid, hrun⟩ := bind_eq_ok_iff.mp hrun
    exact ih mid (Statement.isMade_apply h hmid) hrun

/-- A script read from source text is made. -/
theorem Script.isMade_of_parse {source : String} {script : Script}
    (h : parse source = .ok script) : script.IsMade := by
  obtain ⟨lexemes, -, h⟩ := bind_eq_ok_iff.mp h
  obtain ⟨statements, -, h⟩ := bind_eq_ok_iff.mp h
  obtain ⟨b, hrun, hbuild⟩ := bind_eq_ok_iff.mp h
  exact Builder.isMade_of_build (Builder.isMade_run Builder.isMade_empty hrun) hbuild

end Switchboard
