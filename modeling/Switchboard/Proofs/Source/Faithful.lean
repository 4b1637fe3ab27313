import Switchboard.Proofs.Atom.Vocabulary
import Switchboard.Proofs.Script.Draft
import Switchboard.Proofs.Script.Parsed
import Switchboard.Proofs.Source.Written

/-!
# What a script says

Carrying out statements adds to the draft of a script the atoms that the statements write.

Main results:

* `Statement.IsProper.adds_of_apply`: a statement that is no action adds its atom.
* `Builder.gains_of_run`: statements add what they write, with bare brackets around the bodies of
  actions.
* `Script.flatten_of_parse`: what a source text compiles to is what its statements write.
-/

namespace Switchboard

-- ---------------------------------------------------------------------------
-- Drafts
-- ---------------------------------------------------------------------------

namespace Draft

/-- Adds atoms, in order, to the innermost stream. -/
def append (d : Draft) (atoms : List Atom) : Draft :=
  { d with here := atoms.reverse ++ d.here }

variable (d : Draft)

theorem append_nil : d.append [] = d := rfl

theorem push_append (a : Atom) (atoms : List Atom) :
    (d.push a).append atoms = d.append (a :: atoms) := by
  simp only [push, append, List.reverse_cons, List.append_assoc, List.singleton_append]

theorem append_append (atoms more : List Atom) :
    (d.append atoms).append more = d.append (atoms ++ more) := by
  simp only [append, List.reverse_append, List.append_assoc]

end Draft

-- ---------------------------------------------------------------------------
-- Single statements
-- ---------------------------------------------------------------------------

/-- An empty text in the place of an operand that may be omitted is the same as none. -/
theorem Atom.forScript_concat_empty {name : String} {s : Signature} (ops : List Operand)
    {op : Operand} (hknown : Signature.byName? name = some s) (hcount : s.required ≤ ops.length)
    (hempty : op.isEmptyText = true) :
    Atom.forScript name (ops ++ [op]) = Atom.forScript name ops := by
  have hdrop :
      Operand.dropOmitted s.required (ops ++ [op]) = Operand.dropOmitted s.required ops := by
    rw [Operand.dropOmitted, List.take_append_of_le_length hcount,
      List.drop_append_of_le_length hcount, List.reverse_concat,
      List.dropWhile_cons_of_pos hempty, Operand.dropOmitted]
  rw [forScript, forScript, make, make, hknown]
  simp only [hdrop]

namespace Statement

variable {st : Statement} {ops : List Operand}

/-- A symbol is the name of the first operand, and is read back as that operand. -/
theorem value?_of_symbol? {vocabulary : Vocabulary} {name : String}
    (h : symbol? vocabulary ops = some name) :
    ∃ kind rest, vocabulary.value? name = some kind ∧ ops = .int kind.toUInt32 :: rest := by
  obtain ⟨op, hhead, h⟩ := Option.bind_eq_some_iff.mp h
  obtain ⟨v, hint, hname⟩ := Option.bind_eq_some_iff.mp h
  obtain ⟨kind, hvalue, rfl⟩ := Vocabulary.value?_of_nameOf?_toNat hname
  obtain ⟨rest, rfl⟩ := List.head?_eq_some_iff.mp hhead
  cases op <;> cases hint
  exact ⟨kind, rest, hvalue, rfl⟩

theorem objectHead_eq_ok {type title : String} (h : st.objectHead = .ok (type, title)) :
    ∃ kind rest, Vocabulary.objectType.value? type = some kind ∧
      st.operands = .ok (.int kind.toUInt32 :: rest) ∧
      title = Statement.title (.int kind.toUInt32 :: rest) := by
  obtain ⟨ops, hops, h⟩ := bind_eq_ok_iff.mp h
  split at h
  · next hsymbol =>
    cases h
    obtain ⟨kind, rest, hvalue, rfl⟩ := value?_of_symbol? hsymbol
    exact ⟨kind, rest, hvalue, hops, rfl⟩
  · cases h

theorem criterionName_eq_ok {name : String} (h : st.criterionName = .ok name) :
    ∃ kind rest, Vocabulary.criterion.value? name = some kind ∧
      st.operands = .ok (.int kind.toUInt32 :: rest) := by
  obtain ⟨ops, hops, h⟩ := bind_eq_ok_iff.mp h
  split at h
  · next hsymbol =>
    cases h
    obtain ⟨kind, rest, hvalue, rfl⟩ := value?_of_symbol? hsymbol
    exact ⟨kind, rest, hvalue, hops⟩
  · cases h

/-- The operands of an object are its type, and a title unless it is left out. -/
theorem objectOperands_eq {op : Operand} {rest : List Operand}
    (h : (op :: rest).map (·.type) <+: [.integer, .string]) :
    rest = [] ∨ ∃ title, rest = [.str title] := by
  rw [List.map_cons] at h
  obtain ⟨-, h⟩ := List.cons_prefix_cons.mp h
  match rest, h with
  | [], _ => exact .inl rfl
  | [.str title], _ => exact .inr ⟨title, rfl⟩
  | [.int _], h => simp [Operand.type] at h
  | [.raw _], h => simp [Operand.type] at h
  | [.gid _], h => simp [Operand.type] at h
  | [.stream _], h => simp [Operand.type] at h
  | _ :: _ :: _, h => simp at h

/-- An object is written as its type and title, also where no title is given. -/
theorem forScript_title {s : Signature} {op : Operand} {rest : List Operand}
    (hknown : Signature.byName? s.name = some s) (hrequired : s.required = 1)
    (h : (op :: rest).map (·.type) <+: [.integer, .string]) :
    Atom.forScript s.name [op, .str (Statement.title (op :: rest))] =
      Atom.forScript s.name (op :: rest) := by
  rcases objectOperands_eq h with rfl | ⟨title, rfl⟩
  · exact Atom.forScript_concat_empty [op] hknown (Nat.le_of_eq hrequired) rfl
  · rfl

theorem eq_nil_of_types {op : Operand} {rest : List Operand} {type : OperandType}
    (h : (op :: rest).map (·.type) <+: [type]) : rest = [] := by
  rw [List.map_cons] at h
  obtain ⟨-, h⟩ := List.cons_prefix_cons.mp h
  exact List.map_eq_nil_iff.mp (List.prefix_nil.mp h)

/-- The draft `d` is that of the builder `b`, which has not failed, with the atom of a statement. -/
def Adds (st : Statement) (b : Builder) (d : Draft) : Prop :=
  b.failed = false ∧ ∃ before a, b.draft false = .ok before ∧ st.atom = .ok a ∧ d = before.push a

section Adds

variable {b : Builder} {d : Draft}

/-- A block has been opened, whose opener is the atom of the statement. -/
theorem adds_of_openBlock {head : Head} (h : (b.openBlock head).failed = false)
    (hd : (b.openBlock head).draft false = .ok d) (hsibling : head.isSibling = false)
    (hbegin : ∀ before, head.begin before = do return before.push (← st.atom)) : st.Adds b d := by
  obtain ⟨hopen, before, hbefore, hd⟩ := Builder.draft_openBlock h hd
  rw [hbegin] at hd
  obtain ⟨a, ha, heq⟩ := bind_eq_ok_iff.mp hd
  cases heq
  exact ⟨hopen, before, a, hsibling ▸ hbefore, ha, rfl⟩

/-- A block has been closed, whose closer is the atom of the statement. -/
theorem adds_of_close {kind : Block} (h : (b.close kind).failed = false)
    (hd : (b.close kind).draft false = .ok d)
    (hfinish : ∀ before, kind.finish before false = do return before.push (← st.atom)) :
    st.Adds b d := by
  obtain ⟨hopen, before, hbefore, hd⟩ := Builder.draft_close h hd
  rw [hfinish] at hd
  obtain ⟨a, ha, heq⟩ := bind_eq_ok_iff.mp hd
  cases heq
  exact ⟨hopen, before, a, hbefore, ha, rfl⟩

/-- The builder has been handed the atom of the statement. -/
theorem adds_of_make {next : Builder} (hops : st.operands = .ok ops)
    (happly : (match Atom.make st.signature.name ops with
      | .ok atom => pure (b.pushAtom atom)
      | .error error => pure (b.fail (.ofAtomError error)) : Except CompileError Builder) = .ok next)
    (h : next.failed = false) (hd : next.draft false = .ok d) : st.Adds b d := by
  split at happly
  · next a hmake =>
    cases happly
    obtain ⟨hopen, before, hbefore, heq⟩ := Builder.draft_pushAtom h hd
    refine ⟨hopen, before, a, hbefore, ?_, heq⟩
    rw [atom_of_operands hops, Atom.forScript, hmake]
  · cases happly
    rw [Builder.failed_fail] at h
    cases h

/-- An object has been opened, with the type and title that the statement writes. -/
theorem IsProper.adds_of_object (sibling : Bool) {type title : String} (h : st.IsProper)
    (hname : st.signature.name = if sibling then "man_start_sibling" else "man_start_object")
    (hfields : st.signature.fields = [.named .objectType, Signature.title])
    (hrequired : st.signature.required = 1) (hhead : st.objectHead = .ok (type, title))
    (hdraft : b.failed = false ∧ ∃ kind before, Vocabulary.objectType.value? type = some kind ∧
      b.draft false = .ok before ∧ (Head.object kind title sibling).begin before = .ok d) :
    st.Adds b d := by
  obtain ⟨kind, rest, hvalue, hops, rfl⟩ := objectHead_eq_ok hhead
  obtain ⟨hopen, other, before, hother, hbefore, hbegin⟩ := hdraft
  cases hother.symm.trans hvalue
  obtain ⟨a, ha, heq⟩ := bind_eq_ok_iff.mp hbegin
  cases heq
  have htypes := h.types_operands hops
  rw [hfields] at htypes
  refine ⟨hopen, before, a, hbefore, ?_, rfl⟩
  rw [atom_of_operands hops, ← forScript_title h.known hrequired htypes, hname]
  exact ha

end Adds

/-- A statement that is no action adds its atom to the draft. -/
theorem IsProper.adds_of_apply {b next : Builder} {d : Draft} (h : st.IsProper)
    (hselect : st.role ≠ .selectAction) (happly : st.apply b = .ok next)
    (hnext : next.failed = false) (hd : next.draft false = .ok d) : st.Adds b d := by
  unfold apply at happly
  split at happly
  -- a stream, with its id if one is written
  case h_1 hrole =>
    obtain ⟨ops, hops, happly⟩ := bind_eq_ok_iff.mp happly
    have htypes := h.types_operands hops
    have hatom := atom_of_operands hops
    rw [h.signature_eq hrole rfl] at htypes hatom
    split at happly
    · next id hhead =>
      cases happly
      obtain ⟨rest, rfl⟩ := List.head?_eq_some_iff.mp hhead
      obtain rfl := eq_nil_of_types htypes
      exact adds_of_openBlock hnext hd rfl fun before => hatom ▸ rfl
    · next hhead =>
      cases happly
      cases ops with
      | nil => exact adds_of_openBlock hnext hd rfl fun before => hatom ▸ rfl
      | cons op rest =>
        obtain ⟨htype, -⟩ := List.cons_prefix_cons.mp htypes
        cases op <;> cases htype
        exact absurd rfl (hhead _)
  case h_2 hrole =>
    cases happly
    exact adds_of_close hnext hd fun before => h.atom_endStream hrole ▸ rfl
  -- an object, or its sibling
  case h_3 hrole =>
    have hs := h.signature_eq hrole rfl
    obtain ⟨⟨type, title⟩, hhead, heq⟩ := bind_eq_ok_iff.mp happly
    cases heq
    exact h.adds_of_object false (hs ▸ rfl) (hs ▸ rfl) (hs ▸ rfl) hhead
      (Builder.draft_object hnext hd)
  case h_4 hrole =>
    have hs := h.signature_eq hrole rfl
    obtain ⟨⟨type, title⟩, hhead, heq⟩ := bind_eq_ok_iff.mp happly
    cases heq
    exact h.adds_of_object true (hs ▸ rfl) (hs ▸ rfl) (hs ▸ rfl) hhead
      (Builder.draft_sibling hnext hd)
  case h_5 hrole =>
    cases happly
    have hatom := h.atom_bare hrole rfl rfl
    exact adds_of_close hnext hd fun before => hatom ▸ rfl
  -- a context, global or relative
  case h_6 hrole =>
    have hs := h.signature_eq hrole rfl
    obtain ⟨ops, hops, happly⟩ := bind_eq_ok_iff.mp happly
    have htypes := h.types_operands hops
    have hatom := atom_of_operands hops
    rw [hs] at htypes hatom
    split at happly <;> cases happly
    · next gid hhead =>
      obtain ⟨rest, rfl⟩ := List.head?_eq_some_iff.mp hhead
      obtain rfl := eq_nil_of_types htypes
      obtain ⟨-, heq⟩ := Builder.inside_eq hnext
      rw [Builder.context, heq] at hnext hd
      exact adds_of_openBlock hnext hd rfl fun before => hatom ▸ rfl
    · rw [Builder.failed_fail] at hnext
      cases hnext
  case h_7 hrole =>
    have hs := h.signature_eq hrole rfl
    obtain ⟨ops, hops, happly⟩ := bind_eq_ok_iff.mp happly
    have htypes := h.types_operands hops
    have hatom := atom_of_operands hops
    rw [hs] at htypes hatom
    split at happly <;> cases happly
    · next gid hhead =>
      obtain ⟨rest, rfl⟩ := List.head?_eq_some_iff.mp hhead
      obtain rfl := eq_nil_of_types htypes
      obtain ⟨-, heq⟩ := Builder.inside_eq hnext
      rw [Builder.contextRelative, heq] at hnext hd
      exact adds_of_openBlock hnext hd rfl fun before => hatom ▸ rfl
    · rw [Builder.failed_fail] at hnext
      cases hnext
  case h_8 hrole =>
    cases happly
    have hatom := h.atom_bare hrole rfl rfl
    exact adds_of_close hnext hd fun before => hatom ▸ rfl
  case h_9 hrole => exact absurd hrole hselect
  -- whatever is left stands for an atom, which the look-up builds from the operands
  all_goals
    obtain ⟨ops, hops, happly⟩ := bind_eq_ok_iff.mp happly
    exact adds_of_make hops happly hnext hd

end Statement

-- ---------------------------------------------------------------------------
-- Actions
-- ---------------------------------------------------------------------------

theorem Statement.mem_of_mem_unwrap {body : List Statement} {st : Statement}
    (h : st ∈ unwrap body) : st ∈ body := by
  unfold unwrap at h
  split at h
  · split at h
    · split at h
      · exact List.mem_cons_of_mem _ ((List.dropLast_sublist _).subset h)
      · exact h
    · exact h
  · exact h

/-- The statements of the body of an action are proper if the action is. -/
theorem Statement.IsProper.actionBody {st : Statement} (h : st.IsProper) :
    ∀ inner ∈ st.actionBody, inner.IsProper := by
  intro inner hinner
  unfold Statement.actionBody at hinner
  split at hinner
  · next body more hargs =>
    exact (h.takes.of_mem (hargs ▸ List.mem_cons_self)).2 inner (mem_of_mem_unwrap hinner)
  · cases hinner

/-- The criterion of an action, as an atom. -/
theorem Atom.forScript_criterion (criterion : UInt8) :
    ∃ s, Atom.forScript "act_set_criterion" [.int criterion.toUInt32] =
      .ok (.mk s [.int criterion.toUInt32] 0) := by
  obtain ⟨a, ha⟩ := succeeds_setCriterion criterion
  obtain ⟨s, hs, -, heq⟩ := make_eq_ok_iff.mp (forScript_eq_ok_iff.mp ha)
  cases (Role.byName?_of_mem_table ("act_set_criterion", .criterion) (by decide)).symm.trans hs
  exact ⟨_, heq ▸ ha⟩

/-- Flattening an action gives what its criterion and its body are written as. -/
theorem Atom.onCriterion_eq_actionAtoms {setter : Atom} {criterion : UInt8} {body : List Atom}
    (h : Atom.forScript "act_set_criterion" [.int criterion.toUInt32] = .ok setter) :
    Atom.onCriterion setter body = actionAtoms criterion body := by
  obtain ⟨s, hs⟩ := forScript_criterion criterion
  cases hs.symm.trans h
  have hiff : [Operand.int criterion.toUInt32] = [.int selectCriterion.toUInt32] ↔
      criterion = selectCriterion := by
    rw [List.cons.injEq, Operand.int.injEq, ← UInt32.toNat_inj, UInt8.toNat_toUInt32,
      UInt8.toNat_toUInt32, UInt8.toNat_inj]
    exact and_iff_left rfl
  rw [onCriterion, actionAtoms]
  simp only [operands, hiff, h, ok_bind]

/-- So it does with the criterion that a statement sets. -/
theorem Statement.IsProper.onCriterion_eq {st : Statement} {name : String} {criterion : UInt8}
    (h : st.IsProper) (hrole : st.role = .criterion) (hname : st.criterionName = .ok name)
    (hvalue : Vocabulary.criterion.value? name = some criterion) (body : List Atom) :
    (st.atom >>= fun setter => Atom.onCriterion setter body) = actionAtoms criterion body := by
  obtain ⟨other, rest, hother, hops⟩ := criterionName_eq_ok hname
  cases hother.symm.trans hvalue
  have hs := h.signature_eq hrole rfl
  have htypes := h.types_operands hops
  have hatom := atom_of_operands hops
  rw [hs] at htypes hatom
  obtain rfl := eq_nil_of_types htypes
  obtain ⟨s, hmake⟩ := Atom.forScript_criterion criterion
  rw [hatom, show (Signature.plain "act_set_criterion" .act 0 [.named .criterion]).name =
    "act_set_criterion" from rfl, hmake, ok_bind, Atom.onCriterion_eq_actionAtoms hmake]

namespace Builder

variable {b mid final : Builder} {d : Draft} {statements : List Statement}

/-- The draft `d` is that of the builder `b`, which has not failed, with what statements write. -/
def Gains (b : Builder) (statements : List Statement) (d : Draft) : Prop :=
  b.failed = false ∧ ∃ before atoms, b.draft false = .ok before ∧
    Statement.written Statement.bareOpener statements = .ok atoms ∧ d = before.append atoms

/-- An action has been carried out, whose body has gained what it writes. -/
theorem draft_endAction {name : String} {body : List Statement}
    (hbody : ∀ {inner}, mid.failed = false → mid.draft false = .ok inner →
      (b.action name).Gains body inner)
    (h : mid.endAction.failed = false) (hd : mid.endAction.draft false = .ok d) :
    b.failed = false ∧ ∃ before criterion atoms carried,
      b.draft false = .ok before ∧ Vocabulary.criterion.value? name = some criterion ∧
      (Statement.written Statement.bareOpener body >>= Atom.bracketed) = .ok carried ∧
      actionAtoms criterion carried = .ok atoms ∧ d = before.append atoms := by
  obtain ⟨hmid, inner, hinner, hfinish⟩ := draft_close h hd
  obtain ⟨hopened, start, content, hstart, hcontent, rfl⟩ := hbody hmid hinner
  obtain ⟨hopen, criterion, before, hcriterion, hbefore, hbegin⟩ := draft_action hopened hstart
  obtain ⟨opener, hopener, heq⟩ := bind_eq_ok_iff.mp hbegin
  cases heq
  obtain ⟨closer, hcloser, hfinish⟩ := bind_eq_ok_iff.mp hfinish
  obtain ⟨atoms, hatoms, heq⟩ := bind_eq_ok_iff.mp hfinish
  cases heq
  refine ⟨hopen, before, criterion, atoms, opener :: content ++ [closer], hbefore, hcriterion, ?_,
    ?_, rfl⟩
  · rw [hcontent, ok_bind, Atom.bracketed, hopener, hcloser]
    rfl
  · rw [← hatoms]
    simp only [Draft.append, List.reverse_cons, List.reverse_append, List.reverse_reverse,
      List.reverse_nil, List.nil_append, List.cons_append]

/-- What a statement adds stands before what the rest of them adds. -/
theorem Gains.cons {st : Statement} {rest : List Statement} (hrest : mid.Gains rest d)
    (hst : ∀ {d}, mid.failed = false → mid.draft false = .ok d → st.Adds b d)
    (hselect : st.role ≠ .selectAction) (hpair : ∀ next ∈ rest.head?, st.isPair next = false) :
    b.Gains (st :: rest) d := by
  obtain ⟨hmid, between, more, hbetween, hmore, rfl⟩ := hrest
  obtain ⟨hopen, before, a, hbefore, ha, rfl⟩ := hst hmid hbetween
  refine ⟨hopen, before, a :: more, hbefore, ?_, Draft.push_append before a more⟩
  rw [Statement.written_cons hpair, Statement.single_eq_atom hselect, ha, hmore]
  rfl

/-- Statements add to the draft what they write, with bare brackets around the bodies of actions. -/
theorem gains_of_run (hproper : ∀ st ∈ statements, st.IsProper)
    (hrun : b.run statements = .ok final) (hfinal : final.failed = false)
    (hd : final.draft false = .ok d) : b.Gains statements d := by
  -- the recursion follows the statements, with the body of an action taken before what follows it
  induction b, statements using run.induct generalizing final d with
  | case1 b =>
    unfold run at hrun
    cases hrun
    exact ⟨hfinal, d, [], hd, rfl, rfl⟩
  | case2 b st rest hfailed =>
    rw [run_failed hfailed] at hrun
    cases hrun
    rw [hfailed] at hfinal
    cases hfinal
  -- an action written in one statement, with its own body
  | case3 b st rest hfailed hrole ihBody ihRest =>
    obtain ⟨hst, hrest⟩ := List.forall_mem_cons.mp hproper
    rw [run_select hfailed hrole] at hrun
    obtain ⟨mid, hmid, hrun⟩ := bind_eq_ok_iff.mp hrun
    obtain ⟨hclosed, between, more, hbetween, hmore, rfl⟩ := ihRest mid hrest hrun hfinal hd
    obtain ⟨hopen, before, criterion, atoms, carried, hbefore, hcriterion, hcarried, hatoms, rfl⟩ :=
      draft_endAction (fun hfailed hdraft => ihBody hst.actionBody hmid hfailed hdraft) hclosed
        hbetween
    refine ⟨hopen, before, atoms ++ more, hbefore, ?_, Draft.append_append before atoms more⟩
    obtain rfl : criterion = selectCriterion := Option.some.inj (hcriterion.symm.trans rfl)
    have hname : st.signature.name = "act_replace_select_action" :=
      Statement.name_of_role hrole (by decide) (by decide)
    rw [Statement.written_cons (fun next _ => Statement.isPair_of_role hrole (by decide) next),
      Statement.single_of_select hrole, hst.body_bare, hcarried, hmore, hname]
    rw [actionAtoms, if_pos rfl] at hatoms
    obtain ⟨a, ha, heq⟩ := bind_eq_ok_iff.mp hatoms
    cases heq
    rw [ok_bind, ha]
    rfl
  -- a criterion, and the action that it belongs to
  | case4 b st hfailed hselect hrole next after hnext ihBody ihRest =>
    rw [run, if_neg hfailed, if_neg hselect, if_pos hrole, if_pos hnext] at hrun
    obtain ⟨name, hname, hrun⟩ := bind_eq_ok_iff.mp hrun
    obtain ⟨mid, hmid, hrun⟩ := bind_eq_ok_iff.mp hrun
    obtain ⟨hst, hrest⟩ := List.forall_mem_cons.mp hproper
    obtain ⟨hproperNext, hafter⟩ := List.forall_mem_cons.mp hrest
    obtain ⟨hclosed, between, more, hbetween, hmore, rfl⟩ := ihRest mid hafter hrun hfinal hd
    obtain ⟨hopen, before, criterion, atoms, carried, hbefore, hcriterion, hcarried, hatoms, rfl⟩ :=
      draft_endAction (fun hfailed hdraft => ihBody name hproperNext.actionBody hmid hfailed hdraft)
        hclosed hbetween
    refine ⟨hopen, before, atoms ++ more, hbefore, ?_, Draft.append_append before atoms more⟩
    have hpair : st.isPair next = true := Statement.isPair_iff.mpr ⟨hrole, hnext⟩
    rw [← hst.onCriterion_eq hrole hname hcriterion] at hatoms
    obtain ⟨setter, hsetter, hatoms⟩ := bind_eq_ok_iff.mp hatoms
    rw [Statement.written_cons_of_pair hpair, hproperNext.body_bare, hcarried, hmore, hsetter]
    simp only [ok_bind, hatoms]
    rfl
  -- a criterion that stands by itself is an atom like any other
  | case5 b st hfailed hselect hrole next after hnext ih =>
    obtain ⟨hst, hrest⟩ := List.forall_mem_cons.mp hproper
    rw [run, if_neg hfailed, if_neg hselect, if_pos hrole, if_neg hnext] at hrun
    obtain ⟨mid, hmid, hrun⟩ := bind_eq_ok_iff.mp hrun
    refine (ih mid hrest hrun hfinal hd).cons (hst.adds_of_apply hselect hmid) hselect ?_
    rintro other ⟨⟩
    exact Statement.isPair_eq_false_iff.mpr fun _ => hnext
  | case6 b st hfailed hselect hrole =>
    rw [run, if_neg hfailed, if_neg hselect, if_pos hrole] at hrun
    have hend : final.Gains [] d := ⟨hfinal, d, [], hd, rfl, rfl⟩
    refine hend.cons ((hproper st List.mem_cons_self).adds_of_apply hselect hrun) hselect ?_
    rintro other ⟨⟩
  -- any other statement
  | case7 b st rest hfailed hselect hrole ih =>
    obtain ⟨hst, hrest⟩ := List.forall_mem_cons.mp hproper
    rw [run_apply hfailed hselect hrole] at hrun
    obtain ⟨mid, hmid, hrun⟩ := bind_eq_ok_iff.mp hrun
    refine (ih mid hrest hrun hfinal hd).cons (hst.adds_of_apply hselect hmid) hselect ?_
    rintro other -
    exact Statement.isPair_of_role rfl hrole other

end Builder

-- ---------------------------------------------------------------------------
-- Sources
-- ---------------------------------------------------------------------------

namespace Script

/-- The script that statements build has, up to depths, the atoms that they write. -/
theorem written_of_run {lexemes : List Placed} {statements : List Statement} {script : Script}
    {atoms : List Atom} (hread : Statement.read lexemes = .ok statements)
    (hbuild : (Builder.empty.run statements >>= Builder.build) = .ok script)
    (hflatten : script.flatten = .ok atoms) :
    ∃ written, Statement.written Statement.bareOpener statements = .ok written ∧
      atoms = Atom.assignDepths 0 written := by
  obtain ⟨b, hrun, hbuild⟩ := bind_eq_ok_iff.mp hbuild
  obtain ⟨hfailed, here, hdraft, hatoms⟩ := Builder.draft_of_build hbuild hflatten
  obtain ⟨-, before, written, hbefore, hwritten, heq⟩ :=
    Builder.gains_of_run (Statement.isProper_of_read hread) hrun hfailed hdraft
  cases hbefore
  cases heq
  exact ⟨written, hwritten, by rw [hatoms, List.append_nil, List.reverse_reverse]⟩

/-- What a source text compiles to is, up to depths, what its statements write, but a stream that is
written around the body of an action has no id, whatever is written for it.  Where none is written
there, the statements keep all their operands. -/
theorem flatten_of_parse {source : String} {script : Script} {atoms : List Atom}
    (hparse : parse source = .ok script) (hflatten : script.flatten = .ok atoms) :
    ∃ lexemes statements written, Lexeme.scan source.toList = .ok lexemes ∧
      Statement.read lexemes = .ok statements ∧
      Statement.written Statement.bareOpener statements = .ok written ∧
      atoms = Atom.assignDepths 0 written ∧
      ((∀ st ∈ Statement.openers statements, st.arguments = []) →
        Statement.written Statement.atom statements = .ok written) := by
  obtain ⟨lexemes, hscan, hparse⟩ := bind_eq_ok_iff.mp hparse
  obtain ⟨statements, hread, hparse⟩ := bind_eq_ok_iff.mp hparse
  obtain ⟨written, hwritten, hatoms⟩ := written_of_run hread hparse hflatten
  refine ⟨lexemes, statements, written, hscan, hread, hwritten, hatoms, fun hbare => ?_⟩
  rw [Statement.written_atom_eq hbare, hwritten]

/-- An object with an action, whose body is a stream of its own. -/
def button : String :=
  "uni_start_stream man_start_object <trigger, \"OK\"> " ++
    "act_set_criterion <close> act_replace_action <uni_start_stream async_exit uni_end_stream> " ++
    "man_end_object uni_end_stream"

/-- The characters of a text in three parts.  Evaluated, they would be decoded from its bytes. -/
theorem toList_ofList_append {a b c : List Char} :
    (String.ofList a ++ String.ofList b ++ String.ofList c).toList = a ++ b ++ c := by
  rw [String.toList_append, String.toList_append, String.toList_ofList, String.toList_ofList,
    String.toList_ofList]

/-- All of it is kept. -/
theorem flatten_of_parse_button : ∃ script atoms statements written,
    parse button = .ok script ∧ script.flatten = .ok atoms ∧
      (∀ st ∈ Statement.openers statements, st.arguments = []) ∧
      Statement.written Statement.atom statements = .ok written ∧
      atoms = Atom.assignDepths 0 written := by
  have hrun : (do
      let atoms ← (← parse button).flatten
      let statements ← Statement.read (← Lexeme.scan button.toList)
      return Statement.openers statements : Except CompileError (List Statement)).toOption.any
      (fun openers => openers.all (·.arguments.isEmpty)) = true := by
    rw [parse, show button.toList = _ from toList_ofList_append]
    decide +kernel
  obtain ⟨openers, hrun, hall⟩ := exists_of_any hrun
  obtain ⟨script, hparse, hrun⟩ := bind_eq_ok_iff.mp hrun
  obtain ⟨atoms, hflatten, hrun⟩ := bind_eq_ok_iff.mp hrun
  obtain ⟨lexemes, hscan, hrun⟩ := bind_eq_ok_iff.mp hrun
  obtain ⟨statements, hread, heq⟩ := bind_eq_ok_iff.mp hrun
  cases heq
  have hbare : ∀ st ∈ Statement.openers statements, st.arguments = [] := fun st hst =>
    List.isEmpty_iff.mp (List.all_eq_true.mp hall st hst)
  obtain ⟨_, _, written, hscan', hread', -, hatoms, hkept⟩ := flatten_of_parse hparse hflatten
  cases hscan.symm.trans hscan'
  cases hread.symm.trans hread'
  exact ⟨script, atoms, statements, written, hparse, hflatten, hbare, hkept hbare, hatoms⟩

/-- The same object, with an id for the stream in the action. -/
def numberedButton : String :=
  "uni_start_stream man_start_object <trigger, \"OK\"> " ++
    "act_replace_select_action <uni_start_stream <5> async_exit uni_end_stream> " ++
    "man_end_object uni_end_stream"

/-- The id is lost: what is compiled is not what the statements say. -/
theorem flatten_drops_id : ∃ script atoms lexemes statements written,
    parse numberedButton = .ok script ∧ script.flatten = .ok atoms ∧
      Lexeme.scan numberedButton.toList = .ok lexemes ∧ Statement.read lexemes = .ok statements ∧
      Statement.written Statement.atom statements = .ok written ∧
      atoms ≠ Atom.assignDepths 0 written := by
  have hrun : (do
      let atoms ← (← parse numberedButton).flatten
      let lexemes ← Lexeme.scan numberedButton.toList
      let statements ← Statement.read lexemes
      let written ← Statement.written Statement.atom statements
      return (atoms, written) : Except CompileError (List Atom × List Atom)).toOption.any
      (fun result => decide (result.1 ≠ Atom.assignDepths 0 result.2)) = true := by
    rw [parse, show numberedButton.toList = _ from toList_ofList_append]
    decide +kernel
  obtain ⟨⟨atoms, written⟩, hrun, hne⟩ := exists_of_any hrun
  obtain ⟨script, hparse, hrun⟩ := bind_eq_ok_iff.mp hrun
  obtain ⟨atoms, hflatten, hrun⟩ := bind_eq_ok_iff.mp hrun
  obtain ⟨lexemes, hscan, hrun⟩ := bind_eq_ok_iff.mp hrun
  obtain ⟨statements, hread, hrun⟩ := bind_eq_ok_iff.mp hrun
  obtain ⟨written, hwritten, heq⟩ := bind_eq_ok_iff.mp hrun
  cases heq
  exact ⟨script, atoms, lexemes, statements, written, hparse, hflatten, hscan, hread, hwritten,
    of_decide_eq_true hne⟩

end Script

end Switchboard
