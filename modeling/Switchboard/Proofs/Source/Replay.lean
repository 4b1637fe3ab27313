import Mathlib.Data.List.Forall2
import Switchboard.Proofs.Source.Faithful
import Switchboard.Proofs.Source.Reread

/-!
# Listings compiled again

The statements of a listing do to a builder what the statements of the source text did that it is
the listing of, if its operands are legible.

Main results:

* `Builder.run_copies`: the statements that atoms are written as do what the statements did that
  wrote the atoms.
* `Script.parse_listing`: a legible listing is read as the script that it is the listing of.
-/

namespace Switchboard

-- ---------------------------------------------------------------------------
-- What statements write is fresh
-- ---------------------------------------------------------------------------

theorem Atom.fresh_singleton_of_forScript {name : String} {given : List Operand} {a : Atom}
    (h : forScript name given = .ok a)
    (hgiven : ∀ inner, .stream inner ∈ given → inner ≠ [] ∧ Everywhere IsFresh inner) :
    Everywhere IsFresh [a] :=
  fresh_singleton_of_make (forScript_eq_ok_iff.mp h) hgiven

theorem Atom.fresh_bracketed {atoms carried : List Atom} (h : Everywhere IsFresh atoms)
    (hcarried : bracketed atoms = .ok carried) : carried ≠ [] ∧ Everywhere IsFresh carried := by
  obtain ⟨start, hstart, hcarried⟩ := bind_eq_ok_iff.mp hcarried
  obtain ⟨last, hlast, heq⟩ := bind_eq_ok_iff.mp hcarried
  cases heq
  refine ⟨List.cons_ne_nil _ _, everywhere_append.mpr ⟨?_, ?_⟩⟩
  · exact everywhere_cons_iff.mpr
      ⟨fresh_singleton_of_forScript hstart (fun _ hmem => absurd hmem List.not_mem_nil), h⟩
  · exact fresh_singleton_of_forScript hlast fun _ hmem => absurd hmem List.not_mem_nil

theorem Atom.fresh_onCriterion {setter : Atom} {carried atoms : List Atom}
    (hsetter : Everywhere IsFresh [setter]) (hcarried : carried ≠ [] ∧ Everywhere IsFresh carried)
    (h : onCriterion setter carried = .ok atoms) : Everywhere IsFresh atoms := by
  have hgiven : ∀ inner, .stream inner ∈ [Operand.stream carried] →
      inner ≠ [] ∧ Everywhere IsFresh inner := by
    intro inner hinner
    cases List.mem_singleton.mp hinner
    exact hcarried
  unfold onCriterion at h
  split at h
  · obtain ⟨a, ha, heq⟩ := bind_eq_ok_iff.mp h
    cases heq
    exact fresh_singleton_of_forScript ha hgiven
  · obtain ⟨a, ha, heq⟩ := bind_eq_ok_iff.mp h
    cases heq
    exact everywhere_cons_iff.mpr ⟨hsetter, fresh_singleton_of_forScript ha hgiven⟩

theorem Statement.IsProper.fresh_atom {st : Statement} {a : Atom} (h : st.IsProper)
    (ha : st.atom = .ok a) : Atom.Everywhere Atom.IsFresh [a] := by
  obtain ⟨ops, hops, ha⟩ := bind_eq_ok_iff.mp ha
  exact Atom.fresh_singleton_of_forScript ha (Statement.fresh_operands st h hops)

mutual

/-- What statements write is fresh. -/
theorem Statement.fresh_written :
    ∀ (statements : List Statement) {atoms : List Atom}, (∀ st ∈ statements, st.IsProper) →
      Statement.written Statement.bareOpener statements = .ok atoms →
      Atom.Everywhere Atom.IsFresh atoms
  | [], atoms, _, h => by
    rw [Statement.written] at h
    cases h
    exact Atom.everywhere_nil _
  | [st], atoms, hproper, h => by
    rw [Statement.written] at h
    obtain ⟨a, ha, heq⟩ := bind_eq_ok_iff.mp h
    cases heq
    exact Statement.fresh_single st (hproper st List.mem_cons_self) ha
  | st :: next :: after, atoms, hproper, h => by
    obtain ⟨hst, hrest⟩ := List.forall_mem_cons.mp hproper
    rw [Statement.written] at h
    split at h
    · obtain ⟨hnext, hafter⟩ := List.forall_mem_cons.mp hrest
      obtain ⟨setter, hsetter, h⟩ := bind_eq_ok_iff.mp h
      obtain ⟨carried, hcarried, h⟩ := bind_eq_ok_iff.mp h
      obtain ⟨first, hfirst, h⟩ := bind_eq_ok_iff.mp h
      obtain ⟨more, hmore, heq⟩ := bind_eq_ok_iff.mp h
      cases heq
      refine Atom.everywhere_append.mpr ⟨?_, Statement.fresh_written after hafter hmore⟩
      exact Atom.fresh_onCriterion (hst.fresh_atom hsetter)
        (Statement.fresh_body next hnext hcarried) hfirst
    · obtain ⟨a, ha, h⟩ := bind_eq_ok_iff.mp h
      obtain ⟨more, hmore, heq⟩ := bind_eq_ok_iff.mp h
      cases heq
      exact Atom.everywhere_cons_iff.mpr
        ⟨Statement.fresh_single st hst ha, Statement.fresh_written (next :: after) hrest hmore⟩

theorem Statement.fresh_single :
    ∀ (st : Statement) {a : Atom}, st.IsProper → st.single Statement.bareOpener = .ok a →
      Atom.Everywhere Atom.IsFresh [a]
  | .mk s line args, a, hproper, h => by
    rw [Statement.single] at h
    split at h
    · obtain ⟨carried, hcarried, ha⟩ := bind_eq_ok_iff.mp h
      refine Atom.fresh_singleton_of_forScript ha fun inner hinner => ?_
      cases List.mem_singleton.mp hinner
      exact Argument.fresh_body args (fun inner hmem => hproper.takes.of_mem hmem) hcarried
    · exact hproper.fresh_atom h

theorem Statement.fresh_body :
    ∀ (st : Statement) {atoms : List Atom}, st.IsProper → st.body Statement.bareOpener = .ok atoms →
      atoms ≠ [] ∧ Atom.Everywhere Atom.IsFresh atoms
  | .mk s line args, atoms, hproper, h => by
    rw [Statement.body] at h
    exact Argument.fresh_body args (fun inner hmem => hproper.takes.of_mem hmem) h

theorem Argument.fresh_body :
    ∀ (args : List Argument) {atoms : List Atom},
      (∀ inner, .stream inner ∈ args → inner ≠ [] ∧ ∀ st ∈ inner, st.IsProper) →
      Argument.body Statement.bareOpener args = .ok atoms →
      atoms ≠ [] ∧ Atom.Everywhere Atom.IsFresh atoms
  | .stream (first :: rest) :: _, atoms, hargs, h => by
    have hinner := (hargs _ List.mem_cons_self).2
    rw [Argument.body] at h
    split at h
    · obtain ⟨opener, hopener, h⟩ := bind_eq_ok_iff.mp h
      obtain ⟨more, hmore, heq⟩ := bind_eq_ok_iff.mp h
      cases heq
      refine ⟨List.cons_ne_nil _ _, Atom.everywhere_cons_iff.mpr ⟨?_, ?_⟩⟩
      · exact Atom.fresh_singleton_of_forScript hopener fun _ hmem => absurd hmem List.not_mem_nil
      · exact Statement.fresh_written rest (List.forall_mem_cons.mp hinner).2 hmore
    · obtain ⟨content, hcontent, hatoms⟩ := bind_eq_ok_iff.mp h
      exact Atom.fresh_bracketed (Statement.fresh_written (first :: rest) hinner hcontent) hatoms
  | [], atoms, _, h => by
    rw [Argument.body] at h
    · exact Atom.fresh_bracketed (Atom.everywhere_nil _) h
    · rintro _ _ _ ⟨⟩
  | .stream [] :: _, atoms, _, h => by
    rw [Argument.body] at h
    · exact Atom.fresh_bracketed (Atom.everywhere_nil _) h
    · rintro _ _ _ ⟨⟩
  | .literals _ :: _, atoms, _, h => by
    rw [Argument.body] at h
    · exact Atom.fresh_bracketed (Atom.everywhere_nil _) h
    · rintro _ _ _ ⟨⟩

end

-- ---------------------------------------------------------------------------
-- Single statements
-- ---------------------------------------------------------------------------

namespace Statement

variable {st copy : Statement} {a : Atom} {b next : Builder}

/-- A statement is the written form of an atom, on some line. -/
def IsCopy (copy : Statement) (a : Atom) : Prop :=
  ∃ line, copy = a.statement line

theorem IsCopy.signature_eq (h : copy.IsCopy a) : copy.signature = a.signature := by
  obtain ⟨line, rfl⟩ := h
  exact Atom.signature_statement line a

theorem IsCopy.operands_eq (h : copy.IsCopy a) (hfresh : Atom.Everywhere Atom.IsFresh [a]) :
    copy.operands = .ok a.operands := by
  obtain ⟨line, rfl⟩ := h
  exact Atom.operands_statement line a hfresh

/-- The role of a copy is that of the name of its atom. -/
theorem IsCopy.role_eq {name : String} {given : List Operand} (h : copy.IsCopy a)
    (ha : Atom.forScript name given = .ok a) :
    copy.role = (Role.table.lookup name).getD .plain := by
  obtain ⟨s, hs, -, rfl⟩ := Atom.make_eq_ok_iff.mp (Atom.forScript_eq_ok_iff.mp ha)
  rw [role, h.signature_eq]
  exact congrArg (fun name => (Role.table.lookup name).getD .plain) (Signature.name_of_byName? hs)

theorem IsCopy.role_eq_of_atom (h : copy.IsCopy a) (ha : st.atom = .ok a) :
    copy.role = st.role := by
  obtain ⟨ops, -, ha⟩ := bind_eq_ok_iff.mp ha
  exact h.role_eq ha

theorem role_congr (h : copy.signature = st.signature) : copy.role = st.role := by
  rw [role, role, h]

/-- The atom of a proper statement has its signature, and its operands but those that may be left
out. -/
theorem IsProper.atom_eq_ok (h : st.IsProper) (ha : st.atom = .ok a) :
    ∃ ops, st.operands = .ok ops ∧
      a = .mk st.signature (Operand.dropOmitted st.signature.required ops) 0 := by
  obtain ⟨ops, hops, ha⟩ := bind_eq_ok_iff.mp ha
  obtain ⟨s, hs, -, rfl⟩ := Atom.make_eq_ok_iff.mp (Atom.forScript_eq_ok_iff.mp ha)
  cases hs.symm.trans h.known
  exact ⟨ops, hops, rfl⟩

/-- A title that may be left out is left out only if it is empty. -/
theorem dropOmitted_object {op : Operand} {rest : List Operand}
    (h : (op :: rest).map (·.type) <+: [.integer, .string]) :
    ∃ kept, Operand.dropOmitted 1 (op :: rest) = op :: kept ∧
      title (op :: kept) = title (op :: rest) := by
  rcases objectOperands_eq h with rfl | ⟨text, rfl⟩
  · exact ⟨[], rfl, rfl⟩
  · cases hempty : text.isEmpty with
    | false =>
      refine ⟨[.str text], ?_, rfl⟩
      have hkeep : (Operand.str text).isEmptyText = false := hempty
      simp [Operand.dropOmitted, hkeep]
    | true =>
      refine ⟨[], ?_, (String.isEmpty_iff.mp hempty).symm⟩
      have hdrop : (Operand.str text).isEmptyText = true := hempty
      simp [Operand.dropOmitted, hdrop]

/-- The copy of an object has the same type and title. -/
theorem IsProper.objectHead_copy {head : String × String} (h : st.IsProper)
    (hfields : st.signature.fields = [.named .objectType, Signature.title])
    (hrequired : st.signature.required = 1) (hhead : st.objectHead = .ok head)
    (ha : st.atom = .ok a) (hcopy : copy.operands = .ok a.operands) :
    copy.objectHead = .ok head := by
  obtain ⟨ops, hops, rfl⟩ := h.atom_eq_ok ha
  have htypes := h.types_operands hops
  rw [hfields] at htypes
  rw [objectHead, hops, ok_bind] at hhead
  rw [objectHead, hcopy, ok_bind, Atom.operands, hrequired]
  cases ops with
  | nil => cases hhead
  | cons op rest =>
    obtain ⟨kept, hkept, htitle⟩ := dropOmitted_object htypes
    have hsymbol : symbol? .objectType (op :: kept) = symbol? .objectType (op :: rest) := rfl
    rw [hkept, hsymbol, htitle]
    split at hhead
    · exact hhead
    · cases hhead

/-- Operands that are neither text nor bytes are never left out. -/
theorem dropOmitted_eq_self {ops : List Operand} (required : Nat)
    (h : ∀ op ∈ ops, op.type ≠ .string ∧ op.type ≠ .byteBlock) :
    Operand.dropOmitted required ops = ops := by
  have hkeep : ∀ op ∈ ops, op.isEmptyText = false := by
    intro op hop
    obtain ⟨hstring, hbytes⟩ := h op hop
    cases op with
    | str => exact absurd rfl hstring
    | raw => exact absurd rfl hbytes
    | int | gid | stream => rfl
  have hlast : (ops.drop required).rdropWhile (·.isEmptyText) = ops.drop required := by
    refine List.rdropWhile_eq_self_iff.mpr fun hne => ?_
    rw [hkeep _ (List.mem_of_mem_drop (List.getLast_mem hne))]
    exact Bool.false_ne_true
  rw [Operand.dropOmitted_eq, hlast, List.take_append_drop]

/-- A copy has the same operands, if none of them is text or bytes. -/
theorem IsProper.operands_copy {s : Signature} (h : st.IsProper) (hs : st.signature = s)
    (hplain : ∀ kind ∈ s.fields, kind.operandType ≠ .string ∧ kind.operandType ≠ .byteBlock)
    (ha : st.atom = .ok a) (hcopy : copy.IsCopy a) : copy.operands = st.operands := by
  obtain ⟨ops, hops, heq⟩ := h.atom_eq_ok ha
  rw [hcopy.operands_eq (h.fresh_atom ha), hops, heq, Atom.operands, dropOmitted_eq_self]
  intro op hop
  obtain ⟨kind, hkind, htype⟩ :=
    List.mem_map.mp ((h.types_operands hops).subset (List.mem_map_of_mem hop))
  rw [← htype]
  exact hplain kind (hs ▸ hkind)

/-- The statement that an atom is written as does what the statement did that wrote the atom. -/
theorem IsProper.apply_copy (h : st.IsProper) (hselect : st.role ≠ .selectAction)
    (happly : st.apply b = .ok next) (hnext : next.failed = false) (ha : st.atom = .ok a)
    (hcopy : copy.IsCopy a) : copy.apply b = .ok next := by
  have hfresh := h.fresh_atom ha
  have hoperands := hcopy.operands_eq hfresh
  obtain ⟨ops, hops, heq⟩ := h.atom_eq_ok ha
  have hsignature : copy.signature = st.signature := by
    rw [hcopy.signature_eq, heq]
    rfl
  unfold apply at happly ⊢
  rw [role_congr hsignature]
  split at happly
  case h_1 hrole =>
    rw [h.operands_copy (h.signature_eq hrole rfl) (by decide) ha hcopy]
    exact happly
  case h_2 => exact happly
  case h_3 hrole =>
    have hs := h.signature_eq hrole rfl
    obtain ⟨head, hhead, happly⟩ := bind_eq_ok_iff.mp happly
    rw [h.objectHead_copy (hs ▸ rfl) (hs ▸ rfl) hhead ha hoperands]
    exact happly
  case h_4 hrole =>
    have hs := h.signature_eq hrole rfl
    obtain ⟨head, hhead, happly⟩ := bind_eq_ok_iff.mp happly
    rw [h.objectHead_copy (hs ▸ rfl) (hs ▸ rfl) hhead ha hoperands]
    exact happly
  case h_5 => exact happly
  case h_6 hrole =>
    rw [h.operands_copy (h.signature_eq hrole rfl) (by decide) ha hcopy]
    obtain ⟨ops, hops, happly⟩ := bind_eq_ok_iff.mp happly
    rw [hops, ok_bind]
    split at happly <;> cases happly
    · rfl
    · rw [Builder.failed_fail] at hnext
      cases hnext
  case h_7 hrole =>
    rw [h.operands_copy (h.signature_eq hrole rfl) (by decide) ha hcopy]
    obtain ⟨ops, hops, happly⟩ := bind_eq_ok_iff.mp happly
    rw [hops, ok_bind]
    split at happly <;> cases happly
    · rfl
    · rw [Builder.failed_fail] at hnext
      cases hnext
  case h_8 => exact happly
  case h_9 hrole => exact absurd hrole hselect
  -- the look-up builds the same atom again
  all_goals
    obtain ⟨hfresh, -, -⟩ := Atom.everywhere_cons.mp hfresh
    rw [atom, hops] at ha
    rw [hops, ok_bind, show Atom.make st.signature.name ops = .ok a from
      Atom.forScript_eq_ok_iff.mp ha] at happly
    rw [hoperands, ok_bind, hcopy.signature_eq,
      show Atom.make a.signature.name a.operands = .ok a from hfresh.make]
    exact happly

/-- The body of the copy of an action is what the action carries, without the brackets. -/
theorem IsCopy.actionBody_eq {name : String} {s : Signature} {content carried : List Atom}
    (hcopy : copy.IsCopy a) (hknown : Signature.byName? name = some s)
    (hfields : s.fields = [.stream]) (hcarried : Atom.bracketed content = .ok carried)
    (ha : Atom.forScript name [.stream carried] = .ok a) :
    ∃ line, copy.actionBody = Atom.statements line content := by
  obtain ⟨line, rfl⟩ := hcopy
  obtain ⟨s', hs, -, rfl⟩ := Atom.make_eq_ok_iff.mp (Atom.forScript_eq_ok_iff.mp ha)
  cases hs.symm.trans hknown
  obtain ⟨start, hstart, hcarried⟩ := bind_eq_ok_iff.mp hcarried
  obtain ⟨last, hlast, heq⟩ := bind_eq_ok_iff.mp hcarried
  cases heq
  have hopener : Atom.forScript "uni_start_stream" [] =
      .ok (.mk (.define "uni_start_stream" .uni 1 [.num] 0 (.opens .stream)) [] 0) := rfl
  have hcloser : Atom.forScript "uni_end_stream" [] =
      .ok (.mk (.define "uni_end_stream" .uni 2 [] 0 (.closes .stream)) [] 0) := rfl
  cases hopener.symm.trans hstart
  cases hcloser.symm.trans hlast
  refine ⟨line, ?_⟩
  rw [dropOmitted_eq_self _ (by simp [Operand.type]), Atom.statement, hfields, Operand.arguments,
    Operand.argument, actionBody, arguments]
  dsimp only
  rw [Atom.statements_eq_map, List.cons_append, List.map_cons, List.map_append, List.map_singleton,
    unwrap_of_isEnclosed, List.dropLast_concat, Atom.statements_eq_map]
  rw [isEnclosed_cons_iff]
  exact ⟨rfl, _, List.getLast?_concat, rfl⟩

/-- The criterion whose value is that of `select` is `select`. -/
theorem IsProper.name_eq_select {name : String} (h : st.IsProper) (hrole : st.role = .criterion)
    (hname : st.criterionName = .ok name) (ha : st.atom = .ok a)
    (hvalue : a.operands = [.int selectCriterion.toUInt32]) : name = "select" := by
  have hcopy : IsCopy (a.statement 0) a := ⟨0, rfl⟩
  have hoperands := h.operands_copy (h.signature_eq hrole rfl) (by decide) ha hcopy
  rw [hcopy.operands_eq (h.fresh_atom ha), hvalue] at hoperands
  rw [criterionName, ← hoperands] at hname
  cases hname
  rfl

/-- The criterion that a copy sets is the one that the statement set. -/
theorem IsProper.criterionName_copy {name : String} (h : st.IsProper) (hrole : st.role = .criterion)
    (hname : st.criterionName = .ok name) (ha : st.atom = .ok a) (hcopy : copy.IsCopy a) :
    copy.criterionName = .ok name := by
  have hoperands := h.operands_copy (h.signature_eq hrole rfl) (by decide) ha hcopy
  obtain ⟨ops, hops, hname⟩ := bind_eq_ok_iff.mp hname
  rw [criterionName, hoperands, hops, ok_bind]
  split at hname
  · exact hname
  · cases hname

end Statement

-- ---------------------------------------------------------------------------
-- Runs
-- ---------------------------------------------------------------------------

namespace Builder

variable {b final : Builder} {st next : Statement} {rest : List Statement}

theorem run_of_failed (h : b.failed = true) (statements : List Statement) :
    b.run statements = .ok b := by
  cases statements with
  | nil => rw [run]
  | cons st rest => exact run_failed h st rest

/-- A statement that is no action is carried out by itself. -/
theorem run_single (hfailed : b.failed = false) (hselect : st.role ≠ .selectAction)
    (hpair : ∀ next ∈ rest.head?, st.isPair next = false) :
    b.run (st :: rest) = st.apply b >>= fun b => b.run rest := by
  have hopen : ¬b.failed = true := by rw [hfailed]; decide
  by_cases hcriterion : st.role = .criterion
  · cases rest with
    | nil =>
      rw [run, if_neg hopen, if_neg hselect, if_pos hcriterion]
      have hrun : (fun b : Builder => b.run []) = pure := by
        funext b
        rw [run]
        rfl
      rw [hrun, bind_pure]
    | cons next after =>
      have hnext := Statement.isPair_eq_false_iff.mp (hpair next rfl) hcriterion
      rw [run, if_neg hopen, if_neg hselect, if_pos hcriterion, if_neg hnext]
  · exact run_apply hopen hselect hcriterion rest

/-- A criterion and the action on it are carried out together. -/
theorem run_pair (hfailed : b.failed = false) (hcriterion : st.role = .criterion)
    (hnext : next.role = .replaceAction) :
    b.run (st :: next :: rest) = st.criterionName >>= fun name =>
      (b.action name).run next.actionBody >>= fun b => b.endAction.run rest := by
  rw [run, if_neg (by rw [hfailed]; decide), if_neg (by rw [hcriterion]; decide), if_pos hcriterion,
    if_pos hnext]

end Builder

theorem Statement.copies_statements (line : Nat) (atoms : List Atom) :
    List.Forall₂ IsCopy (Atom.statements line atoms) atoms := by
  rw [Atom.statements_eq_map, List.forall₂_map_left_iff, List.forall₂_same]
  exact fun a _ => ⟨line, rfl⟩

/-- Atoms that do not start with an action that awaits its criterion are not written as such. -/
theorem Statement.role_head_copies {st first : Statement} {rest copies : List Statement}
    {atoms : List Atom} (hrole : st.role ≠ .replaceAction)
    (hwritten : written bareOpener (st :: rest) = .ok atoms)
    (hcopies : List.Forall₂ IsCopy copies atoms) (hfirst : first ∈ copies.head?) :
    first.role ≠ .replaceAction := by
  by_cases hpair : ∃ next after, rest = next :: after ∧ st.isPair next = true
  · obtain ⟨next, after, rfl, hpair⟩ := hpair
    have hcriterion := (isPair_iff.mp hpair).1
    rw [written_cons_of_pair hpair] at hwritten
    obtain ⟨setter, hsetter, hwritten⟩ := bind_eq_ok_iff.mp hwritten
    obtain ⟨carried, -, hwritten⟩ := bind_eq_ok_iff.mp hwritten
    obtain ⟨written, hpairWritten, hwritten⟩ := bind_eq_ok_iff.mp hwritten
    obtain ⟨more, -, heq⟩ := bind_eq_ok_iff.mp hwritten
    cases heq
    unfold Atom.onCriterion at hpairWritten
    split at hpairWritten
    · obtain ⟨a, ha, heq⟩ := bind_eq_ok_iff.mp hpairWritten
      cases heq
      cases hcopies with
      | cons hcopy _ =>
        cases hfirst
        rw [hcopy.role_eq ha]
        decide
    · obtain ⟨a, -, heq⟩ := bind_eq_ok_iff.mp hpairWritten
      cases heq
      cases hcopies with
      | cons hcopy _ =>
        cases hfirst
        rw [hcopy.role_eq_of_atom hsetter, hcriterion]
        decide
  · have halone : ∀ next ∈ rest.head?, st.isPair next = false := by
      intro next hnext
      obtain ⟨after, rfl⟩ := List.head?_eq_some_iff.mp hnext
      exact Bool.eq_false_iff.mpr fun htrue => hpair ⟨next, after, rfl, htrue⟩
    rw [written_cons halone] at hwritten
    obtain ⟨a, ha, hwritten⟩ := bind_eq_ok_iff.mp hwritten
    obtain ⟨more, -, heq⟩ := bind_eq_ok_iff.mp hwritten
    cases heq
    cases hcopies with
    | cons hcopy _ =>
      cases hfirst
      by_cases hselect : st.role = .selectAction
      · rw [single_of_select hselect] at ha
        obtain ⟨carried, -, ha⟩ := bind_eq_ok_iff.mp ha
        rw [show _ = st.role from hcopy.role_eq ha]
        exact hrole
      · rw [single_eq_atom hselect] at ha
        rw [hcopy.role_eq_of_atom ha]
        exact hrole

namespace Builder

/-- A statement that is no action, and those after it. -/
theorem run_copies_single {b mid final : Builder} {st : Statement} {rest copies : List Statement}
    {atoms : List Atom} (hst : st.IsProper) (hfailed : b.failed = false)
    (hselect : st.role ≠ .selectAction) (hmid : st.apply b = .ok mid) (hopen : mid.failed = false)
    (hpair : ∀ next ∈ rest.head?, st.isPair next = false)
    (hwritten : Statement.written Statement.bareOpener (st :: rest) = .ok atoms)
    (hcopies : List.Forall₂ Statement.IsCopy copies atoms)
    (hrest : ∀ {more copies}, Statement.written Statement.bareOpener rest = .ok more →
      List.Forall₂ Statement.IsCopy copies more → mid.run copies = .ok final) :
    b.run copies = .ok final := by
  rw [Statement.written_cons hpair, Statement.single_eq_atom hselect] at hwritten
  obtain ⟨a, ha, hwritten⟩ := bind_eq_ok_iff.mp hwritten
  obtain ⟨more, hmore, heq⟩ := bind_eq_ok_iff.mp hwritten
  cases heq
  cases hcopies with
  | cons hcopy hcopies =>
    have hrole := hcopy.role_eq_of_atom ha
    rw [run_single hfailed (by rwa [hrole]), hst.apply_copy hselect hmid hopen ha hcopy, ok_bind]
    · exact hrest hmore hcopies
    · -- a criterion stays apart from what is written after it
      intro first hfirst
      refine Statement.isPair_eq_false_iff.mpr fun hcriterion => ?_
      rw [hrole] at hcriterion
      cases rest with
      | nil =>
        rw [Statement.written] at hmore
        cases hmore
        cases hcopies
        cases hfirst
      | cons next after =>
        have hnext := Statement.isPair_eq_false_iff.mp (hpair next rfl) hcriterion
        exact Statement.role_head_copies hnext hmore hcopies hfirst

/-- The statements that atoms are written as do what the statements did that wrote the atoms. -/
theorem run_copies {b final : Builder} {d : Draft} {statements copies : List Statement}
    {atoms : List Atom} (hproper : ∀ st ∈ statements, st.IsProper)
    (hrun : b.run statements = .ok final) (hfinal : final.failed = false)
    (hd : final.draft false = .ok d)
    (hwritten : Statement.written Statement.bareOpener statements = .ok atoms)
    (hcopies : List.Forall₂ Statement.IsCopy copies atoms) : b.run copies = .ok final := by
  induction b, statements using run.induct generalizing final d copies atoms with
  | case1 b =>
    rw [Statement.written] at hwritten
    cases hwritten
    cases hcopies
    exact hrun
  | case2 b st rest hfailed =>
    rw [run_failed hfailed] at hrun
    cases hrun
    exact run_of_failed hfailed copies
  -- an action written in one statement, with its own body
  | case3 b st rest hfailed hrole ihBody ihRest =>
    obtain ⟨hst, hrest⟩ := List.forall_mem_cons.mp hproper
    rw [run_select hfailed hrole] at hrun
    obtain ⟨mid, hmid, hrun⟩ := bind_eq_ok_iff.mp hrun
    obtain ⟨hclosed, between, -, hbetween, -⟩ := gains_of_run hrest hrun hfinal hd
    obtain ⟨hopen, inner, hinner, -⟩ := draft_close hclosed hbetween
    rw [Statement.written_cons (fun next _ => Statement.isPair_of_role hrole (by decide) next),
      Statement.single_of_select hrole, hst.body_bare] at hwritten
    obtain ⟨a, ha, hwritten⟩ := bind_eq_ok_iff.mp hwritten
    obtain ⟨carried, hcarried, ha⟩ := bind_eq_ok_iff.mp ha
    obtain ⟨content, hcontent, hcarried⟩ := bind_eq_ok_iff.mp hcarried
    obtain ⟨more, hmore, heq⟩ := bind_eq_ok_iff.mp hwritten
    cases heq
    cases hcopies with
    | cons hcopy hcopies =>
      have hs := hst.signature_eq hrole rfl
      obtain ⟨line, hbody⟩ := hcopy.actionBody_eq hst.known (hs ▸ rfl) hcarried ha
      rw [run_select hfailed ((hcopy.role_eq ha).trans hrole), hbody,
        ihBody hst.actionBody hmid hopen hinner hcontent (Statement.copies_statements line content),
        ok_bind]
      exact ihRest mid hrest hrun hfinal hd hmore hcopies
  -- a criterion, and the action that it belongs to
  | case4 b st hfailed hselect hrole next after hnext ihBody ihRest =>
    obtain ⟨hst, hrest⟩ := List.forall_mem_cons.mp hproper
    obtain ⟨hproperNext, hafter⟩ := List.forall_mem_cons.mp hrest
    rw [run_pair (Bool.eq_false_iff.mpr hfailed) hrole hnext] at hrun
    obtain ⟨name, hname, haction⟩ := bind_eq_ok_iff.mp hrun
    obtain ⟨mid, hmid, hend⟩ := bind_eq_ok_iff.mp haction
    obtain ⟨hclosed, between, -, hbetween, -⟩ := gains_of_run hafter hend hfinal hd
    obtain ⟨hopen, inner, hinner, -⟩ := draft_close hclosed hbetween
    have hpair : st.isPair next = true := Statement.isPair_iff.mpr ⟨hrole, hnext⟩
    rw [Statement.written_cons_of_pair hpair, hproperNext.body_bare] at hwritten
    obtain ⟨setter, hsetter, hwritten⟩ := bind_eq_ok_iff.mp hwritten
    obtain ⟨carried, hcarried, hwritten⟩ := bind_eq_ok_iff.mp hwritten
    obtain ⟨content, hcontent, hcarried⟩ := bind_eq_ok_iff.mp hcarried
    obtain ⟨acts, hacts, hwritten⟩ := bind_eq_ok_iff.mp hwritten
    obtain ⟨more, hmore, heq⟩ := bind_eq_ok_iff.mp hwritten
    cases heq
    have hbody (line : Nat) := ihBody name hproperNext.actionBody hmid hopen hinner hcontent
      (Statement.copies_statements line content)
    unfold Atom.onCriterion at hacts
    split at hacts
    -- both have become one atom
    · next hselectValue =>
      obtain ⟨a, ha, heq⟩ := bind_eq_ok_iff.mp hacts
      cases heq
      obtain rfl := hst.name_eq_select hrole hname hsetter hselectValue
      cases hcopies with
      | cons hcopy hcopies =>
        obtain ⟨line, hcopyBody⟩ := hcopy.actionBody_eq
          (Role.byName?_of_mem_table (_, .selectAction) (by decide)) rfl hcarried ha
        rw [run_select hfailed (hcopy.role_eq ha), hcopyBody, hbody line, ok_bind]
        exact ihRest mid hafter hend hfinal hd hmore hcopies
    · obtain ⟨a, ha, heq⟩ := bind_eq_ok_iff.mp hacts
      cases heq
      cases hcopies with
      | cons hcopy hcopies =>
        cases hcopies with
        | cons hcopyNext hcopies =>
          obtain ⟨line, hcopyBody⟩ := hcopyNext.actionBody_eq
            (Role.byName?_of_mem_table (_, .replaceAction) (by decide)) rfl hcarried ha
          rw [run_pair (Bool.eq_false_iff.mpr hfailed) ((hcopy.role_eq_of_atom hsetter).trans hrole)
            (hcopyNext.role_eq ha), hst.criterionName_copy hrole hname hsetter hcopy, ok_bind,
            hcopyBody, hbody line, ok_bind]
          exact ihRest mid hafter hend hfinal hd hmore hcopies
  -- a criterion that stands by itself is an atom like any other
  | case5 b st hfailed hselect hrole next after hnext ih =>
    obtain ⟨hst, hrest⟩ := List.forall_mem_cons.mp hproper
    rw [run, if_neg hfailed, if_neg hselect, if_pos hrole, if_neg hnext] at hrun
    obtain ⟨mid, hmid, hrun⟩ := bind_eq_ok_iff.mp hrun
    refine run_copies_single hst (Bool.eq_false_iff.mpr hfailed) hselect hmid
      (gains_of_run hrest hrun hfinal hd).1 ?_ hwritten hcopies
      fun hmore hcopies => ih mid hrest hrun hfinal hd hmore hcopies
    rintro other ⟨⟩
    exact Statement.isPair_eq_false_iff.mpr fun _ => hnext
  | case6 b st hfailed hselect hrole =>
    rw [run, if_neg hfailed, if_neg hselect, if_pos hrole] at hrun
    refine run_copies_single (hproper st List.mem_cons_self) (Bool.eq_false_iff.mpr hfailed) hselect
      hrun hfinal ?_ hwritten hcopies fun hmore hcopies => ?_
    · rintro other ⟨⟩
    · rw [Statement.written] at hmore
      cases hmore
      cases hcopies
      rw [run]
  -- any other statement
  | case7 b st rest hfailed hselect hrole ih =>
    obtain ⟨hst, hrest⟩ := List.forall_mem_cons.mp hproper
    rw [run_apply hfailed hselect hrole] at hrun
    obtain ⟨mid, hmid, hrun⟩ := bind_eq_ok_iff.mp hrun
    refine run_copies_single hst (Bool.eq_false_iff.mpr hfailed) hselect hmid
      (gains_of_run hrest hrun hfinal hd).1 ?_ hwritten hcopies
      fun hmore hcopies => ih mid hrest hrun hfinal hd hmore hcopies
    rintro other -
    exact Statement.isPair_of_role rfl hrole other

end Builder

-- ---------------------------------------------------------------------------
-- Listings
-- ---------------------------------------------------------------------------

/-- Whether the streams that an atom carries have atoms does not depend on depths. -/
theorem Atom.filled_atDepth (a : Atom) (depth : UInt16)
    (h : ∀ inner, .stream inner ∈ a.operands → inner ≠ []) :
    ∀ inner, .stream inner ∈ (a.atDepth depth).operands → inner ≠ [] := by
  obtain ⟨s, ops, old⟩ := a
  intro inner hinner
  rw [atDepth, operands, Operand.withDepthsList_eq_map] at hinner
  obtain ⟨op, hop, heq⟩ := List.mem_map.mp hinner
  cases op with
  | stream atoms =>
    cases heq
    cases atoms with
    | nil => exact absurd rfl (h [] hop)
    | cons first rest =>
      rw [assignFrom_cons]
      exact List.cons_ne_nil _ _
  | int | str | raw | gid => cases heq

theorem Statement.copies_zipIdx (atoms : List Atom) (line : Nat) :
    List.Forall₂ IsCopy ((atoms.zipIdx line).map fun p => p.1.statement p.2) atoms := by
  induction atoms generalizing line with
  | nil => exact .nil
  | cons a atoms ih => exact .cons ⟨line, rfl⟩ (ih (line + 1))

namespace Script

/-- The listing of what a source text compiles to is source text for the same script, if its texts
have legible characters only and none of its blocks of bytes is empty. -/
theorem parse_listing {source : String} {script : Script} {atoms : List Atom}
    (hparse : parse source = .ok script) (hflatten : script.flatten = .ok atoms)
    (hlegible : Atom.Everywhere (fun a => ∀ op ∈ a.operands, op.IsLegible) atoms) :
    parse (Atom.listing atoms) = .ok script := by
  obtain ⟨lexemes, -, hread⟩ := bind_eq_ok_iff.mp hparse
  obtain ⟨statements, hread, hrun⟩ := bind_eq_ok_iff.mp hread
  obtain ⟨b, hrun, hbuild⟩ := bind_eq_ok_iff.mp hrun
  obtain ⟨hfailed, here, hdraft, hatoms⟩ := Builder.draft_of_build hbuild hflatten
  have hproper := Statement.isProper_of_read hread
  obtain ⟨-, before, written, hbefore, hwritten, heq⟩ :=
    Builder.gains_of_run hproper hrun hfailed hdraft
  cases hbefore
  cases heq
  rw [List.append_nil, List.reverse_reverse] at hatoms
  -- what is listed can be read back
  have hmade := (areMade_of_flatten hflatten (isMade_of_parse hparse)).1
  have hfresh := Statement.fresh_written statements hproper hwritten
  have hfilled :
      Atom.Everywhere (fun a => ∀ inner, .stream inner ∈ a.operands → inner ≠ []) atoms := by
    rw [hatoms]
    exact Atom.everywhere_assignFrom Atom.filled_atDepth 0 0 (fun a ha => (hfresh a ha).filled)
      (Atom.everywhere_nil _)
  have hcopies := Atom.read_listing fun a ha => ⟨hmade a ha, hlegible a ha, hfilled a ha⟩
  rw [show atoms.zipIdx 1 = (Atom.assignFrom 0 0 [] written).zipIdx 1 from hatoms ▸ rfl,
    Atom.map_statement_assignFrom] at hcopies
  -- and does what the statements did
  have hagain := Builder.run_copies hproper hrun hfailed hdraft hwritten
    (Statement.copies_zipIdx written 1)
  obtain ⟨again, hscan, hread⟩ := bind_eq_ok_iff.mp hcopies
  rw [parse, hscan, ok_bind, hread, ok_bind, hagain, ok_bind, hbuild]

/-- The atoms of an object with an action on `close`. -/
def buttonAtoms : List Atom :=
  let start := Signature.define "uni_start_stream" .uni 1 [.num] 0 (.opens .stream)
  let close := Signature.define "uni_end_stream" .uni 2 [] 0 (.closes .stream)
  [.mk start [] 0,
    .mk (.define "man_start_object" .man 0 [.named .objectType, Signature.title] 1 (.opens .object))
      [.int 6, .str "OK"] 1,
    .mk (.plain "act_set_criterion" .act 0 [.named .criterion]) [.int 4] 2,
    .mk (.plain "act_replace_action" .act 2 [.stream])
      [.stream [.mk start [] 3, .mk (.plain "async_exit" .async 1 []) [] 4, .mk close [] 3]] 2,
    .mk (.define "man_end_object" .man 2 [] 0 (.closes .object)) [] 1,
    .mk close [] 0]

/-- Their listing is source text for them. -/
theorem parse_listing_button : ∃ script, parse button = .ok script ∧
    script.flatten = .ok buttonAtoms ∧
    Atom.Everywhere (fun a => ∀ op ∈ a.operands, op.IsLegible) buttonAtoms ∧
    parse (Atom.listing buttonAtoms) = .ok script := by
  have hrun : (parse button >>= flatten).toOption.any
      (fun atoms => decide (atoms = buttonAtoms)) = true := by
    rw [parse, show button.toList = _ from toList_ofList_append]
    decide +kernel
  obtain ⟨atoms, hatoms, heq⟩ := exists_of_any hrun
  obtain rfl := of_decide_eq_true heq
  obtain ⟨script, hparse, hflatten⟩ := bind_eq_ok_iff.mp hatoms
  have htitle : ∀ c ∈ "OK".toList, Text.isLegible c = true := List.all_eq_true.mp (by decide)
  have hlegible : Atom.Everywhere (fun a => ∀ op ∈ a.operands, op.IsLegible) buttonAtoms := by
    simp [buttonAtoms, Atom.everywhere_cons, Atom.everywhere_nil, Atom.operands, Operand.IsLegible,
      htitle]
  exact ⟨script, hparse, hflatten, hlegible, parse_listing hparse hflatten hlegible⟩

/-- Text with a control character. -/
def bell : String :=
  "uni_start_stream man_append_data <\"\x01\"> uni_end_stream"

/-- An empty block of bytes. -/
def emptyBlock : String :=
  "uni_start_stream idb_append_data <\"\"> uni_end_stream"

/-- What is listed for them is source text for something else, or for nothing. -/
theorem listing_not_source :
    (∃ script atoms again, parse bell = .ok script ∧ script.flatten = .ok atoms ∧
      (parse (Atom.listing atoms) >>= flatten) = .ok again ∧ again ≠ atoms) ∧
    ∃ script atoms error, parse emptyBlock = .ok script ∧ script.flatten = .ok atoms ∧
      parse (Atom.listing atoms) = .error error := by
  constructor
  · have hrun : (do
        let atoms ← (← parse bell).flatten
        let again ← (← parse (Atom.listing atoms)).flatten
        return (atoms, again) : Except CompileError (List Atom × List Atom)).toOption.any
        (fun result => decide (result.2 ≠ result.1)) = true := by
      rw [parse, show bell.toList = _ from String.toList_ofList]
      decide +kernel
    obtain ⟨⟨atoms, again⟩, hrun, hne⟩ := exists_of_any hrun
    obtain ⟨script, hparse, hrun⟩ := bind_eq_ok_iff.mp hrun
    obtain ⟨atoms, hflatten, hrun⟩ := bind_eq_ok_iff.mp hrun
    obtain ⟨reread, hreread, hrun⟩ := bind_eq_ok_iff.mp hrun
    obtain ⟨again, hagain, heq⟩ := bind_eq_ok_iff.mp hrun
    cases heq
    refine ⟨script, atoms, again, hparse, hflatten, ?_, of_decide_eq_true hne⟩
    rw [hreread]
    exact hagain
  · have hrun : (parse emptyBlock >>= flatten).toOption.any
        (fun atoms => (parse (Atom.listing atoms)).toOption.isNone) = true := by
      rw [parse, show emptyBlock.toList = _ from String.toList_ofList]
      decide +kernel
    obtain ⟨atoms, hrun, hnone⟩ := exists_of_any hrun
    obtain ⟨script, hparse, hflatten⟩ := bind_eq_ok_iff.mp hrun
    obtain ⟨error, herror⟩ : ∃ error, parse (Atom.listing atoms) = .error error := by
      cases hresult : parse (Atom.listing atoms) with
      | error error => exact ⟨error, rfl⟩
      | ok again =>
        rw [hresult] at hnone
        cases hnone
    exact ⟨script, atoms, error, hparse, hflatten, herror⟩

end Script

end Switchboard
