import Switchboard.Proofs.Atom.Decoding
import Switchboard.Proofs.Gid
import Switchboard.Proofs.Script.Parsed
import Switchboard.Proofs.Source.Listing
import Switchboard.Proofs.Source.Reader

/-!
# Statements of listings, read as operands

Source text is read as atoms that the look-up gives back from their own names and operands, and
whose nested streams have atoms.  The statements that such atoms are written as are read as the same
atoms.

Main results:

* `Atom.operands_statement`: the statement of an atom has the operands of the atom.
* `Statement.fresh_plainAtoms`: the atoms of a nested stream are as described.
* `Atom.statement_atDepth`: depths do not count for statements.
-/

namespace Switchboard

/-- Whether the look-up gives an atom back, and the streams that it carries have atoms. -/
structure Atom.IsFresh (a : Atom) : Prop where
  make : Atom.make a.name a.operands = .ok a
  filled : ∀ inner, .stream inner ∈ a.operands → inner ≠ []

theorem Atom.IsFresh.isMade {a : Atom} (h : a.IsFresh) : a.IsMade := by
  obtain ⟨s, hname, hcheck, heq⟩ := make_eq_ok_iff.mp h.make
  refine ⟨a.name, a.operands, ?_⟩
  rw [h.make, heq]
  rfl

/-- What the look-up has just built is fresh if the streams given to it are. -/
theorem Atom.fresh_singleton_of_make {name : String} {given : List Operand} {a : Atom}
    (h : make name given = .ok a)
    (hgiven : ∀ inner, .stream inner ∈ given → inner ≠ [] ∧ Everywhere IsFresh inner) :
    Everywhere IsFresh [a] := by
  obtain ⟨s, hname, hcheck, rfl⟩ := make_eq_ok_iff.mp h
  have hmem (inner : List Atom) (hinner : .stream inner ∈ Operand.dropOmitted s.required given) :=
    hgiven inner (Operand.mem_of_mem_dropOmitted hinner)
  refine everywhere_cons.mpr ⟨⟨?_, fun inner hinner => (hmem inner hinner).1⟩,
    fun inner hinner => (hmem inner hinner).2, everywhere_nil _⟩
  refine make_eq_ok_iff.mpr ⟨s, ?_, ?_, ?_⟩
  · rw [Atom.name, signature, Signature.name_of_byName? hname, hname]
  · rw [operands, Operand.dropOmitted_idem]
    exact hcheck
  · rw [operands, Operand.dropOmitted_idem]

-- ---------------------------------------------------------------------------
-- Reading what has been written
-- ---------------------------------------------------------------------------

theorem readBytes_literals (atom : String) (line : Nat) (bytes : Bytes) :
    readBytes atom line (bytes.map fun b => .ofWord (byteLiteral b)) = .ok bytes := by
  unfold readBytes
  split
  · next content heq =>
    -- a word is no text
    obtain ⟨b, -, hword⟩ := List.mem_map.mp (heq ▸ List.mem_singleton_self (Lexeme.text content))
    unfold Lexeme.ofWord at hword
    split at hword <;> cases hword
  · next hnone =>
    clear hnone
    induction bytes with
    | nil => rfl
    | cons b bytes ih =>
      have hle : b.toUInt32 ≤ 0xFF := by
        rw [UInt32.le_iff_toNat_le, UInt8.toNat_toUInt32]
        exact Nat.le_of_lt_succ b.toNat_lt
      rw [List.map_cons, List.mapM_cons, ih, number_byteLiteral]
      simp only [if_pos hle, UInt8.toUInt8_toUInt32]
      rfl

theorem Atom.signature_statement (line : Nat) (a : Atom) :
    (a.statement line).signature = a.signature := by
  obtain ⟨s, ops, d⟩ := a
  rw [statement]
  rfl

mutual

/-- An argument is read as the operand that it was written for. -/
theorem Operand.operand_argument (line : Nat) :
    ∀ (op : Operand) {kind : FieldKind} {name : String} {index : Nat} (atom : String),
      kind.check name index op = .ok () →
      (∀ inner, .stream inner = op → Atom.Everywhere Atom.IsFresh inner) →
      (op.argument line kind).operand atom line kind = .ok op
  | .int v, kind, name, index, atom, hcheck, _ => by
    rw [Operand.argument, Argument.operand]
    have hread := readLexeme_number hcheck atom line
    cases kind <;> first | exact hread | cases hcheck
  | .str content, kind, name, index, atom, hcheck, _ => by
    rw [Operand.argument, Argument.operand]
    cases kind <;> first | rfl | cases hcheck
  | .raw bytes, kind, name, index, atom, hcheck, _ => by
    rw [Operand.argument, Argument.operand]
    cases kind with
    | raw =>
      rw [readLexemes, readBytes_literals]
      rfl
    | _ => cases hcheck
  | .gid gid, kind, name, index, atom, hcheck, _ => by
    rw [Operand.argument, Argument.operand]
    cases kind with
    | gid =>
      rw [gid.ofWord_chars]
      simp only [readLexemes, readLexeme, gid.parse?_text]
    | _ => cases hcheck
  | .stream atoms, kind, name, index, atom, hcheck, hinner => by
    rw [Operand.argument, Argument.operand,
      Atom.plainAtoms_statements line atoms (hinner atoms rfl)]
    rfl

/-- Arguments are read as the operands that they were written for. -/
theorem Operand.operands_arguments (line : Nat) :
    ∀ (ops : List Operand) {s : Signature} {index : Nat} {kinds : List FieldKind} (atom : String),
      Operand.Fills s index kinds ops →
      (∀ inner, .stream inner ∈ ops → Atom.Everywhere Atom.IsFresh inner) →
      Argument.operands atom line kinds (Operand.arguments line kinds ops) = .ok ops
  | [], s, index, kinds, atom, _, _ => by
    rw [Operand.arguments]
    · cases kinds <;> rw [Argument.operands] <;> rintro _ _ _ _ _ ⟨⟩
    · rintro _ _ _ _ _ ⟨⟩
  | op :: ops, s, index, kind :: kinds, atom, hfills, hinner => by
    have hop {index : Nat} (hcheck : kind.check s.name index op = .ok ()) :=
      Operand.operand_argument line op atom hcheck
        fun inner heq => hinner inner (heq ▸ List.mem_cons_self)
    rw [Operand.arguments, Argument.operands]
    cases hfills with
    | last width check optional =>
      rw [hop check, Operand.arguments, Argument.operands]
      · rfl
      · rintro _ _ _ _ ⟨⟩
      · rintro _ _ _ _ ⟨⟩
    | fixed width check rest =>
      rw [hop check, Operand.operands_arguments line ops atom rest
        fun inner hmem => hinner inner (List.mem_cons_of_mem _ hmem)]
      rfl

/-- The statement of an atom has the operands of the atom. -/
theorem Atom.operands_statement (line : Nat) :
    ∀ a : Atom, Atom.Everywhere Atom.IsFresh [a] → (a.statement line).operands = .ok a.operands
  | .mk s ops d, h => by
    obtain ⟨hfresh, hinner, -⟩ := Atom.everywhere_cons.mp h
    rw [Atom.statement, Statement.operands]
    exact Operand.operands_arguments line ops s.name (Operand.fills_of_isMade hfresh.isMade) hinner

/-- A nested stream is read as the atoms that it was written for. -/
theorem Atom.plainAtoms_statements (line : Nat) :
    ∀ atoms : List Atom, Atom.Everywhere Atom.IsFresh atoms →
      Statement.plainAtoms (Atom.statements line atoms) = .ok atoms
  | [], _ => by rw [Atom.statements, Statement.plainAtoms]
  | a :: atoms, h => by
    obtain ⟨hhere, hrest⟩ := Atom.everywhere_cons_iff.mp h
    obtain ⟨hfresh, -, -⟩ := Atom.everywhere_cons.mp hhere
    rw [Atom.statements, Statement.plainAtoms, Atom.operands_statement line a hhere, ok_bind,
      Atom.signature_statement, show Atom.make a.signature.name a.operands = .ok a from hfresh.make]
    dsimp only
    rw [Atom.plainAtoms_statements line atoms hrest]
    rfl

end

-- ---------------------------------------------------------------------------
-- What is read
-- ---------------------------------------------------------------------------

mutual

theorem Argument.fresh_operand :
    ∀ (arg : Argument) {atom : String} {line : Nat} {kind : FieldKind} {op : Operand},
      Argument.Suits kind arg → arg.operand atom line kind = .ok op →
      ∀ inner, .stream inner = op → inner ≠ [] ∧ Atom.Everywhere Atom.IsFresh inner
  | .literals lexemes, atom, line, kind, op, _, h, inner, heq => by
    rw [Argument.operand] at h
    subst heq
    exact absurd rfl (readLexemes_ne_stream h)
  | .stream statements, atom, line, kind, op, hsuits, h, inner, heq => by
    rw [Argument.operand] at h
    obtain ⟨atoms, hatoms, hstream⟩ := bind_eq_ok_iff.mp h
    cases hstream
    cases heq
    cases hsuits with
    | stream filled proper =>
      obtain ⟨hlength, hfresh⟩ := Statement.fresh_plainAtoms statements proper hatoms
      refine ⟨fun hnil => filled ?_, hfresh⟩
      rw [hnil] at hlength
      exact List.length_eq_zero_iff.mp hlength.symm

theorem Argument.fresh_operands :
    ∀ (args : List Argument) {atom : String} {line : Nat} {kinds : List FieldKind}
      {ops : List Operand},
      (∀ (i : Nat) (kind : FieldKind) (arg : Argument), kinds[i]? = some kind →
        args[i]? = some arg → Argument.Suits kind arg) →
      Argument.operands atom line kinds args = .ok ops →
      ∀ inner, .stream inner ∈ ops → inner ≠ [] ∧ Atom.Everywhere Atom.IsFresh inner
  | [], atom, line, kinds, ops, _, h, inner, hinner => by
    rw [Argument.operands] at h
    · cases h
      cases hinner
    · rintro _ _ _ _ _ ⟨⟩
  | arg :: args, atom, line, [], ops, _, h, inner, hinner => by
    rw [Argument.operands] at h
    · cases h
      cases hinner
    · rintro _ _ _ _ ⟨⟩
  | arg :: args, atom, line, kind :: kinds, ops, hsuits, h, inner, hinner => by
    rw [Argument.operands] at h
    obtain ⟨op, hop, h⟩ := bind_eq_ok_iff.mp h
    obtain ⟨rest, hrest, heq⟩ := bind_eq_ok_iff.mp h
    cases heq
    rcases List.mem_cons.mp hinner with heq | hmem
    · exact Argument.fresh_operand arg (hsuits 0 kind arg rfl rfl) hop inner heq
    · exact Argument.fresh_operands args (fun i k a hk ha => hsuits (i + 1) k a hk ha) hrest inner
        hmem

theorem Statement.fresh_operands :
    ∀ (st : Statement) {ops : List Operand}, st.IsProper → st.operands = .ok ops →
      ∀ inner, .stream inner ∈ ops → inner ≠ [] ∧ Atom.Everywhere Atom.IsFresh inner
  | .mk s line args, ops, hproper, h, inner, hinner => by
    rw [Statement.operands] at h
    cases hproper with
    | mk known takes =>
      cases takes with
      | mk count suits => exact Argument.fresh_operands args suits h inner hinner

/-- A nested stream is read as fresh atoms, one for each statement. -/
theorem Statement.fresh_plainAtoms :
    ∀ (statements : List Statement) {atoms : List Atom}, (∀ st ∈ statements, st.IsProper) →
      Statement.plainAtoms statements = .ok atoms →
      atoms.length = statements.length ∧ Atom.Everywhere Atom.IsFresh atoms
  | [], atoms, _, h => by
    unfold Statement.plainAtoms at h
    cases h
    exact ⟨rfl, Atom.everywhere_nil _⟩
  | st :: rest, atoms, hproper, h => by
    obtain ⟨hst, hrest⟩ := List.forall_mem_cons.mp hproper
    rw [Statement.plainAtoms] at h
    obtain ⟨ops, hops, h⟩ := bind_eq_ok_iff.mp h
    cases hmake : Atom.make st.signature.name ops with
    | error error =>
      rw [hmake] at h
      cases h
    | ok a =>
      rw [hmake] at h
      obtain ⟨more, hmore, heq⟩ := bind_eq_ok_iff.mp h
      cases heq
      have hfirst := Atom.fresh_singleton_of_make hmake (Statement.fresh_operands st hst hops)
      obtain ⟨hlength, hfresh⟩ := Statement.fresh_plainAtoms rest hrest hmore
      refine ⟨?_, Atom.everywhere_append.mpr ⟨hfirst, hfresh⟩⟩
      rw [List.length_cons, List.length_cons, hlength]

end

-- ---------------------------------------------------------------------------
-- Depths
-- ---------------------------------------------------------------------------

mutual

theorem Operand.argument_withDepths (line : Nat) (base : UInt16) (kind : FieldKind) :
    ∀ op : Operand, (op.withDepths base).argument line kind = op.argument line kind
  | .int _ | .str _ | .raw _ | .gid _ => rfl
  | .stream atoms => by
    rw [Operand.withDepths, Operand.argument, Operand.argument, Atom.statements_assignFrom]

theorem Operand.arguments_withDepths (line : Nat) (base : UInt16) :
    ∀ (kinds : List FieldKind) (ops : List Operand),
      Operand.arguments line kinds (Operand.withDepthsList base ops) =
        Operand.arguments line kinds ops
  | [], ops => by rw [Operand.arguments, Operand.arguments] <;> rintro _ _ _ _ ⟨⟩
  | kind :: kinds, [] => by rw [Operand.withDepthsList]
  | kind :: kinds, op :: ops => by
    rw [Operand.withDepthsList, Operand.arguments, Operand.arguments, Operand.argument_withDepths,
      Operand.arguments_withDepths]

/-- An atom is written as the same statement at any depth. -/
theorem Atom.statement_atDepth (line : Nat) (depth : UInt16) :
    ∀ a : Atom, (a.atDepth depth).statement line = a.statement line
  | .mk s ops old => by
    rw [Atom.atDepth, Atom.statement, Atom.statement, Operand.arguments_withDepths]

theorem Atom.statements_assignFrom (line : Nat) (base depth : UInt16) :
    ∀ atoms : List Atom,
      Atom.statements line (Atom.assignFrom base depth [] atoms) = Atom.statements line atoms
  | [] => rfl
  | a :: atoms => by
    rw [Atom.assignFrom_cons, Atom.statements, Atom.statements, Atom.statement_atDepth,
      Atom.statements_assignFrom]

end

/-- Statements one below the other are the same at any depths. -/
theorem Atom.map_statement_assignFrom (base depth : UInt16) (atoms : List Atom) (line : Nat) :
    ((assignFrom base depth [] atoms).zipIdx line).map (fun p => p.1.statement p.2) =
      (atoms.zipIdx line).map fun p => p.1.statement p.2 := by
  induction atoms generalizing depth line with
  | nil => rfl
  | cons a atoms ih =>
    rw [assignFrom_cons, List.zipIdx_cons, List.zipIdx_cons, List.map_cons, List.map_cons,
      statement_atDepth, ih]

end Switchboard
