import Mathlib.Data.List.DropRight
import Switchboard.Atom.Check
import Switchboard.Atom.Depth
import Switchboard.Proofs.Atom.Table
import Switchboard.Proofs.Except

/-!
# Atoms that were built by the look-up

`Atom.Within` reaches every atom of a stream, those in nested streams included.  A stream *is made*
if `Atom.make` built each of these atoms; the depth at which an atom stands does not count.

Main results:

* `Atom.isMade_iff`: what `Atom.make` gives is what passes the check of its signature and has no
  empty text at the end that could have been left out.
* `Operand.fills_of_isMade`: the operands of such an atom fill its fields in a way that the data
  alone tells them apart.
* `Atom.areMade_assignDepths`: counting depths does not change what is made.
-/

namespace Switchboard

-- ---------------------------------------------------------------------------
-- The atoms of a stream
-- ---------------------------------------------------------------------------

/-- An atom stands in a stream, or in a stream that an atom there carries, at whatever level. -/
inductive Atom.Within (a : Atom) : List Atom → Prop where
  | here {atoms : List Atom} (mem : a ∈ atoms) : Within a atoms
  | nested {atoms inner : List Atom} {b : Atom} (mem : b ∈ atoms)
      (carried : .stream inner ∈ b.operands) (within : Within a inner) : Within a atoms

namespace Atom

theorem Within.mono {a : Atom} {small large : List Atom} (h : a.Within small)
    (hsub : small ⊆ large) : a.Within large := by
  cases h with
  | here mem => exact .here (hsub mem)
  | nested mem carried within => exact .nested (hsub mem) carried within

theorem not_within_nil (a : Atom) : ¬a.Within [] := by
  rintro (mem | ⟨mem, -, -⟩) <;> cases mem

/-- Whether every atom of a stream, at every level, has a property. -/
def Everywhere (P : Atom → Prop) (atoms : List Atom) : Prop :=
  ∀ a : Atom, a.Within atoms → P a

theorem everywhere_nil (P : Atom → Prop) : Everywhere P [] :=
  fun a h => absurd h (not_within_nil a)

theorem everywhere_cons {P : Atom → Prop} {a : Atom} {atoms : List Atom} :
    Everywhere P (a :: atoms) ↔
      P a ∧ (∀ inner, .stream inner ∈ a.operands → Everywhere P inner) ∧ Everywhere P atoms := by
  constructor
  · intro h
    refine ⟨h a (.here (List.mem_cons_self ..)), ?_, ?_⟩
    · intro inner hinner b hb
      exact h b (.nested (List.mem_cons_self ..) hinner hb)
    · intro b hb
      exact h b (hb.mono (List.subset_cons_self ..))
  · rintro ⟨ha, hinner, hrest⟩ b hb
    cases hb with
    | here mem =>
      rcases List.mem_cons.mp mem with rfl | hmem
      · exact ha
      · exact hrest b (.here hmem)
    | nested mem carried within =>
      rcases List.mem_cons.mp mem with rfl | hmem
      · exact hinner _ carried b within
      · exact hrest b (.nested hmem carried within)

theorem everywhere_append {P : Atom → Prop} {left right : List Atom} :
    Everywhere P (left ++ right) ↔ Everywhere P left ∧ Everywhere P right := by
  induction left with
  | nil => simp [everywhere_nil]
  | cons a left ih =>
    rw [List.cons_append, everywhere_cons, everywhere_cons, ih]
    simp only [and_assoc]

theorem everywhere_cons_iff {P : Atom → Prop} {a : Atom} {atoms : List Atom} :
    Everywhere P (a :: atoms) ↔ Everywhere P [a] ∧ Everywhere P atoms :=
  @everywhere_append P [a] atoms

theorem everywhere_reverse {P : Atom → Prop} {atoms : List Atom} :
    Everywhere P atoms.reverse ↔ Everywhere P atoms := by
  induction atoms with
  | nil => rfl
  | cons a atoms ih =>
    rw [List.reverse_cons, everywhere_append, ih, and_comm, ← everywhere_append,
      List.singleton_append]

/-- Whether the look-up built the atom, apart from its depth and from the streams it carries. -/
def IsMade (a : Atom) : Prop :=
  ∃ (name : String) (given : List Operand), make name given = .ok (.mk a.signature a.operands 0)

/-- Whether the look-up built every atom of a stream, at every level. -/
def AreMade (atoms : List Atom) : Prop :=
  Everywhere IsMade atoms

end Atom

-- ---------------------------------------------------------------------------
-- What the look-up gives
-- ---------------------------------------------------------------------------

theorem Operand.dropOmitted_eq (required : Nat) (ops : List Operand) :
    dropOmitted required ops =
      ops.take required ++ (ops.drop required).rdropWhile (·.isEmptyText) := rfl

theorem Operand.mem_of_mem_dropOmitted {required : Nat} {ops : List Operand} {op : Operand}
    (h : op ∈ dropOmitted required ops) : op ∈ ops := by
  rw [dropOmitted_eq, List.mem_append] at h
  rcases h with htake | hdrop
  · exact List.mem_of_mem_take htake
  · exact List.mem_of_mem_drop ((List.rdropWhile_prefix _ _).mem hdrop)

/-- Dropping what may be omitted leaves nothing that may be omitted. -/
theorem Operand.dropOmitted_idem (required : Nat) (ops : List Operand) :
    dropOmitted required (dropOmitted required ops) = dropOmitted required ops := by
  rcases Nat.lt_or_ge ops.length required with hlt | hge
  · have hdrop : ops.drop required = [] := List.drop_eq_nil_of_le (Nat.le_of_lt hlt)
    have hself : dropOmitted required ops = ops := by
      rw [dropOmitted_eq, hdrop, List.rdropWhile_nil, List.append_nil,
        List.take_of_length_le (Nat.le_of_lt hlt)]
    rw [hself, hself]
  · have hlen : (ops.take required).length = required := by
      rw [List.length_take]; omega
    rw [dropOmitted_eq, dropOmitted_eq, List.take_left' hlen, List.drop_left' hlen,
      List.rdropWhile_idempotent]

namespace Atom

theorem make_eq_ok_iff {name : String} {given : List Operand} {a : Atom} :
    make name given = .ok a ↔ ∃ s, Signature.byName? name = some s ∧
      s.check (Operand.dropOmitted s.required given) = .ok () ∧
      a = .mk s (Operand.dropOmitted s.required given) 0 := by
  unfold make
  cases hname : Signature.byName? name with
  | none => simp
  | some s =>
    dsimp only
    cases hcheck : s.check (Operand.dropOmitted s.required given) with
    | error fault => simp [hcheck]
    | ok _ =>
      rw [Except.ok.injEq]
      simp [hcheck, eq_comm]

/-- What the look-up gives: operands that pass the check and end with nothing that may be
omitted. -/
theorem isMade_iff {s : Signature} {ops : List Operand} {depth : UInt16} :
    (Atom.mk s ops depth).IsMade ↔ Signature.byName? s.name = some s ∧ s.check ops = .ok () ∧
      Operand.dropOmitted s.required ops = ops := by
  constructor
  · rintro ⟨name, given, h⟩
    obtain ⟨s', hname, hcheck, heq⟩ := make_eq_ok_iff.mp h
    -- the look-up has dropped what may be omitted, so nothing is left to drop
    injection heq with hs hops hdepth
    simp only [signature, operands] at hs hops
    subst hs
    rw [← hops] at hcheck
    refine ⟨?_, hcheck, ?_⟩
    · rw [Signature.name_of_byName? hname, hname]
    · rw [hops, Operand.dropOmitted_idem]
  -- conversely, the atom comes from its own operands under its own name
  · rintro ⟨hname, hcheck, hdrop⟩
    refine ⟨s.name, ops, make_eq_ok_iff.mpr ⟨s, hname, ?_, ?_⟩⟩
    · rw [hdrop]; exact hcheck
    · rw [hdrop]; rfl

/-- An atom that the look-up has just built makes a stream if the streams given to it do. -/
theorem areMade_singleton_of_make {name : String} {given : List Operand} {a : Atom}
    (h : make name given = .ok a) (hgiven : ∀ inner, .stream inner ∈ given → AreMade inner) :
    AreMade [a] := by
  obtain ⟨s, hname, hcheck, rfl⟩ := make_eq_ok_iff.mp h
  refine everywhere_cons.mpr ⟨⟨name, given, h⟩, ?_, everywhere_nil _⟩
  intro inner hinner
  exact hgiven inner (Operand.mem_of_mem_dropOmitted hinner)

end Atom

-- ---------------------------------------------------------------------------
-- Filling fields
-- ---------------------------------------------------------------------------

/-- Operands fill the fields of a signature from position `index` on in a way that the data alone
tells apart: an operand of fixed width may be followed by others, any other stands last, and what
may be omitted is neither empty nor a stream. -/
inductive Operand.Fills (s : Signature) : Nat → List FieldKind → List Operand → Prop where
  | nil {index : Nat} {kinds : List FieldKind} (omitted : kinds = [] ∨ s.required ≤ index) :
      Fills s index kinds []
  | fixed {index : Nat} {kind : FieldKind} {kinds : List FieldKind} {op : Operand}
      {ops : List Operand} (width : kind.isVariable = false)
      (check : kind.check s.name (index + 1) op = .ok ()) (rest : Fills s (index + 1) kinds ops) :
      Fills s index (kind :: kinds) (op :: ops)
  | last {index : Nat} {kind : FieldKind} {op : Operand} (width : kind.isVariable = true)
      (check : kind.check s.name (index + 1) op = .ok ())
      (optional : s.required ≤ index → op.isEmptyText = false ∧ kind ≠ .stream) :
      Fills s index [kind] [op]

namespace Operand

/-- Operands that pass the check fill the fields, if the fields follow each other as they do in the
instruction set. -/
theorem fills_of_checkFields {s : Signature} {index : Nat} {kinds : List FieldKind}
    {ops : List Operand} (hfixed : ∀ kind ∈ kinds.dropLast, kind.isVariable = false)
    (hoptional : ∀ kind ∈ kinds.drop (s.required - index), kind ≠ .stream)
    (hcheck : Signature.checkFields s.name (index + 1) kinds ops = .ok ())
    (hmin : s.required ≤ index + ops.length) (hmax : ops.length ≤ kinds.length)
    (hlast : s.required < index + ops.length → ∀ op, ops.getLast? = some op →
      op.isEmptyText = false) :
    Fills s index kinds ops := by
  -- induction on the kinds, with the position of the next field along
  induction kinds generalizing index ops with
  | nil =>
    have hops : ops = [] := List.eq_nil_of_length_eq_zero (by simpa using hmax)
    subst hops
    exact .nil (.inl rfl)
  | cons kind kinds ih =>
    cases ops with
    -- no operand is left, and those required have been met
    | nil => exact .nil (.inr (by simpa using hmin))
    | cons op ops =>
      rw [List.length_cons] at hmin hmax hlast
      rw [Signature.checkFields] at hcheck
      obtain ⟨_, hop, hrest⟩ := bind_eq_ok_iff.mp hcheck
      cases hwidth : kind.isVariable with
      | false =>
        -- a field of fixed width: the three conditions are handed on to the fields behind it
        refine .fixed hwidth hop (ih ?_ ?_ hrest (by omega) (by simpa using hmax) ?_)
        · intro k hk
          refine hfixed k ?_
          cases kinds with
          | nil => cases hk
          | cons next kinds => exact List.mem_cons_of_mem _ hk
        · intro k hk
          refine hoptional k ?_
          rcases Nat.lt_or_ge index s.required with hlt | hge
          · rw [show s.required - index = s.required - (index + 1) + 1 by omega]
            exact hk
          · rw [show s.required - index = 0 by omega, List.drop_zero]
            exact List.mem_cons_of_mem _ (List.mem_of_mem_drop hk)
        · intro hlt last hmem
          refine hlast (by omega) last ?_
          cases ops with
          | nil => cases hmem
          | cons next ops => exact hmem
      | true =>
        -- a field that takes the rest of the data is the last one
        have hkinds : kinds = [] := by
          cases kinds with
          | nil => rfl
          | cons next kinds =>
            rw [hfixed kind (List.mem_cons_self ..)] at hwidth
            cases hwidth
        subst hkinds
        have hops : ops = [] := List.eq_nil_of_length_eq_zero (by simpa using hmax)
        subst hops
        refine .last hwidth hop fun hindex => ⟨?_, ?_⟩
        · exact hlast (by simp; omega) op rfl
        · refine hoptional kind ?_
          rw [show s.required - index = 0 by omega]
          exact List.mem_cons_self ..

/-- The operands of an atom that the look-up built fill its fields. -/
theorem fills_of_isMade {s : Signature} {ops : List Operand} {depth : UInt16}
    (h : (Atom.mk s ops depth).IsMade) : Fills s 0 s.fields ops := by
  obtain ⟨hname, hcheck, hdrop⟩ := Atom.isMade_iff.mp h
  have hregular := Signature.isRegular_of_mem (Signature.mem_of_byName? hname)
  unfold Signature.check at hcheck
  split at hcheck
  · cases hcheck
  · next hcount =>
    refine fills_of_checkFields hregular.fixed hregular.optional hcheck (by omega) (by omega) ?_
    intro hlt op hop
    rw [dropOmitted_eq] at hdrop
    -- nothing could be dropped, so the last operand beyond the required ones is not empty
    have hself : (ops.drop s.required).rdropWhile (·.isEmptyText) = ops.drop s.required := by
      have hsplit : ops.take s.required ++ (ops.drop s.required).rdropWhile (·.isEmptyText) =
          ops.take s.required ++ ops.drop s.required := by
        rw [hdrop, List.take_append_drop]
      exact List.append_cancel_left hsplit
    have hne : ops.drop s.required ≠ [] := by
      intro hnil
      rw [List.drop_eq_nil_iff] at hnil
      omega
    have hlast := List.rdropWhile_eq_self_iff.mp hself hne
    rw [List.getLast_drop] at hlast
    rw [List.getLast?_eq_some_getLast (by rintro rfl; simp at hne), Option.some.injEq] at hop
    rw [hop] at hlast
    simpa using hlast

end Operand

-- ---------------------------------------------------------------------------
-- Depths do not count
-- ---------------------------------------------------------------------------

theorem Operand.withDepthsList_eq_map (base : UInt16) (ops : List Operand) :
    withDepthsList base ops = ops.map (·.withDepths base) := by
  induction ops with
  | nil => rfl
  | cons op ops ih => rw [withDepthsList, ih, List.map_cons]

theorem Operand.isEmptyText_withDepths (base : UInt16) (op : Operand) :
    (op.withDepths base).isEmptyText = op.isEmptyText := by
  cases op <;> rfl

theorem FieldKind.check_withDepths (kind : FieldKind) (atom : String) (index : Nat)
    (base : UInt16) (op : Operand) :
    kind.check atom index (op.withDepths base) = kind.check atom index op := by
  cases op <;> cases kind <;> rfl

theorem Signature.check_withDepths (s : Signature) (base : UInt16) (ops : List Operand) :
    s.check (ops.map (·.withDepths base)) = s.check ops := by
  -- each field looks at its own operand, and no check looks at a depth
  have hfields : ∀ (kinds : List FieldKind) (index : Nat) (ops : List Operand),
      checkFields s.name index kinds (ops.map (·.withDepths base)) =
        checkFields s.name index kinds ops := by
    intro kinds
    induction kinds with
    | nil => intro index ops; cases ops <;> rfl
    | cons kind kinds ih =>
      intro index ops
      cases ops with
      | nil => rfl
      | cons op ops =>
        rw [List.map_cons, checkFields, checkFields, FieldKind.check_withDepths, ih]
  rw [check, check, List.length_map, hfields]

theorem Atom.isMade_atDepth {a : Atom} (h : a.IsMade) (depth : UInt16) :
    (a.atDepth depth).IsMade := by
  obtain ⟨s, ops, old⟩ := a
  obtain ⟨hname, hcheck, hdrop⟩ := isMade_iff.mp h
  rw [atDepth, Operand.withDepthsList_eq_map, isMade_iff, Signature.check_withDepths]
  refine ⟨hname, hcheck, ?_⟩
  -- a depth does not make a text empty, so the same operands are dropped
  have hempty : ((·.isEmptyText) ∘ fun op : Operand => op.withDepths (depth + 1)) =
      (·.isEmptyText) := funext fun op => Operand.isEmptyText_withDepths (depth + 1) op
  rw [Operand.dropOmitted_eq] at hdrop ⊢
  rw [← List.map_take, ← List.map_drop, List.rdropWhile, ← List.map_reverse, List.dropWhile_map,
    hempty, ← List.map_reverse, ← List.map_append]
  exact congrArg _ hdrop

mutual

theorem Operand.everywhere_withDepths {P : Atom → Prop}
    (hdepth : ∀ (a : Atom) (depth : UInt16), P a → P (a.atDepth depth)) (base : UInt16) :
    ∀ {ops : List Operand}, (∀ inner, .stream inner ∈ ops → Atom.Everywhere P inner) →
    ∀ inner, .stream inner ∈ Operand.withDepthsList base ops → Atom.Everywhere P inner
  | [], _, inner, hinner => by cases hinner
  | op :: ops, h, inner, hinner => by
    rw [Operand.withDepthsList] at hinner
    rcases List.mem_cons.mp hinner with heq | hmem
    · cases op with
      | stream atoms =>
        rw [Operand.withDepths, Operand.stream.injEq] at heq
        subst heq
        exact Atom.everywhere_assignFrom hdepth base base (h atoms (List.mem_cons_self ..))
          (Atom.everywhere_nil _)
      | int | str | raw | gid => cases heq
    · exact Operand.everywhere_withDepths hdepth base
        (fun i hi => h i (List.mem_cons_of_mem _ hi)) inner hmem

/-- A property that does not depend on depths is kept when depths are counted. -/
theorem Atom.everywhere_assignFrom {P : Atom → Prop}
    (hdepth : ∀ (a : Atom) (depth : UInt16), P a → P (a.atDepth depth)) (base depth : UInt16) :
    ∀ {atoms done : List Atom}, Atom.Everywhere P atoms → Atom.Everywhere P done →
    Atom.Everywhere P (Atom.assignFrom base depth done atoms)
  | [], done, _, hdone => by
    rw [Atom.assignFrom]
    exact Atom.everywhere_reverse.mpr hdone
  | .mk s ops old :: atoms, done, h, hdone => by
    obtain ⟨hhere, hinner, hatoms⟩ := Atom.everywhere_cons.mp h
    rw [Atom.assignFrom]
    refine Atom.everywhere_assignFrom hdepth base _ hatoms
      (Atom.everywhere_cons.mpr ⟨?_, ?_, hdone⟩)
    · exact hdepth _ _ hhere
    · exact Operand.everywhere_withDepths hdepth _ hinner

end

/-- Counting depths does not change what is made. -/
theorem Atom.areMade_assignDepths {base : UInt16} {atoms : List Atom} (h : AreMade atoms) :
    AreMade (assignDepths base atoms) :=
  everywhere_assignFrom (fun _ depth ha => isMade_atDepth ha depth) base base h (everywhere_nil _)

end Switchboard
