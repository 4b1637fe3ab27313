import Switchboard.Proofs.Atom.Contract
import Switchboard.Proofs.Atom.Levels

/-!
# Depths and the levels they count

The *level* of an atom is what its depth ought to be: the base of its stream and the scopes open around
it, without a bound.  A closer where no scope is open closes nothing.  Depths have sixteen bits, so a
depth that is counted beyond 65535 starts again at zero.

Main results:

* `Atom.HasLevel.toNat_depth`: where no more than 65535 levels are counted, depths are levels.
* `Atom.assignDepths_of_decodeStream`: the reader counts depths as they are assigned.
* `Atom.nesting_of_decodeStream`: every level takes three bytes on the wire, so only input of 196608
  bytes and more has too many.
* `Atom.depths_are_levels`: depths are levels, for the streams that are assigned depths and for those that
  are read.
-/

namespace Switchboard

-- ---------------------------------------------------------------------------
-- Levels
-- ---------------------------------------------------------------------------

/-- An atom has a level in the rest of a stream, or in a stream that an atom there carries.  The stream
has the given base, and `opened` scopes are open in it so far. -/
inductive Atom.HasLevel (a : Atom) : (base opened : ℕ) → List Atom → (level : ℕ) → Prop where
  | here {base opened : ℕ} {atoms : List Atom} :
      HasLevel a base opened (a :: atoms) (base + a.effect.levelAt opened)
  | later {base opened level : ℕ} {b : Atom} {atoms : List Atom}
      (behind : HasLevel a base (b.effect.levelAfter (b.effect.levelAt opened)) atoms level) :
      HasLevel a base opened (b :: atoms) level
  | inside {base opened level : ℕ} {b : Atom} {inner atoms : List Atom}
      (carried : .stream inner ∈ b.operands)
      (nested : HasLevel a (base + b.effect.levelAt opened + 1) 0 inner level) :
      HasLevel a base opened (b :: atoms) level

namespace ScopeEffect

theorem levelAt_le (effect : ScopeEffect) (opened : ℕ) : effect.levelAt opened ≤ opened := by
  unfold levelAt
  split
  · exact Nat.sub_le _ _
  · exact Nat.le_refl _

theorem levelAfter_le (effect : ScopeEffect) (level : ℕ) : effect.levelAfter level ≤ level + 1 := by
  unfold levelAfter
  split
  · exact Nat.le_refl _
  · exact Nat.le_succ _

/-- A closer stays at the base where no scope is open. -/
theorem depthAt_ofNat_add (effect : ScopeEffect) {d opened : ℕ} (h : d + opened < 65536) :
    effect.depthAt (.ofNat d) (.ofNat (d + opened)) = .ofNat (d + effect.levelAt opened) := by
  by_cases hzero : effect.leaves = true ∧ opened = 0 ∧ 0 < d
  · obtain ⟨hleaves, rfl, hpos⟩ := hzero
    -- the base is more than one less than itself
    have hd : (UInt16.ofNat d).toNat = d := UInt16.toNat_ofNat_of_lt' h
    have hpred : (UInt16.ofNat d - 1).toNat = d - 1 := by
      rw [UInt16.toNat_sub_of_le _ _ (by rw [UInt16.le_iff_toNat_le, hd]; exact hpos), hd]
      rfl
    have hne : ¬UInt16.ofNat d = 0 := by
      rw [← UInt16.toNat_inj, hd]
      exact hpos.ne'
    rw [depthAt, levelAt, if_pos hleaves, if_pos hleaves, Nat.zero_sub, Nat.add_zero, if_neg hne]
    refine if_neg ?_
    rw [UInt16.le_iff_toNat_le, hpred, hd]
    omega
  · have hlevel : effect.levelAt (d + opened) = d + effect.levelAt opened := by
      unfold levelAt
      split
      · next hleaves =>
        have hopen : 0 < opened ∨ d = 0 := by
          by_contra hnone
          exact hzero ⟨hleaves, by omega, by omega⟩
        omega
      · rfl
    rw [← hlevel]
    refine depthAt_ofNat effect h ?_
    rw [UInt16.toNat_ofNat_of_lt' (Nat.lt_of_add_right_lt h), hlevel]
    exact Nat.le_add_right d _

end ScopeEffect

-- ---------------------------------------------------------------------------
-- Depths that are counted
-- ---------------------------------------------------------------------------

mutual

theorem Operand.nestingList_withDepths (base : UInt16) :
    ∀ ops : List Operand,
      Operand.nestingList (Operand.withDepthsList base ops) = Operand.nestingList ops
  | [] => rfl
  | op :: ops => by
    have hop : (op.withDepths base).nesting = op.nesting := by
      cases op with
      | stream atoms =>
        rw [Operand.withDepths, Operand.nesting, Operand.nesting, Atom.nestingFrom_assignFrom]
      | int | str | raw | gid => rfl
    rw [Operand.withDepthsList, Operand.nestingList, Operand.nestingList, hop,
      Operand.nestingList_withDepths base ops]

/-- How deep a stream goes does not depend on its depths. -/
theorem Atom.nestingFrom_assignFrom (base depth : UInt16) :
    ∀ (atoms : List Atom) (opened : ℕ),
      Atom.nestingFrom opened (Atom.assignFrom base depth [] atoms) = Atom.nestingFrom opened atoms
  | [], _ => rfl
  | .mk s ops old :: atoms, opened => by
    rw [Atom.assignFrom_cons, Atom.nestingFrom, Atom.nestingFrom, Atom.effect_atDepth,
      Atom.nestingFrom_assignFrom base _ atoms, Atom.atDepth, Atom.nesting, Atom.nesting,
      Operand.nestingList_withDepths]

end

theorem Operand.nesting_le_of_mem {op : Operand} {ops : List Operand} (h : op ∈ ops) :
    op.nesting ≤ nestingList ops := by
  induction ops with
  | nil => cases h
  | cons first ops ih =>
    rw [nestingList]
    rcases List.mem_cons.mp h with rfl | hmem
    · exact Nat.le_max_left _ _
    · exact (ih hmem).trans (Nat.le_max_right _ _)

/-- Whether the rest of a stream, behind `opened` open scopes, has the depths that are counted for it, and
no more than 65535 levels are counted. -/
structure Atom.IsCounted (base opened : ℕ) (atoms : List Atom) : Prop where
  depths : assignFrom (.ofNat base) (.ofNat (base + opened)) [] atoms = atoms
  nesting : base + nestingFrom opened atoms < 65536

namespace Atom

variable {base opened level : ℕ} {a : Atom} {atoms : List Atom}

/-- The first atom has the depth of its level, the streams that it carries start one level deeper, and the
count goes on behind it. -/
theorem IsCounted.of_cons (h : IsCounted base opened (a :: atoms)) :
    a.depth.toNat = base + a.effect.levelAt opened ∧
      (∀ inner, .stream inner ∈ a.operands →
        IsCounted (base + a.effect.levelAt opened + 1) 0 inner) ∧
      IsCounted base (a.effect.levelAfter (a.effect.levelAt opened)) atoms := by
  obtain ⟨hdepths, hnesting⟩ := h
  obtain ⟨s, ops, depth⟩ := a
  rw [nestingFrom, Atom.nesting] at hnesting
  rw [assignFrom_cons, ScopeEffect.depthAt_ofNat_add _ (by omega), ScopeEffect.depthAfter_ofNat,
    ScopeEffect.levelAfter_add] at hdepths
  obtain ⟨hfirst, hbehind⟩ := List.cons.inj hdepths
  obtain ⟨-, hops, hdepth⟩ := Atom.mk.inj hfirst
  refine ⟨?_, fun inner hinner => ⟨?_, ?_⟩, hbehind, by omega⟩
  · rw [← hdepth]
    exact UInt16.toNat_ofNat_of_lt'
      (show base + (Atom.mk s ops depth).effect.levelAt opened < 65536 by omega)
  · -- the operands are those with counted depths, one by one
    rw [Operand.withDepthsList_eq_map] at hops
    have hstream := List.map_eq_map_iff.mp (hops.trans (List.map_id ops).symm) _ hinner
    dsimp only [id] at hstream
    rw [Operand.withDepths, Operand.stream.injEq] at hstream
    rw [Nat.add_zero, UInt16.ofNat_add _ 1]
    exact hstream
  · have hinnerNesting : (Operand.stream inner).nesting ≤ Operand.nestingList ops :=
      Operand.nesting_le_of_mem hinner
    rw [Operand.nesting] at hinnerNesting
    omega

/-- Depths that are assigned are counted. -/
theorem isCounted_assignDepths {base : UInt16} (h : base.toNat + nestingFrom 0 atoms < 65536) :
    IsCounted base.toNat 0 (assignDepths base atoms) := by
  refine ⟨?_, ?_⟩
  · rw [Nat.add_zero, UInt16.ofNat_toNat]
    exact assignDepths_idem base atoms
  · rw [assignDepths, nestingFrom_assignFrom]
    exact h

/-- Depths that are counted are levels. -/
theorem HasLevel.toNat_depth (h : a.HasLevel base opened atoms level)
    (hcounted : IsCounted base opened atoms) : a.depth.toNat = level := by
  induction h with
  | here => exact hcounted.of_cons.1
  | later _ ih => exact ih hcounted.of_cons.2.2
  | inside carried _ ih => exact ih (hcounted.of_cons.2.1 _ carried)

end Atom

-- ---------------------------------------------------------------------------
-- Depths that are read
-- ---------------------------------------------------------------------------

mutual

theorem Operand.Spells.withDepths {s : Signature} {inner : UInt16} :
    ∀ {index : Nat} {kinds : List FieldKind} {data : Bytes} {ops : List Operand},
      Operand.Spells s inner index kinds data ops → Operand.withDepthsList inner ops = ops
  | _, _, _, _, .nil | _, _, _, _, .omitted _ => rfl
  | _, _, _, _, @Operand.Spells.plain _ _ _ _ _ _ _ op _ _ _ read later => by
    have hop : op.withDepths inner = op := by
      cases op with
      | stream atoms => exact absurd rfl (FieldKind.ne_stream_of_decodePlain read atoms)
      | int | str | raw | gid => rfl
    rw [Operand.withDepthsList, hop, Operand.Spells.withDepths later]
  | _, _, _, _, .stream _ nested later => by
    rw [Operand.withDepthsList, Operand.withDepths, Atom.Spells.assignFrom nested,
      Operand.Spells.withDepths later]

theorem Atom.Spells.assignFrom {base : UInt16} :
    ∀ {depth : UInt16} {bytes : Bytes} {atoms : List Atom}, Atom.Spells base depth bytes atoms →
      Atom.assignFrom base depth [] atoms = atoms
  | _, _, _, .nil => rfl
  | _, _, _, .cons _ _ _ operands later => by
    rw [Atom.assignFrom_cons, Atom.atDepth]
    dsimp only [Atom.effect, Atom.signature]
    rw [Operand.Spells.withDepths operands, Atom.Spells.assignFrom later]

end

/-- The reader counts depths as they are assigned. -/
theorem Atom.assignDepths_of_decodeStream {bytes : Bytes} {atoms : List Atom}
    (h : decodeStream bytes = .ok atoms) : assignDepths 0 atoms = atoms :=
  (decodeStream_eq_ok_iff.mp h).assignFrom

mutual

theorem Operand.Spells.nesting {s : Signature} {inner : UInt16} :
    ∀ {index : Nat} {kinds : List FieldKind} {data : Bytes} {ops : List Operand},
      Operand.Spells s inner index kinds data ops →
      3 * Operand.nestingList ops ≤ data.length + 3
  | _, _, _, _, .nil | _, _, _, _, .omitted _ => Nat.zero_le _
  | _, _, _, _, @Operand.Spells.plain _ _ _ _ _ _ _ op _ _ _ read later => by
    have hop : op.nesting = 0 := by
      cases op with
      | stream atoms => exact absurd rfl (FieldKind.ne_stream_of_decodePlain read atoms)
      | int | str | raw | gid => rfl
    have hlater := Operand.Spells.nesting later
    have hrest := FieldKind.length_decodePlain read
    rw [Operand.nestingList, hop, Nat.zero_max]
    omega
  | _, _, _, _, .stream _ nested later => by
    have hnested := Atom.Spells.nestingFrom nested 0
    have hlater := Operand.Spells.nesting later
    rw [Operand.nestingList, Operand.nesting]
    rw [List.length_nil] at hlater
    omega

/-- A level takes the header of an atom, which has three bytes or four. -/
theorem Atom.Spells.nestingFrom {base : UInt16} :
    ∀ {depth : UInt16} {bytes : Bytes} {atoms : List Atom}, Atom.Spells base depth bytes atoms →
      ∀ opened : ℕ, 3 * Atom.nestingFrom opened atoms ≤ 3 * opened + bytes.length
  | _, _, _, .nil, opened => Nat.le_add_right _ _
  | _, _, _, @Atom.Spells.cons _ _ s _ _ _ _ ops atoms split enough _ operands later, opened => by
    obtain ⟨hheader, hlength⟩ := length_splitHeader? split
    have hoperands := Operand.Spells.nesting operands
    have hlater := Atom.Spells.nestingFrom later
      (s.effect.levelAfter (s.effect.levelAt opened))
    have hat := s.effect.levelAt_le opened
    have hafter := s.effect.levelAfter_le (s.effect.levelAt opened)
    rw [List.length_take, Nat.min_eq_left enough] at hoperands
    rw [List.length_drop] at hlater
    rw [Atom.nestingFrom, Atom.nesting]
    dsimp only [Atom.effect, Atom.signature]
    omega

end

/-- Every level takes three bytes at least. -/
theorem Atom.nesting_of_decodeStream {bytes : Bytes} {atoms : List Atom}
    (h : decodeStream bytes = .ok atoms) : 3 * nestingFrom 0 atoms ≤ bytes.length := by
  have hnesting := (decodeStream_eq_ok_iff.mp h).nestingFrom 0
  rwa [Nat.mul_zero, Nat.zero_add] at hnesting

-- ---------------------------------------------------------------------------
-- Depths are levels
-- ---------------------------------------------------------------------------

/-- In a stream that is assigned depths, and in every stream that is read, each atom has the depth of its
level: the base of its stream and the scopes open around it, closers with nothing to close passed over.
This holds unless more than 65535 levels are counted, and there are no more levels than a third of the
bytes that are read. -/
theorem Atom.depths_are_levels (base : UInt16) (atoms : List Atom) :
    (base.toNat + nestingFrom 0 atoms < 65536 →
      ∀ (a : Atom) (level : ℕ), a.HasLevel base.toNat 0 (assignDepths base atoms) level →
        a.depth.toNat = level) ∧
    ∀ bytes : Bytes, decodeStream bytes = .ok atoms →
      (nestingFrom 0 atoms < 65536 →
        ∀ (a : Atom) (level : ℕ), a.HasLevel 0 0 atoms level → a.depth.toNat = level) ∧
      3 * nestingFrom 0 atoms ≤ bytes.length := by
  refine ⟨fun hdeep a level h => h.toNat_depth (isCounted_assignDepths hdeep),
    fun bytes hread => ⟨fun hdeep a level h => ?_, nesting_of_decodeStream hread⟩⟩
  refine h.toNat_depth ⟨?_, ?_⟩
  · exact assignDepths_of_decodeStream hread
  · rwa [Nat.zero_add]

/-- A closer with nothing to close, an opener, and an action that carries the same two and a third atom:
that one is three levels deep, wherever the stream has its base. -/
theorem Atom.depths_are_levels_carried :
    let opener (depth : UInt16) : Atom :=
      .mk (.define "uni_start_stream" .uni 1 [.num] 0 (.opens .stream)) [] depth
    let closer (depth : UInt16) : Atom :=
      .mk (.define "uni_end_stream" .uni 2 [] 0 (.closes .stream)) [] depth
    let wait (depth : UInt16) : Atom := .mk (.plain "uni_wait_off" .uni 10 []) [] depth
    let action (inner : List Atom) (depth : UInt16) : Atom :=
      .mk (.plain "act_replace_action" .act 2 [.stream]) [.stream inner] depth
    let bytes : Bytes := [0, 2, 0, 0, 1, 0, 2, 2, 9, 0, 2, 0, 0, 1, 0, 0, 10, 0]
    let atoms : List Atom := [closer 0, opener 0, action [closer 2, opener 2, wait 3] 1]
    decodeStream bytes = .ok atoms ∧ nestingFrom 0 atoms < 65536 ∧ (wait 3).HasLevel 0 0 atoms 3 ∧
      (wait 3).depth.toNat = 3 ∧ 3 * nestingFrom 0 atoms ≤ bytes.length ∧
      (65530 : UInt16).toNat + nestingFrom 0 atoms < 65536 ∧
      (wait 65533).HasLevel (65530 : UInt16).toNat 0 (assignDepths 65530 atoms) 65533 ∧
      (wait 65533).depth.toNat = 65533 := by
  intro opener closer wait action bytes atoms
  have hread : decodeStream bytes = .ok atoms := by
    cbv
  have hassigned : assignDepths 65530 atoms =
      [closer 65530, opener 65530, action [closer 65532, opener 65532, wait 65533] 65531] := by
    cbv
  have hdeep : nestingFrom 0 atoms < 65536 := by
    decide
  have hhigh : (65530 : UInt16).toNat + nestingFrom 0 atoms < 65536 := by
    decide
  have hlevel : (wait 3).HasLevel 0 0 atoms 3 :=
    .later (.later (.inside List.mem_cons_self (.later (.later .here))))
  have hlevelHigh : (wait 65533).HasLevel (65530 : UInt16).toNat 0 (assignDepths 65530 atoms) 65533 := by
    rw [hassigned]
    exact .later (.later (.inside List.mem_cons_self (.later (.later .here))))
  obtain ⟨hassigned, hdecoded⟩ := depths_are_levels 65530 atoms
  obtain ⟨hdepths, hlength⟩ := hdecoded bytes hread
  exact ⟨hread, hdeep, hlevel, hdepths hdeep _ _ hlevel, hlength, hhigh, hlevelHigh,
    hassigned hhigh _ _ hlevelHigh⟩

/-- Behind `n` openers the level is `n`, and the depth is what sixteen bits hold of it. -/
theorem Atom.exists_behind_openers (n opened : ℕ) :
    ∃ atoms, Spells 0 (.ofNat opened) ((List.replicate n [0, 1, 0]).flatten ++ [0, 10, 0]) atoms ∧
      (Atom.mk (.plain "uni_wait_off" .uni 10 []) [] (.ofNat (opened + n))).HasLevel 0 opened atoms
        (opened + n) := by
  induction n generalizing opened with
  | zero =>
    refine ⟨[.mk (.plain "uni_wait_off" .uni 10 []) [] (.ofNat opened)], ?_, ?_⟩
    · exact @Atom.Spells.cons _ _ _ _ [] _ 0 [] [] rfl (Nat.le_refl _) rfl .nil .nil
    · have hhere : (Atom.mk (.plain "uni_wait_off" .uni 10 []) [] (.ofNat opened)).HasLevel 0 opened
          [.mk (.plain "uni_wait_off" .uni 10 []) [] (.ofNat opened)] (0 + opened) := .here
      rwa [Nat.zero_add] at hhere
  | succ n ih =>
    obtain ⟨atoms, hspells, hlevel⟩ := ih (opened + 1)
    have hafter : (ScopeEffect.opens .stream).depthAfter (.ofNat opened) = .ofNat (opened + 1) :=
      ScopeEffect.depthAfter_ofNat _ opened
    rw [← hafter] at hspells
    rw [Nat.add_right_comm, Nat.add_assoc] at hlevel
    refine ⟨.mk (.define "uni_start_stream" .uni 1 [.num] 0 (.opens .stream)) [] (.ofNat opened) ::
      atoms, ?_, .later hlevel⟩
    exact @Atom.Spells.cons _ _ _ _ _ _ 0 [] _ rfl (Nat.zero_le _) rfl (.omitted (Nat.le_refl _)) hspells

/-- Behind an opener at the greatest depth, and behind 65536 openers on the wire, the level is 65536 and
the depth is zero. -/
theorem Atom.depth_starts_again :
    let opener (depth : UInt16) : Atom :=
      .mk (.define "uni_start_stream" .uni 1 [.num] 0 (.opens .stream)) [] depth
    let wait (depth : UInt16) : Atom := .mk (.plain "uni_wait_off" .uni 10 []) [] depth
    assignDepths 65535 [opener 0, wait 0] = [opener 65535, wait 0] ∧
      (wait 0).HasLevel (65535 : UInt16).toNat 0 [opener 65535, wait 0] 65536 ∧
      ∃ bytes atoms, decodeStream bytes = .ok atoms ∧ (wait 0).HasLevel 0 0 atoms 65536 := by
  intro opener wait
  obtain ⟨atoms, hspells, hlevel⟩ := exists_behind_openers 65536 0
  have hassigned : assignDepths 65535 [opener 0, wait 0] = [opener 65535, wait 0] := by
    cbv
  exact ⟨hassigned, .later .here, _, atoms, decodeStream_eq_ok_iff.mpr hspells, hlevel⟩

end Switchboard
