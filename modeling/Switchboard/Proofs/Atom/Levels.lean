import Switchboard.Proofs.Atom.Decoding
import Switchboard.Proofs.Except
import Switchboard.Script.Balance

/-!
# Levels of nesting

Depths are counted in sixteen bits and never fall below the base of a stream.  In a stream whose scopes
pair up, and which has fewer levels than fit into sixteen bits, neither shows: each atom stands as deep
as there are scopes open around it.

Main results:

* `Atom.Lays.append`: the depths of two runs of atoms, one behind the other.
* `Atom.level_assignFrom`: in a balanced stream all depths come back to where they started, and so they
  do in every stream that its atoms carry.
* `Atom.checkFrom_assignFrom`: whether a stream is balanced does not depend on its depths.
-/

namespace Switchboard

-- ---------------------------------------------------------------------------
-- Levels
-- ---------------------------------------------------------------------------

namespace ScopeEffect

/-- The level at which an atom stands, where the atoms before it left the level at `level`. -/
def levelAt (effect : ScopeEffect) (level : ℕ) : ℕ :=
  if effect.leaves then level - 1 else level

/-- The level of the atoms behind one that stands at `level`. -/
def levelAfter (effect : ScopeEffect) (level : ℕ) : ℕ :=
  if effect.enters then level + 1 else level

theorem levelAt_add (effect : ScopeEffect) (d : ℕ) {level : ℕ}
    (h : effect.leaves = true → 0 < level) :
    effect.levelAt (d + level) = d + effect.levelAt level := by
  unfold levelAt
  split
  · next hleaves => exact Nat.add_sub_assoc (h hleaves) d
  · rfl

theorem levelAfter_add (effect : ScopeEffect) (d level : ℕ) :
    effect.levelAfter (d + level) = d + effect.levelAfter level := by
  unfold levelAfter
  split <;> rfl

theorem depthAt_ofNat (effect : ScopeEffect) {base : UInt16} {level : ℕ} (hlevel : level < 65536)
    (hbase : base.toNat ≤ effect.levelAt level) :
    effect.depthAt base (.ofNat level) = .ofNat (effect.levelAt level) := by
  have hsize : UInt16.size = 65536 := rfl
  have hnat : (UInt16.ofNat level).toNat = level := UInt16.toNat_ofNat_of_lt' hlevel
  unfold depthAt
  unfold levelAt at hbase ⊢
  by_cases hleaves : effect.leaves = true
  · rw [if_pos hleaves] at hbase ⊢
    rw [if_pos hleaves]
    by_cases hzero : level = 0
    · subst hzero
      have hbase0 : base = 0 := UInt16.toNat_inj.mp (Nat.le_zero.mp hbase)
      rw [hbase0]
      rfl
    · have hne : ¬UInt16.ofNat level = 0 := by
        intro h
        rw [← UInt16.toNat_inj, hnat] at h
        exact hzero h
      have hpred : UInt16.ofNat level - 1 = UInt16.ofNat (level - 1) := by
        rw [← UInt16.toNat_inj, UInt16.toNat_sub_of_le _ _ (by
          rw [UInt16.le_iff_toNat_le, hnat]
          exact Nat.one_le_iff_ne_zero.mpr hzero), hnat, UInt16.toNat_ofNat_of_lt' (by omega)]
        rfl
      rw [if_neg hne, hpred]
      refine if_pos ?_
      rw [UInt16.le_iff_toNat_le, UInt16.toNat_ofNat_of_lt' (by omega)]
      exact hbase
  · rw [if_neg hleaves, if_neg hleaves]

theorem depthAfter_ofNat (effect : ScopeEffect) (level : ℕ) :
    effect.depthAfter (.ofNat level) = .ofNat (effect.levelAfter level) := by
  unfold depthAfter levelAfter
  split
  · exact (UInt16.ofNat_add level 1).symm
  · rfl

/-- How many scopes are open behind an atom. -/
theorem length_of_apply {effect : ScopeEffect} {name : String} {opened after : List Scope}
    (h : effect.apply name opened = .ok after) :
    after.length = effect.levelAfter (effect.levelAt opened.length) ∧
      (effect.leaves = true → opened ≠ []) := by
  -- an atom leaves a scope only if that is the innermost one
  have hinnermost {scope : Scope} (hhead : opened.head? = some scope) :
      opened = scope :: opened.tail :=
    List.eq_cons_of_mem_head? hhead
  cases effect with
  | none | opens scope =>
    rw [apply] at h
    cases h
    exact ⟨rfl, Bool.noConfusion⟩
  | closes scope =>
    rw [apply] at h
    split at h
    · next hhead =>
      cases h
      rw [hinnermost hhead]
      exact ⟨rfl, fun _ => List.cons_ne_nil _ _⟩
    · cases h
  | reopens scope =>
    rw [apply] at h
    split at h
    · next hhead =>
      cases h
      rw [hinnermost hhead]
      exact ⟨rfl, fun _ => List.cons_ne_nil _ _⟩
    · cases h

end ScopeEffect

-- ---------------------------------------------------------------------------
-- How deep streams go
-- ---------------------------------------------------------------------------

mutual

/-- How many levels deep an operand goes. -/
def Operand.nesting : Operand → ℕ
  | .int _ | .str _ | .raw _ | .gid _ => 0
  | .stream atoms => Atom.nestingFrom 0 atoms + 1

/-- How many levels deep operands go. -/
def Operand.nestingList : List Operand → ℕ
  | [] => 0
  | op :: ops => max op.nesting (Operand.nestingList ops)

/-- How many levels deep the streams go that an atom carries. -/
def Atom.nesting : Atom → ℕ
  | .mk _ ops _ => Operand.nestingList ops

/-- How many levels deep the rest of a stream goes, with `opened` scopes open before it. -/
def Atom.nestingFrom (opened : ℕ) : List Atom → ℕ
  | [] => opened
  | a :: as =>
    let here := a.effect.levelAt opened
    max opened (max (here + a.nesting) (Atom.nestingFrom (a.effect.levelAfter here) as))

end

namespace Atom

/-- The level behind atoms that start at the level `start`. -/
def levelBehind (start : ℕ) : List Atom → ℕ
  | [] => start
  | a :: as => levelBehind (a.effect.levelAfter a.depth.toNat) as

theorem levelBehind_concat (start : ℕ) (atoms : List Atom) (a : Atom) :
    levelBehind start (atoms ++ [a]) = a.effect.levelAfter a.depth.toNat := by
  induction atoms generalizing start with
  | nil => rfl
  | cons b atoms ih => exact ih _

/-- Whether every stream that the atom carries starts one level deeper than the atom, and comes back to
where it started. -/
def CarriesLevel (carrier : Atom) : Prop :=
  ∀ inner, .stream inner ∈ carrier.operands →
    (∀ first, inner.head? = some first → first.depth.toNat = carrier.depth.toNat + 1) ∧
      levelBehind (carrier.depth.toNat + 1) inner = carrier.depth.toNat + 1

@[simp] theorem effect_atDepth (a : Atom) (depth : UInt16) : (a.atDepth depth).effect = a.effect := by
  cases a
  rfl

@[simp] theorem depth_atDepth (a : Atom) (depth : UInt16) : (a.atDepth depth).depth = depth := by
  cases a
  rfl

@[simp] theorem name_atDepth (a : Atom) (depth : UInt16) : (a.atDepth depth).name = a.name := by
  cases a
  rfl

theorem operands_atDepth (a : Atom) (depth : UInt16) :
    (a.atDepth depth).operands = Operand.withDepthsList (depth + 1) a.operands := by
  cases a
  rfl

-- ---------------------------------------------------------------------------
-- Runs of atoms
-- ---------------------------------------------------------------------------

/-- From the level `start` to the level `stop`, atoms are `laid` out: so they stand with their depths. -/
def Lays (base : UInt16) (start stop : ℕ) (atoms laid : List Atom) : Prop :=
  ∀ more, assignFrom base (.ofNat start) [] (atoms ++ more) =
    laid ++ assignFrom base (.ofNat stop) [] more

section Lays

variable {base : UInt16} {start middle stop : ℕ} {atoms laid more laidMore : List Atom}

theorem Lays.append (h : Lays base start middle atoms laid)
    (hmore : Lays base middle stop more laidMore) :
    Lays base start stop (atoms ++ more) (laid ++ laidMore) := by
  intro rest
  rw [List.append_assoc, h, hmore, List.append_assoc]

theorem lays_singleton (a : Atom) (hstart : start < 65536)
    (hbase : base.toNat ≤ a.effect.levelAt start) :
    Lays base start (a.effect.levelAfter (a.effect.levelAt start)) [a]
      [a.atDepth (.ofNat (a.effect.levelAt start))] := by
  intro rest
  rw [List.singleton_append, assignFrom_cons, ScopeEffect.depthAt_ofNat _ hstart hbase,
    ScopeEffect.depthAfter_ofNat]
  rfl

theorem lays_nil (base : UInt16) (level : ℕ) : Lays base level level [] [] :=
  fun _ => rfl

section Singleton

variable {a : Atom} {level : ℕ} {scope : Scope}

theorem lays_plain (h : a.effect = .none) (hbase : base.toNat ≤ level) (hlevel : level < 65536) :
    Lays base level level [a] [a.atDepth (.ofNat level)] := by
  have hlays := lays_singleton a hlevel (by rw [h]; exact hbase)
  rw [h] at hlays
  exact hlays

theorem lays_opens (h : a.effect = .opens scope) (hbase : base.toNat ≤ level)
    (hlevel : level < 65536) : Lays base level (level + 1) [a] [a.atDepth (.ofNat level)] := by
  have hlays := lays_singleton a hlevel (by rw [h]; exact hbase)
  rw [h] at hlays
  exact hlays

theorem lays_closes (h : a.effect = .closes scope) (hbase : base.toNat ≤ level)
    (hlevel : level + 1 < 65536) : Lays base (level + 1) level [a] [a.atDepth (.ofNat level)] := by
  have hlays := lays_singleton a hlevel (by rw [h]; exact hbase)
  rw [h] at hlays
  exact hlays

theorem lays_reopens (h : a.effect = .reopens scope) (hbase : base.toNat ≤ level)
    (hlevel : level + 1 < 65536) :
    Lays base (level + 1) (level + 1) [a] [a.atDepth (.ofNat level)] := by
  have hlays := lays_singleton a hlevel (by rw [h]; exact hbase)
  rw [h] at hlays
  exact hlays

end Singleton

/-- What stands between an opener and its closer is one level deeper. -/
theorem Lays.between {level : ℕ} {opener closer : Atom} {scope : Scope}
    (hopener : opener.effect = .opens scope) (hcloser : closer.effect = .closes scope)
    (hbase : base.toNat ≤ level) (hlevel : level + 1 < 65536)
    (h : Lays base (level + 1) (level + 1) atoms laid) :
    Lays base level level (opener :: (atoms ++ [closer]))
      (opener.atDepth (.ofNat level) :: (laid ++ [closer.atDepth (.ofNat level)])) :=
  (lays_opens hopener hbase (Nat.lt_of_succ_lt hlevel)).append
    (h.append (lays_closes hcloser hbase hlevel))

theorem Lays.assignFrom_eq (h : Lays base start stop atoms laid) :
    assignFrom base (.ofNat start) [] atoms = laid := by
  have hnil := h []
  rw [List.append_nil, assignFrom, List.reverse_nil, List.append_nil] at hnil
  exact hnil

end Lays

end Atom

-- ---------------------------------------------------------------------------
-- Balanced streams
-- ---------------------------------------------------------------------------

theorem Operand.checkBalanceList_cons_iff {op : Operand} {ops : List Operand} :
    checkBalanceList (op :: ops) = .ok () ↔
      op.checkBalance = .ok () ∧ checkBalanceList ops = .ok () := by
  rw [checkBalanceList, bind_eq_ok_iff]
  exact ⟨fun ⟨_, h⟩ => h, fun h => ⟨(), h⟩⟩

/-- Operands that are no streams carry none. -/
theorem Operand.checkBalanceList_of_plain {ops : List Operand}
    (h : ∀ op ∈ ops, op.type ≠ .stream) : checkBalanceList ops = .ok () := by
  induction ops with
  | nil => rw [checkBalanceList]
  | cons op ops ih =>
    obtain ⟨hfirst, hrest⟩ := List.forall_mem_cons.mp h
    have hop : op.checkBalance = .ok () := by
      cases op with
      | stream atoms => exact absurd rfl hfirst
      | int | str | raw | gid => rw [checkBalance]
    rw [checkBalanceList, hop, ok_bind, ih hrest]

theorem Atom.checkFrom_cons (opened : List Scope) (a : Atom) (atoms : List Atom) :
    checkFrom opened (a :: atoms) = (do
      let after ← a.effect.apply a.name opened
      Operand.checkBalanceList a.operands
      checkFrom after atoms) := by
  obtain ⟨s, ops, depth⟩ := a
  rw [checkFrom, checkWithin]
  simp only [bind_assoc, pure_bind]
  rfl

theorem Atom.checkFrom_cons_iff {opened : List Scope} {a : Atom} {atoms : List Atom} :
    checkFrom opened (a :: atoms) = .ok () ↔
      ∃ after, a.effect.apply a.name opened = .ok after ∧
        Operand.checkBalanceList a.operands = .ok () ∧ checkFrom after atoms = .ok () := by
  rw [checkFrom_cons, bind_eq_ok_iff]
  refine exists_congr fun after => and_congr_right fun _ => ?_
  rw [bind_eq_ok_iff]
  exact ⟨fun ⟨_, h⟩ => h, fun h => ⟨(), h⟩⟩

/-- An atom that may stand where it does has the depth of the scopes around it. -/
theorem Atom.assignFrom_cons_of_apply {d : ℕ} {a : Atom} {opened after : List Scope}
    (happly : a.effect.apply a.name opened = .ok after) (hdeep : d + opened.length < 65536)
    (atoms : List Atom) :
    assignFrom (.ofNat d) (.ofNat (d + opened.length)) [] (a :: atoms) =
      a.atDepth (.ofNat (d + a.effect.levelAt opened.length)) ::
        assignFrom (.ofNat d) (.ofNat (d + after.length)) [] atoms := by
  obtain ⟨hlength, hleaves⟩ := ScopeEffect.length_of_apply happly
  have hat := a.effect.levelAt_add d fun h => List.length_pos_iff.mpr (hleaves h)
  have hbase : (UInt16.ofNat d).toNat ≤ a.effect.levelAt (d + opened.length) := by
    rw [hat, UInt16.toNat_ofNat_of_lt' (by omega : d < 65536)]
    exact Nat.le_add_right d _
  rw [assignFrom_cons, ScopeEffect.depthAt_ofNat _ hdeep hbase, ScopeEffect.depthAfter_ofNat, hat,
    a.effect.levelAfter_add, ← hlength]

/-- If all is right with the streams that an atom carries, one level deeper than the atom, then it is with
the atom. -/
theorem Atom.everywhere_atDepth {d : ℕ} {a : Atom} (hd : d < 65536)
    (h : ∀ inner, .stream inner ∈ Operand.withDepthsList (.ofNat d + 1) a.operands →
      (∀ first : Atom, inner.head? = some first → first.depth.toNat = d + 1) ∧
        levelBehind (d + 1) inner = d + 1 ∧ Everywhere CarriesLevel inner) :
    Everywhere CarriesLevel [a.atDepth (.ofNat d)] := by
  refine everywhere_cons.mpr ⟨fun inner hinner => ?_, fun inner hinner => ?_, everywhere_nil _⟩
  · rw [operands_atDepth] at hinner
    rw [depth_atDepth, UInt16.toNat_ofNat_of_lt' hd]
    obtain ⟨hfirst, hback, -⟩ := h inner hinner
    exact ⟨hfirst, hback⟩
  · rw [operands_atDepth] at hinner
    obtain ⟨-, -, hlevel⟩ := h inner hinner
    exact hlevel

mutual

theorem Operand.level_withDepths {d : ℕ} :
    ∀ ops : List Operand, Operand.checkBalanceList ops = .ok () →
      d + Operand.nestingList ops < 65536 →
      ∀ inner, Operand.stream inner ∈ Operand.withDepthsList (.ofNat d + 1) ops →
        (∀ first : Atom, inner.head? = some first → first.depth.toNat = d + 1) ∧
          Atom.levelBehind (d + 1) inner = d + 1 ∧ Atom.Everywhere Atom.CarriesLevel inner
  | [], _, _, inner, hinner => by cases hinner
  | op :: ops, h, hdeep, inner, hinner => by
    obtain ⟨hop, hops⟩ := Operand.checkBalanceList_cons_iff.mp h
    rw [Operand.nestingList] at hdeep
    rw [Operand.withDepthsList] at hinner
    rcases List.mem_cons.mp hinner with heq | hmem
    · cases op with
      | stream atoms =>
        rw [Operand.nesting] at hdeep
        have hbase : (UInt16.ofNat d + 1 : UInt16) = .ofNat (d + 1) := (UInt16.ofNat_add d 1).symm
        rw [Operand.withDepths, Operand.stream.injEq, hbase] at heq
        subst heq
        obtain ⟨hfirst, hbehind, hlevel⟩ :=
          Atom.level_assignFrom (d + 1) atoms [] hop (by rw [List.length_nil]; omega)
        exact ⟨hfirst rfl, hbehind, hlevel⟩
      | int | str | raw | gid => cases heq
    · exact Operand.level_withDepths ops hops (by omega) inner hmem

/-- In a balanced stream the depths come back to where they started, and so they do in every stream
that its atoms carry. -/
theorem Atom.level_assignFrom (d : ℕ) :
    ∀ (atoms : List Atom) (opened : List Scope), Atom.checkFrom opened atoms = .ok () →
      d + Atom.nestingFrom opened.length atoms < 65536 →
      (opened = [] → ∀ first : Atom,
        (Atom.assignFrom (.ofNat d) (.ofNat (d + opened.length)) [] atoms).head? = some first →
          first.depth.toNat = d) ∧
        Atom.levelBehind (d + opened.length)
          (Atom.assignFrom (.ofNat d) (.ofNat (d + opened.length)) [] atoms) = d ∧
        Atom.Everywhere Atom.CarriesLevel
          (Atom.assignFrom (.ofNat d) (.ofNat (d + opened.length)) [] atoms)
  | [], opened, h, hdeep => by
    cases opened with
    | nil =>
      rw [Atom.assignFrom]
      exact ⟨fun _ first h => (nomatch h), rfl, Atom.everywhere_nil _⟩
    | cons scope outer => exact nomatch h
  | .mk s ops old :: atoms, opened, h, hdeep => by
    obtain ⟨after, happly, hops, hrest⟩ := Atom.checkFrom_cons_iff.mp h
    obtain ⟨hlength, hleaves⟩ := ScopeEffect.length_of_apply happly
    rw [Atom.nestingFrom, ← hlength] at hdeep
    have hhere : d + (Atom.mk s ops old).effect.levelAt opened.length +
        Operand.nestingList ops < 65536 := by
      rw [Atom.nesting] at hdeep
      omega
    obtain ⟨-, hbehind, hlevel⟩ := Atom.level_assignFrom d atoms after hrest (by omega)
    have hcarried := Operand.level_withDepths ops hops hhere
    have hdepth := UInt16.toNat_ofNat_of_lt' (Nat.lt_of_add_right_lt hhere)
    rw [Atom.assignFrom_cons_of_apply happly (by omega)]
    refine ⟨fun hempty first hfirst => ?_, ?_, ?_⟩
    · -- no scope is open that the first atom could leave
      have hzero : (Atom.mk s ops old).effect.levelAt opened.length = 0 := by
        rw [hempty, List.length_nil, ScopeEffect.levelAt, Nat.zero_sub, ite_self]
      rw [List.head?_cons, Option.some.injEq] at hfirst
      rw [← hfirst, Atom.depth_atDepth, hdepth, hzero, Nat.add_zero]
    · rw [Atom.levelBehind, Atom.effect_atDepth, Atom.depth_atDepth, hdepth,
        ScopeEffect.levelAfter_add, ← hlength, hbehind]
    · have hhead := Atom.everywhere_atDepth (a := .mk s ops old) (by omega) hcarried
      exact Atom.everywhere_cons_iff.mpr ⟨hhead, hlevel⟩

end

/-- In an atom whose streams are balanced, all is right with them, at every level. -/
theorem Atom.everywhere_atDepth_of_nesting {d : ℕ} {a : Atom}
    (h : Operand.checkBalanceList a.operands = .ok ()) (hdeep : d + a.nesting < 65536) :
    Everywhere CarriesLevel [a.atDepth (.ofNat d)] := by
  obtain ⟨s, ops, old⟩ := a
  rw [nesting] at hdeep
  exact everywhere_atDepth (Nat.lt_of_add_right_lt hdeep) (Operand.level_withDepths ops h hdeep)

-- ---------------------------------------------------------------------------
-- Balance and depths
-- ---------------------------------------------------------------------------

mutual

theorem Operand.checkBalanceList_withDepths (base : UInt16) :
    ∀ ops : List Operand,
      Operand.checkBalanceList (Operand.withDepthsList base ops) = Operand.checkBalanceList ops
  | [] => rfl
  | op :: ops => by
    have hop : (op.withDepths base).checkBalance = op.checkBalance := by
      cases op with
      | stream atoms =>
        rw [Operand.withDepths, Operand.checkBalance, Operand.checkBalance]
        exact Atom.checkFrom_assignFrom base base atoms []
      | int | str | raw | gid => rfl
    rw [Operand.withDepthsList, Operand.checkBalanceList, Operand.checkBalanceList, hop,
      Operand.checkBalanceList_withDepths base ops]

/-- Whether a stream is balanced does not depend on its depths. -/
theorem Atom.checkFrom_assignFrom (base depth : UInt16) :
    ∀ (atoms : List Atom) (opened : List Scope),
      Atom.checkFrom opened (Atom.assignFrom base depth [] atoms) = Atom.checkFrom opened atoms
  | [], opened => rfl
  | .mk s ops old :: atoms, opened => by
    rw [Atom.assignFrom_cons, Atom.checkFrom_cons, Atom.checkFrom_cons, Atom.effect_atDepth,
      Atom.name_atDepth, Atom.operands_atDepth, Atom.operands,
      Operand.checkBalanceList_withDepths _ ops]
    refine bind_congr fun after => bind_congr fun _ => ?_
    exact Atom.checkFrom_assignFrom base _ atoms after

end

end Switchboard
