import Switchboard.Directory
import Switchboard.Proofs.ScreenName

/-!
# Who the directory admits

A name is looked up by its identity, among the entries that have one.  So the entries of a directory
are a table in which the last of several equal names counts, and a directory whose entries are all
blank has an empty table, as one without entries has.

Main results:

* `Directory.lookup_entries`: the table finds the last name with an identity.
* `Directory.isOpen_ofNames`: everyone is admitted if and only if all entries are blank.
* `Directory.lookup_ofNames_eq_some_iff`: who is admitted, and under which spelling.
* `Directory.identityOf_of_lookup`: whoever is admitted keeps the identity that was requested.
-/

namespace Switchboard

namespace Directory

variable {names : List String} {identity requested record : String}

-- ---------------------------------------------------------------------------
-- The table
-- ---------------------------------------------------------------------------

theorem entries_ofNames (names : List String) :
    (ofNames names).entries =
      (names.reverse.map fun name => (identityOf name, name)).filter fun entry => !entry.1.isEmpty := by
  simp only [ofNames, List.map_reverse, List.filter_reverse]

/-- An entry that the filter drops has no identity, and so is none that is looked for. -/
theorem lookup_filter_map (hidentity : identity ≠ "") (names : List String) :
    ((names.map fun name => (identityOf name, name)).filter fun entry => !entry.1.isEmpty).lookup
      identity = names.find? (identityOf · == identity) := by
  induction names with
  | nil => rfl
  | cons name rest ih =>
    by_cases heq : identityOf name = identity
    · simp [heq, hidentity]
    · by_cases hblank : identityOf name = ""
      · simpa [hblank, hidentity.symm] using ih
      · have hother : (identity == identityOf name) = false := beq_false_of_ne (Ne.symm heq)
        simpa [hblank, heq, List.lookup_cons, hother] using ih

theorem lookup_entries (hidentity : identity ≠ "") (names : List String) :
    (ofNames names).entries.lookup identity = names.reverse.find? (identityOf · == identity) := by
  rw [entries_ofNames, lookup_filter_map hidentity]

/-- What the table finds is the last name of that identity, as it was written. -/
theorem lookup_entries_eq_some_iff (hidentity : identity ≠ "") :
    (ofNames names).entries.lookup identity = some record ↔
      ∃ before after, names = before ++ record :: after ∧ identityOf record = identity ∧
        ∀ later ∈ after, identityOf later ≠ identity := by
  rw [lookup_entries hidentity, List.find?_eq_some_iff_append]
  constructor
  · rintro ⟨hrecord, after, before, hsplit, hafter⟩
    refine ⟨before.reverse, after.reverse, ?_, by simpa using hrecord, fun later hlater => ?_⟩
    · simpa using congrArg List.reverse hsplit
    · simpa using hafter later (List.mem_reverse.mp hlater)
  · rintro ⟨before, after, rfl, hrecord, hafter⟩
    refine ⟨by simpa using hrecord, after.reverse, before.reverse, by simp, fun later hlater => ?_⟩
    simpa using hafter later (List.mem_reverse.mp hlater)

theorem isOpen_ofNames :
    (ofNames names).isOpen = true ↔ ∀ name ∈ names, identityOf name = "" := by
  simp [isOpen, entries_ofNames, List.isEmpty_iff, List.filter_eq_nil_iff]

-- ---------------------------------------------------------------------------
-- Looking up
-- ---------------------------------------------------------------------------

/-- Whoever is admitted keeps the identity that was requested. -/
theorem identityOf_of_lookup (h : (ofNames names).lookup requested = some record) :
    identityOf record = identityOf requested := by
  unfold lookup at h
  dsimp only at h
  split at h
  · cases h
  · next hblank =>
    split at h
    · cases h
      exact identityOf_trim requested
    · have hidentity : identityOf requested ≠ "" := by simpa using hblank
      obtain ⟨-, -, -, hrecord, -⟩ := (lookup_entries_eq_some_iff hidentity).mp h
      exact hrecord

/-- A name that is more than white space is admitted as it was requested, trimmed, if all entries are
blank, and else under the last entry of its identity. -/
theorem lookup_ofNames_eq_some_iff (names : List String) (requested record : String) :
    (ofNames names).lookup requested = some record ↔
      identityOf requested ≠ "" ∧
        ((∀ name ∈ names, identityOf name = "") ∧
            record = String.ofList (Text.trim requested.toList) ∨
          ∃ before after, names = before ++ record :: after ∧
            identityOf record = identityOf requested ∧
            ∀ later ∈ after, identityOf later ≠ identityOf requested) := by
  unfold lookup
  by_cases hblank : identityOf requested = ""
  · simp [hblank]
  rw [if_neg (by simpa using hblank)]
  by_cases hopen : (ofNames names).isOpen = true
  · have hall := isOpen_ofNames.mp hopen
    -- an entry of the requested identity would be blank, and the request is not
    have hnone : ¬ ∃ before after, names = before ++ record :: after ∧
        identityOf record = identityOf requested ∧
        ∀ later ∈ after, identityOf later ≠ identityOf requested := by
      rintro ⟨before, after, rfl, hrecord, -⟩
      exact hblank (hrecord.symm.trans (hall record (by simp)))
    rw [if_pos hopen]
    simp only [Option.some.injEq, ne_eq, hblank, not_false_eq_true, true_and, hnone, or_false]
    exact ⟨fun h => ⟨hall, h.symm⟩, fun h => h.2.symm⟩
  · rw [if_neg hopen, lookup_entries_eq_some_iff hblank]
    have hsome : ¬ ∀ name ∈ names, identityOf name = "" := fun h => hopen (isOpen_ofNames.mpr h)
    simp only [ne_eq, hblank, not_false_eq_true, true_and, hsome, false_and, false_or]

/-- A directory whose one entry is blank admits a name that is on no entry. -/
theorem lookup_blank_entry :
    [" "] ≠ [] ∧ identityOf "guest" ≠ "" ∧ (∀ name ∈ [" "], identityOf name ≠ identityOf "guest") ∧
      (ofNames [" "]).lookup "guest" = some "guest" := by
  decide +kernel

end Directory

end Switchboard
