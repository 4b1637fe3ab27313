/-!
# Dictionaries

Values by key, as a list of pairs in which each key stands at most once.  `Dictionary.get?` is the
view of a dictionary.

Main results: `Dictionary.get?_put` and `Dictionary.get?_erase`, a change at one key is seen at that
key only; `Dictionary.nodup_keys_put` and `Dictionary.nodup_keys_erase`, no key comes to stand twice;
`Dictionary.mem_entries_iff`, the entries are what the view shows.
-/

namespace Switchboard

/-- Values by key. -/
structure Dictionary (κ α : Type) where
  entries : List (κ × α)
  deriving Repr, DecidableEq

namespace Dictionary

variable {κ α : Type}

/-- No keys. -/
def empty : Dictionary κ α := ⟨[]⟩

/-- The keys, the latest first. -/
def keys (d : Dictionary κ α) : List κ :=
  d.entries.map (·.1)

/-- The number of keys. -/
def size (d : Dictionary κ α) : Nat :=
  d.entries.length

variable [DecidableEq κ]

/-- The value of a key. -/
def get? (d : Dictionary κ α) (key : κ) : Option α :=
  d.entries.lookup key

/-- The dictionary without a key. -/
def erase (d : Dictionary κ α) (key : κ) : Dictionary κ α :=
  ⟨d.entries.filter (·.1 ≠ key)⟩

/-- Gives a key a value, in place of the one it has. -/
def put (d : Dictionary κ α) (key : κ) (value : α) : Dictionary κ α :=
  ⟨(key, value) :: (d.erase key).entries⟩

@[simp]
theorem get?_empty (key : κ) : (empty : Dictionary κ α).get? key = none := rfl

theorem lookup_cons_eq_ite (key other : κ) (value : α) (entries : List (κ × α)) :
    ((key, value) :: entries).lookup other =
      if other = key then some value else entries.lookup other := by
  by_cases h : other = key
  · simp [h]
  · simp [List.lookup_cons, beq_eq_false_iff_ne.mpr h, h]

theorem lookup_filter_ne (key other : κ) (entries : List (κ × α)) :
    (entries.filter (·.1 ≠ key)).lookup other =
      if other = key then none else entries.lookup other := by
  induction entries with
  | nil => simp
  | cons entry rest ih =>
    obtain ⟨k, v⟩ := entry
    by_cases hk : k = key
    · rw [List.filter_cons_of_neg (by simpa using hk), ih, lookup_cons_eq_ite, hk]
      split <;> rfl
    · rw [List.filter_cons_of_pos (by simpa using hk), lookup_cons_eq_ite, ih, lookup_cons_eq_ite]
      split
      · next ho => rw [ho, if_neg hk]
      · rfl

/-- Erasing a key leaves the values of the others. -/
theorem get?_erase (d : Dictionary κ α) (key other : κ) :
    (d.erase key).get? other = if other = key then none else d.get? other :=
  lookup_filter_ne key other d.entries

/-- Putting a value at a key leaves the values of the others. -/
theorem get?_put (d : Dictionary κ α) (key other : κ) (value : α) :
    (d.put key value).get? other = if other = key then some value else d.get? other := by
  have h : (d.put key value).get? other =
      if other = key then some value else (d.erase key).get? other :=
    lookup_cons_eq_ite key other value (d.erase key).entries
  rw [h, get?_erase]
  split <;> rfl

/-- Where no key stands twice, the entries are the keys with their values. -/
theorem mem_entries_iff {d : Dictionary κ α} (h : d.keys.Nodup) {key : κ} {value : α} :
    (key, value) ∈ d.entries ↔ d.get? key = some value := by
  obtain ⟨entries⟩ := d
  show (key, value) ∈ entries ↔ entries.lookup key = some value
  induction entries with
  | nil => simp
  | cons entry rest ih =>
    obtain ⟨k, v⟩ := entry
    obtain ⟨hfirst, hrest⟩ := List.nodup_cons.mp h
    rw [lookup_cons_eq_ite, List.mem_cons, ih hrest]
    by_cases hk : key = k
    · subst hk
      -- the key of the first entry does not stand again
      have hnone : rest.lookup key ≠ some value := by
        intro hsome
        exact hfirst (List.mem_map.mpr ⟨_, (ih hrest).mpr hsome, rfl⟩)
      simp [hnone, eq_comm]
    · simp [hk]

omit [DecidableEq κ] in
/-- What is taken from the entries stands once if it tells its key. -/
theorem nodup_filterMap {d : Dictionary κ α} (h : d.keys.Nodup) {β : Type} {f : κ × α → Option β}
    (hkey : ∀ entry other b, f entry = some b → f other = some b → entry.1 = other.1) :
    (d.entries.filterMap f).Nodup := by
  refine List.pairwise_filterMap.mpr ((List.pairwise_map.mp h).imp ?_)
  intro entry other hne b hb c hc heq
  subst heq
  exact hne (hkey entry other b hb hc)

theorem nodup_keys_erase {d : Dictionary κ α} (h : d.keys.Nodup) (key : κ) :
    (d.erase key).keys.Nodup :=
  h.sublist (List.filter_sublist.map Prod.fst)

theorem nodup_keys_put {d : Dictionary κ α} (h : d.keys.Nodup) (key : κ) (value : α) :
    (d.put key value).keys.Nodup := by
  refine List.nodup_cons.mpr ⟨fun hmem => ?_, nodup_keys_erase h key⟩
  -- what was there under the key is gone
  obtain ⟨entry, hentry, hkey⟩ := List.mem_map.mp hmem
  have hother := of_decide_eq_true (List.mem_filter.mp hentry).2
  exact hother hkey

end Dictionary

end Switchboard
