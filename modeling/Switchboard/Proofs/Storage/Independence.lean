import Mathlib.Data.List.Basic
import Mathlib.Data.List.Induction
import Switchboard.Proofs.Storage.Agreement

/-!
# Files are kept apart

A call changes what is stored under its own key and under no other, with one exception: a write to disk
that succeeds uses up a file that is stored under the key of its temporary file.  So what a store has
under a key can be told from the calls and their answers alone: it is what the last write of the key
stored that succeeded, unless the key was touched since.

Main results:

* `Store.Mirrors.call`: what one call leaves under each key.
* `Store.Mirrors.after`: what a sequence of calls leaves.
* `Store.reads_last_write_unless_touched`: reading gives the data of the last write, and a call that
  does not touch a key changes no answer about it.
-/

namespace Switchboard

/-- An operation of a store with what was answered. -/
abbrev StoreEvent := StoreCall × Except StorageError StoreAnswer

-- ---------------------------------------------------------------------------
-- What events leave
-- ---------------------------------------------------------------------------

namespace StoreEvent

/-- A write or delete that succeeded touches its key, and a write that of its temporary file as well,
if it goes through one. -/
def Touches (temporary : FileKey → Option FileKey) (key : FileKey) : StoreEvent → Prop
  | (.write other _, .ok _) => key = other ∨ temporary other = some key
  | (.delete other, .ok _) => key = other
  | _ => False

/-- What is stored under a key after an event, if `found` was stored before. -/
def left (temporary : FileKey → Option FileKey) (key : FileKey) (found : Option Bytes) :
    StoreEvent → Option Bytes
  | (.write other data, .ok _) =>
    if key = other then some data else if temporary other = some key then none else found
  | (.delete other, .ok _) => if key = other then none else found
  | _ => found

/-- The last event that touches the key is a write of the key. -/
def LastWrite (temporary : FileKey → Option FileKey) (key : FileKey) (data : Bytes)
    (events : List StoreEvent) : Prop :=
  ∃ before answer later, events = before ++ (.write key data, .ok answer) :: later ∧
    ∀ event ∈ later, ¬Touches temporary key event

variable {temporary : FileKey → Option FileKey} {key : FileKey} {found : Option Bytes} {data : Bytes}
  {event : StoreEvent}

theorem left_of_not_touches (h : ¬Touches temporary key event) :
    left temporary key found event = found := by
  obtain ⟨request, answer⟩ := event
  cases answer with
  | error _ => cases request <;> rfl
  | ok _ =>
    cases request with
    | write other stored =>
      rw [left, if_neg fun heq => h (.inl heq), if_neg fun heq => h (.inr heq)]
    | delete other => exact if_neg h
    | list | read | exists? | metadata => rfl

/-- An event that touches a key leaves data there only if it wrote it. -/
theorem left_of_touches (h : Touches temporary key event) :
    left temporary key found event = some data ↔
      ∃ answer, event = (.write key data, .ok answer) := by
  obtain ⟨request, answer⟩ := event
  cases answer with
  | error _ => cases request <;> exact h.elim
  | ok answer =>
    cases request with
    | write other stored =>
      by_cases hkey : key = other
      · subst hkey
        rw [left, if_pos rfl, Option.some.injEq]
        exact ⟨fun heq => ⟨answer, by rw [heq]⟩, fun ⟨_, heq⟩ => by cases heq; rfl⟩
      · have htemporary : temporary other = some key := h.resolve_left hkey
        rw [left, if_neg hkey, if_pos htemporary]
        refine iff_of_false (fun heq => nomatch heq) ?_
        rintro ⟨_, heq⟩
        cases heq
        exact hkey rfl
    | delete other =>
      have hkey : key = other := h
      rw [left, if_pos hkey]
      exact iff_of_false (fun heq => nomatch heq) fun ⟨_, heq⟩ => nomatch heq
    | list | read | exists? | metadata => exact h.elim

theorem foldl_left_eq_some_iff (events : List StoreEvent) :
    events.foldl (left temporary key) none = some data ↔ LastWrite temporary key data events := by
  -- from the latest event backwards, since that is the one that decides
  induction events using List.reverseRecOn with
  | nil =>
    refine iff_of_false (fun heq => nomatch heq) ?_
    rintro ⟨before, answer, later, heq, -⟩
    exact absurd heq.symm (List.append_ne_nil_of_right_ne_nil _ (List.cons_ne_nil _ _))
  | append_singleton events event ih =>
    rw [List.foldl_concat]
    by_cases htouches : Touches temporary key event
    · rw [left_of_touches htouches]
      constructor
      · rintro ⟨answer, rfl⟩
        exact ⟨events, answer, [], rfl, List.forall_mem_nil _⟩
      · rintro ⟨before, answer, later, heq, hlater⟩
        rcases List.eq_nil_or_concat' later with rfl | ⟨rest, last, rfl⟩
        · exact ⟨answer, (List.append_inj' heq rfl).2 |> List.cons.inj |>.1⟩
        · -- then the event would be one of those that do not touch the key
          rw [← List.cons_append, ← List.append_assoc] at heq
          obtain rfl : event = last := List.singleton_inj.mp (List.append_inj' heq rfl).2
          exact absurd htouches (hlater event (by simp))
    · rw [left_of_not_touches htouches, ih]
      constructor
      · rintro ⟨before, answer, later, rfl, hlater⟩
        refine ⟨before, answer, later ++ [event], by simp, fun other hother => ?_⟩
        rcases List.mem_append.mp hother with hother | hother
        · exact hlater other hother
        · exact List.mem_singleton.mp hother ▸ htouches
      · rintro ⟨before, answer, later, heq, hlater⟩
        rcases List.eq_nil_or_concat' later with rfl | ⟨rest, last, rfl⟩
        · obtain rfl : event = _ := List.singleton_inj.mp (List.append_inj' heq rfl).2
          exact absurd (.inl rfl) htouches
        · rw [← List.cons_append, ← List.append_assoc] at heq
          exact ⟨before, answer, rest, (List.append_inj' heq rfl).1,
            fun other hother => hlater other (List.mem_append_left _ hother)⟩

end StoreEvent

-- ---------------------------------------------------------------------------
-- One call
-- ---------------------------------------------------------------------------

namespace Store

open StoreEvent

/-- A store of either kind has the files of a writable store in memory. -/
def Mirrors : Store → MemoryStore → Prop
  | memory s, files => s = files ∧ files.readOnly = false
  | disk s, files => s.Mirrors files

theorem temporaryKey?_congr {s s' : DiskStore} (h : s'.process = s.process) :
    (disk s').temporaryKey? = (disk s).temporaryKey? := by
  funext other
  simp only [temporaryKey?, DiskStore.temporaryKey, h]

theorem mirrors_of_fresh {store : Store}
    (h : store = memory .empty ∨ ∃ process, store = disk ⟨.empty, process⟩) :
    store.Mirrors .empty := by
  rcases h with rfl | ⟨process, rfl⟩
  · exact ⟨rfl, rfl⟩
  · exact DiskStore.mirrors_empty process

variable {store : Store} {files : MemoryStore} {key : FileKey} {request : StoreCall}

namespace Mirrors

theorem read (h : store.Mirrors files) (hkey : key.check = .ok ()) :
    store.read key = match files.files.get? key with
      | some data => .ok data
      | none => .error (.notFound key.path) := by
  have hread : store.read key = files.read key := by
    cases store with
    | memory s => exact congrArg (MemoryStore.read · key) h.1
    | disk s => exact DiskStore.Mirrors.read h hkey
  rw [hread, MemoryStore.read, hkey, ok_bind]
  cases files.files.get? key <;> rfl

theorem exists? (h : store.Mirrors files) (hkey : key.check = .ok ()) :
    store.exists? key = .ok (files.files.get? key).isSome := by
  have hexists : store.exists? key = files.exists? key := by
    cases store with
    | memory s => exact congrArg (MemoryStore.exists? · key) h.1
    | disk s => exact DiskStore.Mirrors.exists? h hkey
  rw [hexists, MemoryStore.exists?, hkey, ok_bind]
  rfl

theorem metadata (h : store.Mirrors files) (hkey : key.check = .ok ()) :
    store.metadata key = .ok ((files.files.get? key).map fun data => ⟨key.name, data.length⟩) := by
  have hmetadata : store.metadata key = files.metadata key := by
    cases store with
    | memory s => exact congrArg (MemoryStore.metadata · key) h.1
    | disk s => exact DiskStore.Mirrors.metadata h hkey
  rw [hmetadata, MemoryStore.metadata, hkey, ok_bind]
  rfl

/-- What a write does, and whether it succeeds. -/
theorem call_write (h : store.Mirrors files) (hkey : key.check = .ok ()) (data : Bytes) :
    ∃ files', (store.call (.write key data)).1.Mirrors files' ∧
      (store.call (.write key data)).1.temporaryKey? = store.temporaryKey? ∧
      ((∀ other, store.temporaryKey? key = some other → other.name.utf8ByteSize ≤ maxNameLength) →
        (store.call (.write key data)).2 = .ok .done) ∧
      ∀ other, files'.files.get? other = left store.temporaryKey? other (files.files.get? other)
        (.write key data, (store.call (.write key data)).2) := by
  cases store with
  | memory s =>
    obtain ⟨rfl, hwritable⟩ := h
    have hwrite : s.write key data = .ok { s with files := s.files.put key data } := by
      rw [MemoryStore.write, hkey, ok_bind, hwritable]
      rfl
    simp only [Store.call, Store.write, hwrite]
    exact ⟨_, ⟨rfl, hwritable⟩, rfl, fun _ => rfl, fun other => Dictionary.get?_put _ _ _ _⟩
  | disk s =>
    by_cases hshort : (DiskStore.temporaryName s.process key.name).utf8ByteSize ≤ maxNameLength
    · simp only [Store.call, Store.write, DiskStore.Mirrors.write_succeeds h hkey hshort data]
      refine ⟨_, DiskStore.Mirrors.of_write h hkey hshort data, rfl, fun _ => rfl, fun other => ?_⟩
      rw [Dictionary.get?_put, Dictionary.get?_erase]
      simp only [left, Except.map, temporaryKey?, Option.some.injEq, eq_comm]
    · obtain ⟨hfails, hafter, hprocess⟩ :=
        DiskStore.Mirrors.of_write_of_long h hkey (Nat.lt_of_not_le hshort) data
      simp only [Store.call, Store.write, hfails]
      exact ⟨files, hafter, temporaryKey?_congr hprocess,
        fun hfits => absurd (hfits _ rfl) hshort, fun other => rfl⟩

/-- A delete takes away what is stored under its key. -/
theorem call_delete (h : store.Mirrors files) (hkey : key.check = .ok ()) :
    ∃ files', (store.call (.delete key)).1.Mirrors files' ∧
      (store.call (.delete key)).1.temporaryKey? = store.temporaryKey? ∧
      ∀ other, files'.files.get? other = left store.temporaryKey? other (files.files.get? other)
        (.delete key, (store.call (.delete key)).2) := by
  have herased {files' : MemoryStore} {found : Bool} (hwritable : files.readOnly = false)
      (hdelete : files.delete key = .ok (files', found)) (other : FileKey) :
      files'.files.get? other = if other = key then none else files.files.get? other := by
    rw [MemoryStore.delete, hkey, ok_bind, hwritable] at hdelete
    cases hdelete
    exact Dictionary.get?_erase _ _ _
  cases store with
  | memory s =>
    obtain ⟨rfl, hwritable⟩ := h
    have hdelete : s.delete key =
        .ok ({ s with files := s.files.erase key }, (s.files.get? key).isSome) := by
      rw [MemoryStore.delete, hkey, ok_bind, hwritable]
      rfl
    simp only [Store.call, Store.delete, hdelete]
    exact ⟨_, ⟨rfl, hwritable⟩, rfl, herased hwritable hdelete⟩
  | disk s =>
    obtain ⟨disk', files', found, hdisk, hmemory, hafter, hprocess⟩ :=
      DiskStore.Mirrors.delete h hkey
    have hcall : (disk s).call (.delete key) = (disk disk', .ok (.found found)) := by
      rw [Store.call, Store.delete, hdisk]
      rfl
    rw [hcall]
    exact ⟨files', hafter, temporaryKey?_congr hprocess,
      herased (DiskStore.Mirrors.writable h) hmemory⟩

/-- A call leaves under each key what its answer tells. -/
theorem call (h : store.Mirrors files) (hchecked : request.IsChecked) :
    ∃ files', (store.call request).1.Mirrors files' ∧
      (store.call request).1.temporaryKey? = store.temporaryKey? ∧
      ∀ key, files'.files.get? key = left store.temporaryKey? key (files.files.get? key)
        (request, (store.call request).2) := by
  cases request with
  | list | read | exists? | metadata => exact ⟨files, h, rfl, fun key => rfl⟩
  | write other data =>
    obtain ⟨files', hafter, htemporary, -, hleft⟩ := h.call_write hchecked data
    exact ⟨files', hafter, htemporary, hleft⟩
  | delete other => exact h.call_delete hchecked

end Mirrors

-- ---------------------------------------------------------------------------
-- A sequence of calls
-- ---------------------------------------------------------------------------

/-- The store after one operation after the other. -/
def after (store : Store) : List StoreCall → Store
  | [] => store
  | call :: rest => (store.call call).1.after rest

/-- The operations with what each was answered. -/
def history (store : Store) (requests : List StoreCall) : List StoreEvent :=
  requests.zip (store.answers requests)

/-- A sequence of calls leaves under each key what its answers tell, one after the other. -/
theorem Mirrors.after (h : store.Mirrors files) {requests : List StoreCall}
    (hchecked : ∀ request ∈ requests, request.IsChecked) :
    ∃ files', (store.after requests).Mirrors files' ∧
      (store.after requests).temporaryKey? = store.temporaryKey? ∧
      ∀ key, files'.files.get? key =
        (store.history requests).foldl (left store.temporaryKey? key) (files.files.get? key) := by
  induction requests generalizing store files with
  | nil => exact ⟨files, h, rfl, fun key => rfl⟩
  | cons request rest ih =>
    obtain ⟨next, hnext, htemporary, hleft⟩ := h.call (hchecked request List.mem_cons_self)
    obtain ⟨last, hlast, hsame, hfold⟩ :=
      ih hnext fun other hother => hchecked other (List.mem_cons_of_mem request hother)
    rw [htemporary] at hsame hfold
    refine ⟨last, hlast, hsame, fun key => ?_⟩
    rw [hfold, hleft]
    rfl

/-- What a fresh store gives for a key is what the last write of the key stored, as long as neither a
delete nor the temporary file of another write has touched the key since.  A call that does not touch a
key changes no answer about it, and a write fails only for its temporary name. -/
theorem reads_last_write_unless_touched
    (hfresh : store = memory .empty ∨ ∃ process, store = disk ⟨.empty, process⟩)
    {requests : List StoreCall} (hchecked : ∀ request ∈ requests, request.IsChecked)
    (hkey : key.check = .ok ()) :
    (∀ data, (store.after requests).read key = .ok data ↔
      LastWrite store.temporaryKey? key data (store.history requests)) ∧
    ((∀ data, ¬LastWrite store.temporaryKey? key data (store.history requests)) →
      (store.after requests).read key = .error (.notFound key.path)) ∧
    (∀ request, request.IsChecked →
      ¬Touches store.temporaryKey? key (request, ((store.after requests).call request).2) →
      ((store.after requests).call request).1.read key = (store.after requests).read key ∧
      ((store.after requests).call request).1.exists? key = (store.after requests).exists? key ∧
      ((store.after requests).call request).1.metadata key =
        (store.after requests).metadata key) ∧
    ∀ data, (∀ other, store.temporaryKey? key = some other →
        other.name.utf8ByteSize ≤ maxNameLength) →
      ((store.after requests).call (.write key data)).2 = .ok .done := by
  obtain ⟨files, hfiles, htemporary, hfold⟩ := (mirrors_of_fresh hfresh).after hchecked
  have hget (data : Bytes) : files.files.get? key = some data ↔
      LastWrite store.temporaryKey? key data (store.history requests) := by
    rw [hfold key, ← foldl_left_eq_some_iff]
    rfl
  have hread := hfiles.read hkey
  refine ⟨fun data => ?_, fun hnone => ?_, fun request hrequest htouches => ?_, fun data hfits => ?_⟩
  · rw [hread, ← hget]
    cases files.files.get? key with
    | none => exact iff_of_false (fun h => nomatch h) (fun h => nomatch h)
    | some found => rw [Except.ok.injEq, Option.some.injEq]
  · cases hfound : files.files.get? key with
    | none => rw [hread, hfound]
    | some found => exact absurd ((hget found).mp hfound) (hnone found)
  · obtain ⟨next, hnext, -, hleft⟩ := hfiles.call hrequest
    rw [htemporary] at hleft
    have hsame : next.files.get? key = files.files.get? key :=
      (hleft key).trans (left_of_not_touches htouches)
    rw [hnext.read hkey, hread, hnext.exists? hkey, hfiles.exists? hkey, hnext.metadata hkey,
      hfiles.metadata hkey, hsame]
    exact ⟨rfl, rfl, rfl⟩
  · obtain ⟨-, -, -, hsucceeds, -⟩ := hfiles.call_write hkey data
    rw [htemporary] at hsucceeds
    exact hsucceeds hfits

theorem reads_last_write_unless_touched_guest :
    let key : FileKey := ⟨"uploads", "guest", ".tmp-7-a"⟩
    let other : FileKey := ⟨"uploads", "guest", "a"⟩
    let store := disk ⟨.empty, 7⟩
    let kept : List StoreCall := [.write key [1], .write other [2], .write key [3], .delete other]
    let lost : List StoreCall := kept ++ [.write other [4]]
    (∀ request ∈ lost, request.IsChecked) ∧ key.check = .ok () ∧
      (store.after kept).read key = .ok [3] ∧
      LastWrite store.temporaryKey? key [3] (store.history kept) ∧
      (store.after lost).read key = .error (.notFound "uploads/guest/.tmp-7-a") ∧
      ∀ data, ¬LastWrite store.temporaryKey? key data (store.history lost) := by
  intro key other store kept lost
  have hkey : key.check = .ok () := by decide +kernel
  have hother : other.check = .ok () := by decide +kernel
  have hlost : ∀ request ∈ lost, request.IsChecked := by
    simp only [lost, kept, List.cons_append, List.nil_append, List.forall_mem_cons,
      StoreCall.IsChecked]
    exact ⟨hkey, hother, hkey, hother, hother, List.forall_mem_nil _⟩
  have hkept : ∀ request ∈ kept, request.IsChecked :=
    fun request hmem => hlost request (List.mem_append_left _ hmem)
  have hreadKept : (store.after kept).read key = .ok [3] := by decide +kernel
  have hreadLost : (store.after lost).read key =
      .error (.notFound "uploads/guest/.tmp-7-a") := by decide +kernel
  refine ⟨hlost, hkey, hreadKept, ?_, hreadLost, fun data hlast => ?_⟩
  · exact ((reads_last_write_unless_touched (.inr ⟨7, rfl⟩) hkept hkey).1 [3]).mp hreadKept
  · have hread := ((reads_last_write_unless_touched (.inr ⟨7, rfl⟩) hlost hkey).1 data).mpr hlast
    rw [hreadLost] at hread
    cases hread

/-- A write of one key destroys what is stored under another. -/
theorem write_destroys_other_file :
    let lost : FileKey := ⟨"uploads", "guest", ".tmp-7-a"⟩
    let written : FileKey := ⟨"uploads", "guest", "a"⟩
    let before := (disk ⟨.empty, 7⟩).after [.write lost [1]]
    let after := (before.call (.write written [2])).1
    lost.check = .ok () ∧ written.check = .ok () ∧ written ≠ lost ∧
      before.read lost = .ok [1] ∧ before.exists? lost = .ok true ∧
      before.metadata lost = .ok (some ⟨".tmp-7-a", 1⟩) ∧
      after.read lost = .error (.notFound "uploads/guest/.tmp-7-a") ∧
      after.exists? lost = .ok false ∧ after.metadata lost = .ok none := by
  decide +kernel

end Store

end Switchboard
