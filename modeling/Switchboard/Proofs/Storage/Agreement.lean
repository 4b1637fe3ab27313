import Mathlib.Control.Monad.Basic
import Switchboard.Proofs.Storage.Mirror

/-!
# The two kinds of stores give the same answers

A fresh store on disk answers every sequence of calls as a fresh store in memory does, as long as the
temporary files of the disk do not come in.  They come in at three places: a stored file that is named
like a temporary one is not listed, a file cannot be written if its temporary name is too long for the
file system, and a stored file that has this temporary name is destroyed.

Main result: `Store.answers_agree_or_told_apart`.
-/

namespace Switchboard

/-- An operation of a store with its arguments. -/
inductive StoreCall where
  | list (scope owner : String)
  | read (key : FileKey)
  | write (key : FileKey) (data : Bytes)
  | delete (key : FileKey)
  | exists? (key : FileKey)
  | metadata (key : FileKey)
  deriving Repr, DecidableEq

/-- What an operation answers. -/
inductive StoreAnswer where
  | files (files : List FileInfo)
  | data (data : Bytes)
  | done
  | found (found : Bool)
  | info (info : Option FileInfo)
  deriving Repr, DecidableEq

namespace Store

/-- Carries out an operation. -/
def call (store : Store) : StoreCall → Store × Except StorageError StoreAnswer
  | .list scope owner => (store, (store.list scope owner).map .files)
  | .read key => (store, (store.read key).map .data)
  | .write key data =>
    let (after, result) := store.write key data
    (after, result.map fun _ => .done)
  | .delete key =>
    match store.delete key with
    | .ok (after, found) => (after, .ok (.found found))
    | .error error => (store, .error error)
  | .exists? key => (store, (store.exists? key).map .found)
  | .metadata key => (store, (store.metadata key).map .info)

/-- The answers to one operation after the other. -/
def answers (store : Store) : List StoreCall → List (Except StorageError StoreAnswer)
  | [] => []
  | call :: rest => (store.call call).2 :: (store.call call).1.answers rest

end Store

namespace StoreCall

/-- All names of the call can be components of a path. -/
def IsChecked : StoreCall → Prop
  | .list scope owner => checkName scope = .ok () ∧ checkName owner = .ok ()
  | .read key | .write key _ | .delete key | .exists? key | .metadata key => key.check = .ok ()

/-- Temporary files do not come in: what is listed has no hidden files, and what is written has a
temporary name that is short enough and under which nothing is stored. -/
def IsClear (process : Nat) (store : Store) : StoreCall → Prop
  | .list scope owner =>
    ∀ name data, store.read ⟨scope, owner, name⟩ = .ok data → ¬DiskStore.IsHidden name
  | .write key _ =>
    (DiskStore.temporaryName process key.name).utf8ByteSize ≤ maxNameLength ∧
      ∀ data, store.read { key with name := DiskStore.temporaryName process key.name } ≠ .ok data
  | _ => True

/-- Temporary files do not come in at any of the calls. -/
def AreClear (process : Nat) : Store → List StoreCall → Prop
  | _, [] => True
  | store, call :: rest => call.IsClear process store ∧ AreClear process (store.call call).1 rest

end StoreCall

namespace DiskStore.Mirrors

variable {disk : DiskStore} {memory : MemoryStore} {request : StoreCall}

/-- An operation at which temporary files do not come in is answered alike, and the disk goes on to
mirror the memory. -/
theorem call (h : disk.Mirrors memory) (hchecked : request.IsChecked)
    (hclear : request.IsClear disk.process (.memory memory)) :
    ∃ disk' memory' answer, (Store.disk disk).call request = (.disk disk', answer) ∧
      (Store.memory memory).call request = (.memory memory', answer) ∧ disk'.Mirrors memory' ∧
      disk'.process = disk.process := by
  cases request with
  | list scope owner =>
    obtain ⟨hscope, howner⟩ := hchecked
    have hlist : (memory.list scope owner).filter (fun info => ¬IsHidden info.filename) =
        memory.list scope owner := by
      refine List.filter_eq_self.mpr fun info hinfo => decide_eq_true ?_
      obtain ⟨data, hget, -⟩ := h.mem_owned_iff.mp (mem_list_iff.mp hinfo)
      exact hclear info.filename data (h.read_eq_ok_iff.mpr hget)
    refine ⟨disk, memory, _, ?_, rfl, h, rfl⟩
    simp only [Store.call, Store.list]
    rw [h.list hscope howner, hlist]
  | read key =>
    refine ⟨disk, memory, _, ?_, rfl, h, rfl⟩
    simp only [Store.call, Store.read]
    rw [h.read hchecked]
  | exists? key =>
    refine ⟨disk, memory, _, ?_, rfl, h, rfl⟩
    simp only [Store.call, Store.exists?]
    rw [h.exists? hchecked]
  | metadata key =>
    refine ⟨disk, memory, _, ?_, rfl, h, rfl⟩
    simp only [Store.call, Store.metadata]
    rw [h.metadata hchecked]
  | delete key =>
    obtain ⟨disk', memory', found, hdisk, hmemory, hafter, hprocess⟩ := h.delete hchecked
    refine ⟨disk', memory', .ok (.found found), ?_, ?_, hafter, hprocess⟩
    · simp only [Store.call, Store.delete]
      rw [hdisk]
      rfl
    · simp only [Store.call, Store.delete]
      rw [hmemory]
      rfl
  | write key data =>
    obtain ⟨hshort, hfree⟩ := hclear
    have hnone : memory.files.get? (disk.temporaryKey key) = none := by
      cases hget : memory.files.get? (disk.temporaryKey key) with
      | none => rfl
      | some found => exact absurd (h.read_eq_ok_iff.mpr hget) (hfree found)
    obtain ⟨disk', memory', hdisk, hmemory, hafter, hprocess⟩ := h.write hchecked hshort hnone data
    refine ⟨disk', memory', .ok .done, ?_, ?_, hafter, hprocess⟩
    · simp only [Store.call, Store.write]
      rw [hdisk]
      rfl
    · simp only [Store.call, Store.write]
      rw [hmemory]
      rfl

/-- After an operation at which temporary files come in, the answers differ or a file does. -/
theorem told_apart (h : disk.Mirrors memory) (hchecked : request.IsChecked)
    (hclear : ¬request.IsClear disk.process (.memory memory)) :
    ∃ key : FileKey, key.check = .ok () ∧ (Store.disk disk).answers [request, .read key] ≠
      (Store.memory memory).answers [request, .read key] := by
  cases request with
  | list scope owner =>
    obtain ⟨hscope, howner⟩ := hchecked
    simp only [StoreCall.IsClear, Classical.not_forall, Classical.not_not] at hclear
    obtain ⟨name, data, hread, hhidden⟩ := hclear
    have hget := h.read_eq_ok_iff.mp hread
    refine ⟨⟨scope, owner, name⟩, h.checked _ data hget, fun hsame => ?_⟩
    -- the memory lists the hidden file
    have hmem : ⟨name, data.length⟩ ∈ memory.list scope owner :=
      mem_list_iff.mpr (h.mem_owned_iff.mpr ⟨data, hget, rfl⟩)
    have hlists := (List.cons.inj hsame).1
    simp only [Store.call, Store.list] at hlists
    rw [h.list hscope howner] at hlists
    injection hlists with hlists
    injection hlists with hlists
    rw [← hlists, List.mem_filter, decide_eq_true_iff] at hmem
    exact hmem.2 hhidden
  | write key data =>
    by_cases hshort : (temporaryName disk.process key.name).utf8ByteSize ≤ maxNameLength
    · simp only [StoreCall.IsClear, hshort, true_and, Classical.not_forall, Ne,
        Classical.not_not] at hclear
      obtain ⟨found, hread⟩ := hclear
      refine ⟨disk.temporaryKey key, h.checked _ found (h.read_eq_ok_iff.mp hread), fun hsame => ?_⟩
      -- the memory still has the file with the temporary name
      have hne : disk.temporaryKey key ≠ key := temporaryKey_ne disk key
      have hkept := MemoryStore.read_of_write_ne (h.memory_write hchecked data) hne
      rw [show memory.read (disk.temporaryKey key) = .ok found from hread] at hkept
      have hreads := (List.cons.inj (List.cons.inj hsame).2).1
      simp only [Store.call, Store.write, Store.read, h.memory_write hchecked data,
        h.write_succeeds hchecked hshort data, hkept] at hreads
      -- on disk it was used up
      have hlost := read_of_write_temporary h.rooted (h.write_succeeds hchecked hshort data) hne rfl
      generalize DiskStore.read _ (disk.temporaryKey key) = answer at hreads hlost
      cases answer with
      | ok left => exact hlost left rfl
      | error error => cases hreads
    · refine ⟨key, hchecked, fun hsame => ?_⟩
      have hwrites := (List.cons.inj hsame).1
      simp only [Store.call, Store.write, h.memory_write hchecked data,
        (h.of_write_of_long hchecked (Nat.lt_of_not_le hshort) data).1] at hwrites
      cases hwrites
  | read key => exact absurd trivial hclear
  | delete key => exact absurd trivial hclear
  | exists? key => exact absurd trivial hclear
  | metadata key => exact absurd trivial hclear

variable {requests : List StoreCall}

/-- One call after the other is answered alike if temporary files do not come in. -/
theorem answers (h : disk.Mirrors memory) (hchecked : ∀ request ∈ requests, request.IsChecked)
    (hclear : StoreCall.AreClear disk.process (.memory memory) requests) :
    (Store.disk disk).answers requests = (Store.memory memory).answers requests := by
  induction requests generalizing disk memory with
  | nil => rfl
  | cons request rest ih =>
    obtain ⟨disk', memory', answer, hdisk, hmemory, hafter, hprocess⟩ :=
      h.call (hchecked request List.mem_cons_self) hclear.1
    have hrest := hclear.2
    rw [hmemory, ← hprocess] at hrest
    rw [Store.answers, Store.answers, hdisk, hmemory]
    exact congrArg (answer :: ·)
      (ih hafter (fun r hr => hchecked r (List.mem_cons_of_mem request hr)) hrest)

/-- The first call at which they come in can be told by its answer or by a file. -/
theorem answers_ne (h : disk.Mirrors memory) (hchecked : ∀ request ∈ requests, request.IsChecked)
    (hclear : ¬StoreCall.AreClear disk.process (.memory memory) requests) :
    ∃ n, ∃ key : FileKey, key.check = .ok () ∧
      (Store.disk disk).answers (requests.take n ++ [.read key]) ≠
        (Store.memory memory).answers (requests.take n ++ [.read key]) := by
  induction requests generalizing disk memory with
  | nil => exact absurd trivial hclear
  | cons request rest ih =>
    have hfirst := hchecked request List.mem_cons_self
    by_cases hhead : request.IsClear disk.process (.memory memory)
    · obtain ⟨disk', memory', answer, hdisk, hmemory, hafter, hprocess⟩ := h.call hfirst hhead
      have hrest : ¬StoreCall.AreClear disk'.process (.memory memory') rest := by
        intro hrest
        refine hclear ⟨hhead, ?_⟩
        rw [hmemory, ← hprocess]
        exact hrest
      obtain ⟨n, key, hkey, hne⟩ :=
        ih hafter (fun r hr => hchecked r (List.mem_cons_of_mem request hr)) hrest
      refine ⟨n + 1, key, hkey, fun hsame => hne ?_⟩
      rw [List.take_succ_cons, List.cons_append, Store.answers, Store.answers, hdisk, hmemory]
        at hsame
      exact (List.cons.inj hsame).2
    · obtain ⟨key, hkey, hne⟩ := h.told_apart hfirst hhead
      exact ⟨1, key, hkey, hne⟩

end DiskStore.Mirrors

namespace Store

open DiskStore (mirrors_empty)

/-- A fresh disk and a fresh memory answer the same calls alike as long as temporary files do not come
in.  When they do, the two can be told apart right after by reading one file. -/
theorem answers_agree_or_told_apart (process : Nat) {requests : List StoreCall}
    (hchecked : ∀ request ∈ requests, request.IsChecked) :
    (StoreCall.AreClear process (.memory .empty) requests →
      (disk ⟨.empty, process⟩).answers requests = (memory .empty).answers requests) ∧
    (¬StoreCall.AreClear process (.memory .empty) requests → ∃ n, ∃ key : FileKey,
      key.check = .ok () ∧ (disk ⟨.empty, process⟩).answers (requests.take n ++ [.read key]) ≠
        (memory .empty).answers (requests.take n ++ [.read key])) :=
  ⟨(mirrors_empty process).answers hchecked, (mirrors_empty process).answers_ne hchecked⟩

theorem answers_agree_or_told_apart_upload :
    let key : FileKey := ⟨"uploads", "guest", "a.txt"⟩
    let clear : List StoreCall := [.write key [1, 2], .read key, .delete key, .exists? key]
    let hidden : List StoreCall := [.write { key with name := ".tmp-x" } [1], .list "uploads" "guest"]
    (∀ request ∈ clear ++ hidden, request.IsChecked) ∧
      StoreCall.AreClear 7 (.memory .empty) clear ∧
      (disk ⟨.empty, 7⟩).answers clear = (memory .empty).answers clear ∧
      ¬StoreCall.AreClear 7 (.memory .empty) hidden ∧
      ∃ n, ∃ other : FileKey, other.check = .ok () ∧
        (disk ⟨.empty, 7⟩).answers (hidden.take n ++ [.read other]) ≠
          (memory .empty).answers (hidden.take n ++ [.read other]) := by
  intro key clear hidden
  have hchecked : ∀ request ∈ clear ++ hidden, request.IsChecked := by
    simp only [clear, hidden, key, List.cons_append, List.nil_append, List.forall_mem_cons,
      StoreCall.IsChecked]
    refine ⟨?_, ?_, ?_, ?_, ?_, ⟨?_, ?_⟩, List.forall_mem_nil _⟩ <;> decide +kernel
  have hclear : StoreCall.AreClear 7 (.memory .empty) clear := by
    refine ⟨⟨by decide +kernel, fun data hread => ?_⟩, trivial, trivial, trivial, trivial⟩
    have hmissing : (memory .empty).read { key with name := DiskStore.temporaryName 7 key.name } =
        .error (.notFound "uploads/guest/.tmp-7-a.txt") := by decide +kernel
    rw [hmissing] at hread
    cases hread
  have hhidden : ¬StoreCall.AreClear 7 (.memory .empty) hidden := by
    intro h
    exact h.2.1 ".tmp-x" [1] (by decide +kernel) (by decide +kernel)
  exact ⟨hchecked, hclear,
    (answers_agree_or_told_apart 7 fun r hr => hchecked r (List.mem_append_left hidden hr)).1 hclear,
    hhidden,
    (answers_agree_or_told_apart 7 fun r hr => hchecked r (List.mem_append_right clear hr)).2 hhidden⟩

/-- A file whose temporary name is too long goes into the memory only. -/
theorem answers_of_long (process : Nat) {key : FileKey} (hcheck : key.check = .ok ())
    (hlong : maxNameLength < (DiskStore.temporaryName process key.name).utf8ByteSize)
    (data : Bytes) :
    (disk ⟨.empty, process⟩).answers [.write key data] = [.error .io] ∧
      (memory .empty).answers [.write key data] = [.ok .done] := by
  have hdisk := ((mirrors_empty process).of_write_of_long hcheck hlong data).1
  have hmemory := (mirrors_empty process).memory_write hcheck data
  constructor
  · simp only [answers, call, write]
    rw [hdisk]
    rfl
  · simp only [answers, call, write]
    rw [hmemory]
    rfl

/-- The longest file name of one letter is in order. -/
theorem check_longest : (FileKey.mk "uploads" "guest" (String.ofList (List.replicate 255 'a'))).check =
    .ok () := by
  have hname : checkName (String.ofList (List.replicate 255 'a')) = .ok () :=
    checkName_replicate (by decide) (by decide)
  have howner : checkName "guest" = .ok () := by decide +kernel
  have hscope : checkName "uploads" = .ok () := by decide +kernel
  simp only [FileKey.check, hname, howner, hscope, ok_bind]

/-- A stored file that is hidden, one that is lost, and one that is not stored at all. -/
theorem stored_files_unlike_memory :
    let owned (name : String) : FileKey := ⟨"uploads", "guest", name⟩
    let hidden : List StoreCall := [.write (owned ".tmp-x") [1], .list "uploads" "guest"]
    let lost : List StoreCall :=
      [.write (owned ".tmp-7-a") [1], .write (owned "a") [2], .read (owned ".tmp-7-a")]
    let long : List StoreCall := [.write (owned (String.ofList (List.replicate 255 'a'))) [1]]
    (∀ request ∈ hidden ++ lost ++ long, request.IsChecked) ∧
      (disk ⟨.empty, 7⟩).answers hidden = [.ok .done, .ok (.files [])] ∧
      (memory .empty).answers hidden = [.ok .done, .ok (.files [⟨".tmp-x", 1⟩])] ∧
      (disk ⟨.empty, 7⟩).answers lost =
        [.ok .done, .ok .done, .error (.notFound "uploads/guest/.tmp-7-a")] ∧
      (memory .empty).answers lost = [.ok .done, .ok .done, .ok (.data [1])] ∧
      (disk ⟨.empty, 7⟩).answers long = [.error .io] ∧
      (memory .empty).answers long = [.ok .done] := by
  intro owned hidden lost long
  have hlong := answers_of_long 7 check_longest (by decide +kernel) [1]
  refine ⟨?_, by decide +kernel, by decide +kernel, by decide +kernel, by decide +kernel, hlong⟩
  simp only [hidden, long, lost, owned, List.cons_append, List.nil_append, List.forall_mem_cons,
    StoreCall.IsChecked]
  exact ⟨by decide +kernel, ⟨by decide +kernel, by decide +kernel⟩, by decide +kernel,
    by decide +kernel, by decide +kernel, check_longest, List.forall_mem_nil _⟩

end Store

end Switchboard
