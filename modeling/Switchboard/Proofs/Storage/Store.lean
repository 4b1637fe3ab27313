import Switchboard.Proofs.Storage.Tree
import Switchboard.Proofs.Text.Quoted
import Switchboard.Storage.Store

/-!
# What writing a file changes

A write that succeeds stores its data under its key.  What is stored under other keys it spares, and so
does a write that fails; but on disk, a write goes through a temporary file, and a stored file of that
name is lost.

Main results: `Store.isWritten_of_write`, `Store.spares_of_write_error` and `Store.IsRooted.write`.
-/

namespace Switchboard

theorem length_le_of_checkName {name : String} (h : checkName name = .ok ()) :
    name.utf8ByteSize ≤ maxNameLength := by
  unfold checkName at h
  split at h
  · next hvalid =>
    simp only [isFileName, Bool.and_eq_true, decide_eq_true_eq] at hvalid
    exact hvalid.1.2
  · cases h

theorem utf8ByteSize_replicate (count : Nat) :
    (String.ofList (List.replicate count 'a')).utf8ByteSize = count := by
  induction count with
  | zero => rfl
  | succ count ih =>
    have hletter : 'a'.utf8Size = 1 := rfl
    rw [List.replicate_succ, Text.utf8ByteSize_ofList_cons, ih, hletter, Nat.add_comm]

/-- A letter that is repeated may be a name, as often as names may be long. -/
theorem checkName_replicate {count : Nat} (hcount : 2 < count) (hlength : count ≤ maxNameLength) :
    checkName (String.ofList (List.replicate count 'a')) = .ok () := by
  have hne (name : String) (h : name.utf8ByteSize ≤ 2) :
      (String.ofList (List.replicate count 'a') != name) = true := by
    rw [bne_iff_ne]
    rintro rfl
    rw [utf8ByteSize_replicate] at h
    omega
  have hname : isFileName (String.ofList (List.replicate count 'a')) = true := by
    rw [isFileName, String.toList_ofList, hne "" (by decide), hne "." (by decide),
      hne ".." (by decide), utf8ByteSize_replicate, List.all_replicate, decide_eq_true hlength]
    simp [isNameChar]
  rw [checkName, if_pos hname]

theorem checkName_of_check {key : FileKey} (h : key.check = .ok ()) :
    checkName key.scope = .ok () ∧ checkName key.owner = .ok () ∧ checkName key.name = .ok () := by
  obtain ⟨_, hscope, hrest⟩ := bind_eq_ok_iff.mp h
  obtain ⟨_, howner, hname⟩ := bind_eq_ok_iff.mp hrest
  exact ⟨hscope, howner, hname⟩

theorem areShort_owner {scope owner : String} (hscope : checkName scope = .ok ())
    (howner : checkName owner = .ok ()) : FileTree.AreShort [scope, owner] := by
  intro name hmem
  simp only [List.mem_cons, List.not_mem_nil, or_false] at hmem
  rcases hmem with rfl | rfl
  · exact length_le_of_checkName hscope
  · exact length_le_of_checkName howner

theorem areShort_components {key : FileKey} (h : key.check = .ok ()) :
    FileTree.AreShort key.components := by
  obtain ⟨hscope, howner, hname⟩ := checkName_of_check h
  intro name hmem
  simp only [FileKey.components, List.mem_cons, List.not_mem_nil, or_false] at hmem
  rcases hmem with rfl | rfl | rfl
  · exact length_le_of_checkName hscope
  · exact length_le_of_checkName howner
  · exact length_le_of_checkName hname

theorem components_inj {key other : FileKey} (h : other.components = key.components) :
    other = key := by
  obtain ⟨scope, owner, name⟩ := key
  obtain ⟨scope', owner', name'⟩ := other
  simp only [FileKey.components, List.cons.injEq, and_true] at h
  obtain ⟨rfl, rfl, rfl⟩ := h
  rfl

theorem length_components (key : FileKey) : key.components.length = 3 := rfl

theorem components_eq_concat (key : FileKey) :
    key.components = [key.scope, key.owner] ++ [key.name] := rfl

theorem components_ne_of_length {key : FileKey} {path : List String} (h : path.length ≤ 2) :
    path ≠ key.components := by
  rintro rfl
  rw [length_components] at h
  omega

-- ---------------------------------------------------------------------------
-- In memory
-- ---------------------------------------------------------------------------

namespace MemoryStore

variable {before after : MemoryStore} {key other : FileKey} {data : Bytes}

theorem write_eq_ok (h : before.write key data = .ok after) :
    key.check = .ok () ∧ after = { before with files := before.files.put key data } := by
  unfold write at h
  cases hcheck : key.check with
  | error error =>
    rw [hcheck] at h
    cases h
  | ok _ =>
    rw [hcheck] at h
    cases hreadOnly : before.readOnly with
    | true =>
      rw [hreadOnly] at h
      cases h
    | false =>
      rw [hreadOnly] at h
      cases h
      exact ⟨rfl, rfl⟩

theorem read_of_write (h : before.write key data = .ok after) : after.read key = .ok data := by
  obtain ⟨hcheck, rfl⟩ := write_eq_ok h
  rw [read, hcheck]
  dsimp only
  rw [Dictionary.get?_put, if_pos rfl]
  rfl

theorem read_of_write_ne (h : before.write key data = .ok after) (hother : other ≠ key) :
    after.read other = before.read other := by
  obtain ⟨-, rfl⟩ := write_eq_ok h
  rw [read, read]
  dsimp only
  rw [Dictionary.get?_put, if_neg hother]

end MemoryStore

-- ---------------------------------------------------------------------------
-- On disk
-- ---------------------------------------------------------------------------

namespace DiskStore

/-- The key of the temporary file through which a file is written. -/
def temporaryKey (store : DiskStore) (key : FileKey) : FileKey :=
  { key with name := temporaryName store.process key.name }

theorem temporaryKey_ne (disk : DiskStore) (key : FileKey) : disk.temporaryKey key ≠ key := by
  intro heq
  -- the temporary name is longer
  have hname : temporaryName disk.process key.name = key.name := congrArg FileKey.name heq
  have hlength := congrArg String.length hname
  rw [temporaryName, String.length_append, String.length_append, String.length_append] at hlength
  have hmark : temporaryMark.length = 5 := rfl
  omega

/-- Making the directories of an owner makes no files. -/
theorem file_of_made {tree made : FileTree} {way path : List String} {data : Bytes}
    (hmade : tree.HasMade way made) (hfile : made.at? path = some (.file data)) :
    tree.at? path = some (.file data) := by
  rcases hmade path with hsame | ⟨-, hdirectory, -⟩
  · exact hsame ▸ hfile
  · rw [hdirectory] at hfile
    cases hfile

/-- Nor does it touch the path of a key. -/
theorem at?_components_of_made {tree made : FileTree} {scope owner : String}
    (hmade : tree.HasMade [scope, owner] made) (key : FileKey) :
    made.at? key.components = tree.at? key.components := by
  rcases hmade key.components with hsame | ⟨-, -, hway⟩
  · exact hsame
  · have hle := hway.length_le
    rw [length_components] at hle
    simp at hle

/-- The tree into which the temporary file of a write is put: the directories of the owner are made,
and no directory stands in its place. -/
structure Prepares (store : DiskStore) (key : FileKey) (made : FileTree) : Prop where
  view : store.tree.HasMade [key.scope, key.owner] made
  directory : made.at? [key.scope, key.owner] = some .directory
  place : made.at? (store.temporaryKey key).components ≠ some .directory

/-- What a write does to a tree: directories are made on the way, and a write may end there with an
error.  Otherwise the temporary file takes the place of a file or of nothing, and is gone afterwards;
if the write succeeds, the data stands at its path. -/
theorem writeTree_cases {store : DiskStore} (h : store.tree.IsRooted) (key : FileKey)
    (data : Bytes) :
    (∃ made : FileTree, made.IsRooted ∧ store.tree.HasMade [key.scope, key.owner] made ∧
      store.writeTree key data = (made, .error .io)) ∨
    ∃ made after : FileTree, store.Prepares key made ∧ after.IsRooted ∧
      (store.writeTree key data = (after, .error .io) ∧ (∀ p, after.at? p =
          if p = (store.temporaryKey key).components then none else made.at? p) ∨
        store.writeTree key data = (after, .ok ()) ∧ ∀ p, after.at? p =
          if p = key.components then some (.file data)
          else if p = (store.temporaryKey key).components then none else made.at? p) := by
  unfold writeTree
  cases hmade : store.tree.makeDirectories [key.scope, key.owner] with
  | error fault => exact .inl ⟨store.tree, h, fun p => .inl rfl, rfl⟩
  | ok made =>
    obtain ⟨hrooted, hview⟩ := h.at?_of_makeAlong rfl hmade
    dsimp only
    cases hwritten : made.writeFile
        [key.scope, key.owner, temporaryName store.process key.name] data with
    | error fault => exact .inl ⟨made, hrooted, hview, rfl⟩
    | ok written =>
      obtain ⟨hdirectory, hplace, -⟩ :
          made.at? [key.scope, key.owner] = _ ∧ made.at? (store.temporaryKey key).components ≠ _ ∧ _ :=
        hrooted.of_writeFile hwritten
      have hprepares : store.Prepares key made := ⟨hview, hdirectory, hplace⟩
      dsimp only
      cases hrenamed : written.rename
          [key.scope, key.owner, temporaryName store.process key.name] key.components with
      | error fault =>
        obtain ⟨hafter, hwithdrawn⟩ := hrooted.at?_of_withdraw [key.scope, key.owner] hwritten
        exact .inr ⟨made, _, hprepares, hafter, .inl ⟨rfl, hwithdrawn⟩⟩
      | ok renamed =>
        obtain ⟨hafter, hreplaced⟩ :=
          hrooted.at?_of_replace [key.scope, key.owner] hwritten hrenamed
        exact .inr ⟨made, renamed, hprepares, hafter, .inr ⟨rfl, hreplaced⟩⟩

/-- Trees that agree at a key and on the files on the way to it hold the same there. -/
theorem read_congr {store other : DiskStore} {key : FileKey} (h : store.tree.IsRooted)
    (hother : other.tree.IsRooted)
    (hfiles : ∀ before after data, key.components = before ++ after → after ≠ [] →
      (store.tree.at? before = some (.file data) ↔ other.tree.at? before = some (.file data)))
    (hend : store.tree.at? key.components = other.tree.at? key.components) :
    store.read key = other.read key := by
  rw [read, read]
  cases hcheck : key.check with
  | error error => rfl
  | ok _ =>
    have hfind := FileTree.find_congr h hother (areShort_components hcheck) hfiles hend
    rw [FileTree.readFile, FileTree.readFile, hfind]

section Attempt

variable {before after : DiskStore} {key other : FileKey} {made : FileTree}

/-- Making directories and nothing else leaves what can be read. -/
theorem read_of_made (h : before.tree.IsRooted) (hafter : after.tree.IsRooted)
    (hmade : before.tree.HasMade [key.scope, key.owner] made)
    (hway : ∀ p, p.length ≤ 2 → after.tree.at? p = made.at? p)
    (hend : after.tree.at? other.components = made.at? other.components) :
    after.read other = before.read other := by
  refine read_congr hafter h (fun p rest found hpath hrest => ?_) ?_
  · -- above the file, at most directories are new
    have hshort : p.length ≤ 2 := by
      have hsplit := congrArg List.length hpath
      rw [length_components, List.length_append] at hsplit
      have hpos := List.length_pos_iff.mpr hrest
      omega
    rw [hway p hshort]
    rcases hmade p with hsame | ⟨hnone, hdirectory, -⟩
    · rw [hsame]
    · rw [hnone, hdirectory]
      exact iff_of_false (fun h => (nomatch h)) (fun h => (nomatch h))
  · rw [hend, at?_components_of_made hmade]

/-- Where the temporary file was used up, a stored file is lost if there was one. -/
theorem read_of_used (h : before.tree.IsRooted) (hafter : after.tree.IsRooted)
    (hprepares : before.Prepares key made)
    (hway : ∀ p, p.length ≤ 2 → after.tree.at? p = made.at? p)
    (hgone : after.tree.at? (before.temporaryKey key).components = none) :
    after.read (before.temporaryKey key) = before.read (before.temporaryKey key) ∨
      (∃ found, before.read (before.temporaryKey key) = .ok found) ∧
        after.read (before.temporaryKey key) =
          .error (.notFound (before.temporaryKey key).path) := by
  obtain ⟨hmade, hdirectory, hplace⟩ := hprepares
  rw [at?_components_of_made hmade] at hplace
  cases hcheck : (before.temporaryKey key).check with
  | error error =>
    -- no file has the name
    left
    rw [read, read, hcheck]
    rfl
  | ok _ =>
    obtain ⟨hscope, howner, hname⟩ := checkName_of_check hcheck
    cases hbefore : before.tree.at? (before.temporaryKey key).components with
    | none =>
      refine .inl (read_of_made h hafter hmade hway ?_)
      rw [hgone, at?_components_of_made hmade, hbefore]
    | some entry =>
      cases entry with
      | directory => exact absurd hbefore hplace
      | file found =>
        refine .inr ⟨⟨found, ?_⟩, ?_⟩
        · rw [read, hcheck, FileTree.readFile, h.find_of_at? (areShort_components hcheck) hbefore]
          rfl
        · -- the path ends in a directory in which nothing has the name any more
          have hparent := (hway [key.scope, key.owner] (Nat.le_refl 2)).trans hdirectory
          have hmissing : after.tree.find (before.temporaryKey key).components = .error .missing := by
            rw [components_eq_concat, hafter.find_concat (areShort_owner hscope howner) hparent,
              ← components_eq_concat, hgone, if_neg (Nat.not_lt.mpr (length_le_of_checkName hname))]
          rw [read, hcheck, FileTree.readFile, hmissing]
          rfl

/-- What can be read of another file after the temporary file was used up. -/
theorem read_of_attempt (h : before.tree.IsRooted) (hafter : after.tree.IsRooted)
    (hprepares : before.Prepares key made)
    (hway : ∀ p, p.length ≤ 2 → after.tree.at? p = made.at? p)
    (hend : after.tree.at? other.components =
      if other.components = (before.temporaryKey key).components then none
      else made.at? other.components) :
    after.read other = before.read other ∨
      before.temporaryKey key = other ∧ (∃ found, before.read other = .ok found) ∧
        after.read other = .error (.notFound other.path) := by
  by_cases htemporary : other = before.temporaryKey key
  · subst htemporary
    rw [if_pos rfl] at hend
    exact (read_of_used h hafter hprepares hway hend).imp_right fun hlost => ⟨rfl, hlost⟩
  · rw [if_neg (fun h => htemporary (components_inj h))] at hend
    exact .inl (read_of_made h hafter hprepares.view hway hend)

end Attempt

section Written

variable {before after : DiskStore} {key other : FileKey} {data : Bytes}

/-- What stands in the tree after a write that succeeds. -/
theorem write_eq_ok (h : before.tree.IsRooted) (hwrite : before.write key data = (after, .ok ())) :
    key.check = .ok () ∧ after.tree.IsRooted ∧ ∃ made : FileTree, before.Prepares key made ∧
      ∀ p, after.tree.at? p = if p = key.components then some (.file data)
        else if p = (before.temporaryKey key).components then none else made.at? p := by
  unfold write at hwrite
  cases hcheck : key.check with
  | error error =>
    rw [hcheck] at hwrite
    cases hwrite
  | ok _ =>
    rw [hcheck] at hwrite
    dsimp only at hwrite
    rcases writeTree_cases h key data with ⟨made, -, -, hfailed⟩ |
      ⟨made, written, hprepares, hrooted, ⟨hfailed, -⟩ | ⟨hwritten, hview⟩⟩
    · rw [hfailed] at hwrite
      cases hwrite
    · rw [hfailed] at hwrite
      cases hwrite
    · rw [hwritten] at hwrite
      cases hwrite
      exact ⟨rfl, hrooted, made, hprepares, hview⟩

theorem read_of_write (h : before.tree.IsRooted)
    (hwrite : before.write key data = (after, .ok ())) : after.read key = .ok data := by
  obtain ⟨hcheck, hrooted, made, -, hview⟩ := write_eq_ok h hwrite
  -- the file stands at its path, and a path leads to what stands there
  have hend : after.tree.at? key.components = some (.file data) := by
    rw [hview, if_pos rfl]
  rw [read, hcheck, FileTree.readFile, hrooted.find_of_at? (areShort_components hcheck) hend]
  rfl

/-- The temporary file is gone. -/
theorem read_of_write_temporary (h : before.tree.IsRooted)
    (hwrite : before.write key data = (after, .ok ())) (hother : other ≠ key)
    (htemporary : before.temporaryKey key = other) (found : Bytes) :
    after.read other ≠ .ok found := by
  obtain ⟨-, -, made, -, hview⟩ := write_eq_ok h hwrite
  -- nothing stands at the path, so that reading finds no file
  have hend : after.tree.at? other.components = none := by
    rw [hview, if_neg (fun h => hother (components_inj h)), if_pos (by rw [htemporary])]
  intro hread
  rw [read, FileTree.readFile] at hread
  cases hcheck : other.check with
  | error error =>
    rw [hcheck] at hread
    cases hread
  | ok _ =>
    rw [hcheck] at hread
    cases hfind : after.tree.find other.components with
    | ok entry =>
      have hentry := FileTree.at?_of_find hfind
      rw [hend] at hentry
      cases hentry
    | error fault =>
      rw [hfind] at hread
      cases fault <;> cases hread

/-- A write that succeeds leaves other files, except a stored one under the temporary name. -/
theorem read_of_write_ne (h : before.tree.IsRooted)
    (hwrite : before.write key data = (after, .ok ())) (hother : other ≠ key) :
    after.read other = before.read other ∨
      before.temporaryKey key = other ∧ (∃ found, before.read other = .ok found) ∧
        after.read other = .error (.notFound other.path) := by
  obtain ⟨-, hrooted, made, hprepares, hview⟩ := write_eq_ok h hwrite
  refine read_of_attempt h hrooted hprepares (fun p hp => ?_) ?_
  · rw [hview, if_neg (components_ne_of_length hp), if_neg (components_ne_of_length hp)]
  · rw [hview, if_neg (fun h => hother (components_inj h))]

/-- So does one that fails. -/
theorem read_of_write_error (h : before.tree.IsRooted) {error : StorageError}
    (hwrite : before.write key data = (after, .error error)) (other : FileKey) :
    after.read other = before.read other ∨
      before.temporaryKey key = other ∧ (∃ found, before.read other = .ok found) ∧
        after.read other = .error (.notFound other.path) := by
  unfold write at hwrite
  cases hcheck : key.check with
  | error error =>
    rw [hcheck] at hwrite
    cases hwrite
    exact .inl rfl
  | ok _ =>
    rw [hcheck] at hwrite
    dsimp only at hwrite
    rcases writeTree_cases h key data with ⟨made, hrooted, hmade, hfailed⟩ |
      ⟨made, withdrawn, hprepares, hrooted, ⟨hfailed, hview⟩ | ⟨hwritten, -⟩⟩
    · rw [hfailed] at hwrite
      cases hwrite
      exact .inl (read_of_made h hrooted hmade (fun p _ => rfl) rfl)
    · rw [hfailed] at hwrite
      cases hwrite
      refine read_of_attempt h hrooted hprepares (fun p hp => ?_) (hview _)
      rw [hview, if_neg (components_ne_of_length hp)]
    · rw [hwritten] at hwrite
      cases hwrite

end Written

end DiskStore

-- ---------------------------------------------------------------------------
-- Stores of either kind
-- ---------------------------------------------------------------------------

namespace Store

/-- On disk, every entry lies in a directory. -/
def IsRooted : Store → Prop
  | memory _ => True
  | disk s => s.tree.IsRooted

/-- The key of the temporary file through which a file is written, if there is one. -/
def temporaryKey? (store : Store) (key : FileKey) : Option FileKey :=
  match store with
  | memory _ => none
  | disk s => some (s.temporaryKey key)

/-- The store after a write, if there is one, whether it succeeds or not. -/
def written (store : Store) : Option (FileKey × Bytes) → Store
  | none => store
  | some (key, data) => (store.write key data).1

/-- What a write leaves of another file: what was there, except that a file which is stored under the
name of the temporary file is lost. -/
def Spares (before : Store) (key : FileKey) (after : Store) (other : FileKey) : Prop :=
  after.read other = before.read other ∨
    before.temporaryKey? key = some other ∧ (∃ found, before.read other = .ok found) ∧
      after.read other = .error (.notFound other.path)

/-- The store `after` has the given data under a key, and what `before` has under other keys.  A
temporary file that was used up is not there any more. -/
structure IsWritten (before : Store) (key : FileKey) (data : Bytes) (after : Store) : Prop where
  write : before.write key data = (after, .ok ())
  read : after.read key = .ok data
  others : ∀ other, other ≠ key → before.Spares key after other
  temporary : ∀ other, other ≠ key → before.temporaryKey? key = some other →
    ∀ found, after.read other ≠ .ok found

theorem IsRooted.write {store : Store} (h : store.IsRooted) (key : FileKey) (data : Bytes) :
    (store.write key data).1.IsRooted := by
  cases store with
  | memory s =>
    rw [Store.write]
    split
    · exact trivial
    · exact trivial
  | disk s =>
    show (s.write key data).1.tree.IsRooted
    unfold DiskStore.write
    cases key.check with
    | error error => exact h
    | ok _ =>
      dsimp only
      rcases DiskStore.writeTree_cases h key data with ⟨made, hrooted, -, hwrite⟩ |
        ⟨made, after, -, hrooted, ⟨hwrite, -⟩ | ⟨hwrite, -⟩⟩
      all_goals
        rw [hwrite]
        exact hrooted

theorem IsRooted.written {store : Store} (h : store.IsRooted) (write? : Option (FileKey × Bytes)) :
    (store.written write?).IsRooted := by
  cases write? with
  | none => exact h
  | some write => exact h.write write.1 write.2

/-- A write that succeeds stores its data under its key and spares the other files. -/
theorem isWritten_of_write {before after : Store} {key : FileKey} {data : Bytes}
    (h : before.IsRooted) (hwrite : before.write key data = (after, .ok ())) :
    before.IsWritten key data after := by
  cases before with
  | memory s =>
    cases hmemory : s.write key data with
    | error error =>
      rw [Store.write, hmemory] at hwrite
      cases hwrite
    | ok written =>
      obtain rfl : memory written = after := by
        rw [Store.write, hmemory] at hwrite
        exact congrArg Prod.fst hwrite
      exact ⟨hwrite, MemoryStore.read_of_write hmemory,
        fun other hother => .inl (MemoryStore.read_of_write_ne hmemory hother),
        fun other _ htemporary => nomatch htemporary⟩
  | disk s =>
    cases hdisk : s.write key data with
    | mk written result =>
      have hpair : (disk written, result) = (after, Except.ok ()) := by
        rw [← hwrite, Store.write, hdisk]
      cases hpair
      refine ⟨hwrite, DiskStore.read_of_write h hdisk, fun other hother => ?_,
        fun other hother htemporary => DiskStore.read_of_write_temporary h hdisk hother
          (Option.some.inj htemporary)⟩
      exact (DiskStore.read_of_write_ne h hdisk hother).imp_right fun hlost =>
        hlost.imp_left (congrArg some)

/-- In memory, a write that fails changes nothing. -/
theorem write_memory_error {s : MemoryStore} {after : Store} {key : FileKey} {data : Bytes}
    {error : StorageError} (h : (memory s).write key data = (after, .error error)) :
    after = memory s := by
  rw [Store.write] at h
  cases hwrite : s.write key data with
  | error fault =>
    rw [hwrite] at h
    exact (congrArg Prod.fst h).symm
  | ok written =>
    rw [hwrite] at h
    cases h

/-- A write that fails spares all files. -/
theorem spares_of_write_error {before after : Store} {key : FileKey} {data : Bytes}
    {error : StorageError} (h : before.IsRooted)
    (hwrite : before.write key data = (after, .error error)) (other : FileKey) :
    before.Spares key after other := by
  cases before with
  | memory s =>
    left
    rw [write_memory_error hwrite]
  | disk s =>
    cases hdisk : s.write key data with
    | mk left result =>
      have hpair : (disk left, result) = (after, Except.error error) := by
        rw [← hwrite, Store.write, hdisk]
      cases hpair
      exact (DiskStore.read_of_write_error h hdisk other).imp_right fun hlost =>
        hlost.imp_left (congrArg some)

end Store

end Switchboard
