import Switchboard.Proofs.Storage.Store

/-!
# A store on disk and the store in memory that it mirrors

A disk that is used as a store only has directories down to the owners and files below them.  It
mirrors a store in memory if it has a file at the path of each key that the memory has, with the same
contents, and no other files.  While it does, both answer alike, except where temporary files come in:
a file that is named like one is not listed, and a write fails if the name of its temporary file is too
long, or destroys a stored file of that name.

Main results: `DiskStore.Mirrors.find`, from which reading follows, `DiskStore.Mirrors.of_write` and
`DiskStore.Mirrors.of_write_of_long`, `DiskStore.Mirrors.delete` and `DiskStore.Mirrors.list`.
-/

namespace Switchboard

-- ---------------------------------------------------------------------------
-- Keys and lists
-- ---------------------------------------------------------------------------

theorem FileInfo.pairwise_sort (files : List FileInfo) :
    (FileInfo.sort files).Pairwise fun a b => a.filename ≤ b.filename := by
  have htrans : ∀ a b c : FileInfo, decide (a.filename ≤ b.filename) = true →
      decide (b.filename ≤ c.filename) = true → decide (a.filename ≤ c.filename) = true := by
    intro a b c hab hbc
    rw [decide_eq_true_iff] at *
    exact String.le_trans hab hbc
  have htotal : ∀ a b : FileInfo,
      (decide (a.filename ≤ b.filename) || decide (b.filename ≤ a.filename)) = true := by
    intro a b
    rw [Bool.or_eq_true, decide_eq_true_iff, decide_eq_true_iff]
    exact String.le_total a.filename b.filename
  exact (List.pairwise_mergeSort htrans htotal files).imp of_decide_eq_true

/-- Files in the order of their names are put in order. -/
theorem FileInfo.sort_eq {files sorted : List FileInfo} (hperm : files.Perm sorted)
    (hsorted : sorted.Pairwise fun a b => a.filename ≤ b.filename)
    (hname : ∀ a ∈ sorted, ∀ b ∈ sorted, a.filename = b.filename → a = b) :
    FileInfo.sort files = sorted := by
  have hsort := FileInfo.pairwise_sort files
  have hboth : (FileInfo.sort files).Perm sorted := (List.mergeSort_perm files _).trans hperm
  refine hboth.eq_of_pairwise ?_ hsort hsorted
  intro a b ha hb hab hba
  exact hname a (hboth.subset ha) b hb (String.le_antisymm hab hba)

namespace DiskStore

/-- Whether a file of the given name is left out of listings, as temporary files are. -/
def IsHidden (name : String) : Prop :=
  temporaryMark.toList.isPrefixOf name.toList

instance (name : String) : Decidable (IsHidden name) :=
  inferInstanceAs (Decidable (_ = true))

-- ---------------------------------------------------------------------------
-- The relation
-- ---------------------------------------------------------------------------

/-- A disk that has the files of a store in memory. -/
structure Mirrors (disk : DiskStore) (memory : MemoryStore) : Prop where
  rooted : disk.tree.IsRooted
  distinct : disk.tree.IsDistinct
  /-- Files stand only at the paths of keys. -/
  shallow : ∀ path, path.length ≤ 2 → ∀ data, disk.tree.at? path ≠ some (.file data)
  files : ∀ key : FileKey, disk.tree.at? key.components = (memory.files.get? key).map .file
  keys : memory.files.keys.Nodup
  checked : ∀ key data, memory.files.get? key = some data → key.check = .ok ()
  writable : memory.readOnly = false

theorem mirrors_empty (process : Nat) : Mirrors ⟨.empty, process⟩ .empty where
  rooted := FileTree.isRooted_empty
  distinct := FileTree.isDistinct_empty
  shallow path _ data h := by
    rw [FileTree.at?] at h
    split at h
    · cases h
    · cases h
  files _ := rfl
  keys := List.nodup_nil
  checked _ _ h := nomatch h
  writable := rfl

variable {disk : DiskStore} {memory : MemoryStore} {key : FileKey} {data : Bytes}

namespace Mirrors

-- ---------------------------------------------------------------------------
-- Reading
-- ---------------------------------------------------------------------------

/-- The path of a key leads to the file that the memory has. -/
theorem find (h : disk.Mirrors memory) (hcheck : key.check = .ok ()) :
    disk.tree.find key.components = match memory.files.get? key with
      | some data => .ok (.file data)
      | none => .error .missing := by
  have hfree : ∀ before, before <+: key.components → before ≠ key.components → ∀ data,
      disk.tree.at? before ≠ some (.file data) := by
    intro before hbefore hne
    have hle := hbefore.length_le
    rw [length_components] at hle
    have hlength : before.length ≠ 3 := fun heq => hne (hbefore.eq_of_length heq)
    exact h.shallow before (by omega)
  rw [h.rooted.find_of_free (areShort_components hcheck) hfree, h.files key]
  cases memory.files.get? key with
  | none => rfl
  | some data => rfl

theorem readFile (h : disk.Mirrors memory) (hcheck : key.check = .ok ()) :
    disk.tree.readFile key.components = match memory.files.get? key with
      | some data => .ok data
      | none => .error .missing := by
  rw [FileTree.readFile, h.find hcheck]
  cases memory.files.get? key with
  | none => rfl
  | some data => rfl

theorem read (h : disk.Mirrors memory) (hcheck : key.check = .ok ()) :
    disk.read key = memory.read key := by
  rw [DiskStore.read, MemoryStore.read, hcheck, ok_bind, ok_bind, h.readFile hcheck]
  cases memory.files.get? key with
  | none => rfl
  | some data => rfl

theorem exists? (h : disk.Mirrors memory) (hcheck : key.check = .ok ()) :
    disk.exists? key = memory.exists? key := by
  rw [DiskStore.exists?, MemoryStore.exists?, hcheck, ok_bind, ok_bind, h.readFile hcheck]
  cases memory.files.get? key with
  | none => rfl
  | some data => rfl

theorem metadata (h : disk.Mirrors memory) (hcheck : key.check = .ok ()) :
    disk.metadata key = memory.metadata key := by
  rw [DiskStore.metadata, MemoryStore.metadata, hcheck, ok_bind, ok_bind, h.find hcheck]
  cases memory.files.get? key with
  | none => rfl
  | some data => rfl

/-- A key under which the memory has a file is in order. -/
theorem read_eq_ok_iff (h : disk.Mirrors memory) :
    memory.read key = .ok data ↔ memory.files.get? key = some data := by
  constructor
  · intro hread
    obtain ⟨_, -, hget⟩ := bind_eq_ok_iff.mp hread
    cases hfile : memory.files.get? key with
    | none =>
      rw [hfile] at hget
      cases hget
    | some found =>
      rw [hfile] at hget
      cases hget
      rfl
  · intro hget
    rw [MemoryStore.read, h.checked key data hget, ok_bind, hget]
    rfl

-- ---------------------------------------------------------------------------
-- Deleting
-- ---------------------------------------------------------------------------

/-- Files that are the same at each key stay so where one is taken away. -/
theorem erase (h : disk.Mirrors memory) (key : FileKey) :
    Mirrors { disk with tree := disk.tree.remove key.components }
      { memory with files := memory.files.erase key } := by
  have hne : key.components ≠ [] := List.cons_ne_nil _ _
  refine ⟨?_, h.distinct.remove _, ?_, ?_, Dictionary.nodup_keys_erase h.keys key, ?_, h.writable⟩
  · refine h.rooted.remove hne ?_
    rw [h.files key]
    cases memory.files.get? key with
    | none => exact fun h => (nomatch h)
    | some data => exact fun h => (nomatch h)
  · intro path hpath data
    show (disk.tree.remove key.components).at? path ≠ _
    rw [FileTree.at?_remove _ hne, if_neg (components_ne_of_length hpath)]
    exact h.shallow path hpath data
  · intro other
    show (disk.tree.remove key.components).at? other.components = _
    rw [FileTree.at?_remove _ hne, Dictionary.get?_erase]
    by_cases heq : other = key
    · rw [heq, if_pos rfl, if_pos rfl]
      rfl
    · rw [if_neg (fun hc => heq (components_inj hc)), if_neg heq]
      exact h.files other
  · intro other data hget
    rw [Dictionary.get?_erase] at hget
    split at hget
    · cases hget
    · exact h.checked other data hget

/-- What is mirrored is what the memory answers, in whatever order it keeps its files. -/
theorem congr (h : disk.Mirrors memory) {other : MemoryStore}
    (hview : ∀ key, other.files.get? key = memory.files.get? key) (hkeys : other.files.keys.Nodup)
    (hwritable : other.readOnly = false) : disk.Mirrors other where
  rooted := h.rooted
  distinct := h.distinct
  shallow := h.shallow
  files key := by
    rw [hview]
    exact h.files key
  keys := hkeys
  checked key data hget := by
    rw [hview] at hget
    exact h.checked key data hget
  writable := hwritable

/-- Erasing a key without a file changes nothing that can be seen. -/
theorem erase_none (h : disk.Mirrors memory) (hnone : memory.files.get? key = none) :
    disk.Mirrors { memory with files := memory.files.erase key } := by
  refine h.congr (fun other => ?_) (Dictionary.nodup_keys_erase h.keys key) h.writable
  rw [Dictionary.get?_erase]
  split
  · next heq => rw [heq, hnone]
  · rfl

theorem delete (h : disk.Mirrors memory) (hcheck : key.check = .ok ()) :
    ∃ disk' memory' found, disk.delete key = .ok (disk', found) ∧
      memory.delete key = .ok (memory', found) ∧ disk'.Mirrors memory' ∧
      disk'.process = disk.process := by
  have hmemory : memory.delete key =
      .ok ({ memory with files := memory.files.erase key }, (memory.files.get? key).isSome) := by
    rw [MemoryStore.delete, hcheck, ok_bind, h.writable]
    rfl
  rw [hmemory, DiskStore.delete, hcheck, ok_bind, FileTree.removeFile, h.readFile hcheck]
  cases hget : memory.files.get? key with
  | some data => exact ⟨_, _, _, rfl, rfl, h.erase key, rfl⟩
  | none => exact ⟨_, _, _, rfl, rfl, h.erase_none hget, rfl⟩

-- ---------------------------------------------------------------------------
-- Writing
-- ---------------------------------------------------------------------------

theorem isDistinct_writeTree (h : disk.Mirrors memory) (key : FileKey) (data : Bytes) :
    (disk.writeTree key data).1.IsDistinct := by
  unfold writeTree
  split
  · exact h.distinct
  · next made hmade =>
    have hdistinct := h.distinct.of_makeAlong hmade
    dsimp only
    split
    · exact hdistinct
    · next written hwritten =>
      have hdistinct' := hdistinct.of_writeFile hwritten
      split
      · next renamed hrenamed => exact hdistinct'.of_rename hrenamed
      · exact hdistinct'.remove _

section Write

variable (h : disk.Mirrors memory) (hcheck : key.check = .ok ())
include h hcheck

/-- The directories of an owner can be made, and there are only files in them. -/
theorem makeDirectories : ∃ made, disk.tree.makeDirectories [key.scope, key.owner] = .ok made ∧
    made.IsRooted ∧ made.at? [key.scope, key.owner] = some .directory ∧
    ∀ name, made.at? [key.scope, key.owner, name] ≠ some .directory := by
  obtain ⟨hscope, howner, -⟩ := checkName_of_check hcheck
  have hfree : ∀ before, before <+: [key.scope, key.owner] → ∀ data,
      disk.tree.at? before ≠ some (.file data) :=
    fun before hbefore => h.shallow before hbefore.length_le
  obtain ⟨made, hmade, hdirectory⟩ :=
    h.rooted.makeAlong_succeeds [] (areShort_owner hscope howner) rfl hfree
  obtain ⟨hrooted, hview⟩ := h.rooted.at?_of_makeAlong rfl hmade
  refine ⟨made, hmade, hrooted, hdirectory, fun name hdir => ?_⟩
  have hfile := h.files { key with name }
  rw [← at?_components_of_made hview, FileKey.components, hdir] at hfile
  cases hget : memory.files.get? { key with name } with
  | none =>
    rw [hget] at hfile
    cases hfile
  | some found =>
    rw [hget] at hfile
    cases hfile

/-- A write succeeds if the name of the temporary file is not too long. -/
theorem writeTree_succeeds
    (hshort : (temporaryName disk.process key.name).utf8ByteSize ≤ maxNameLength) (data : Bytes) :
    (disk.writeTree key data).2 = .ok () := by
  obtain ⟨hscope, howner, -⟩ := checkName_of_check hcheck
  obtain ⟨made, hmade, hrooted, hdirectory, hplace⟩ := h.makeDirectories hcheck
  have htemporary : FileTree.AreShort
      ([key.scope, key.owner] ++ [temporaryName disk.process key.name]) :=
    FileTree.areShort_concat (areShort_owner hscope howner) hshort
  have hne : [key.scope, key.owner] ++ [temporaryName disk.process key.name] ≠ [] :=
    List.concat_ne_nil _ _
  have hwritten : made.writeFile [key.scope, key.owner, temporaryName disk.process key.name] data =
      .ok (made.put [key.scope, key.owner, temporaryName disk.process key.name] (.file data)) :=
    hrooted.writeFile_eq_ok htemporary hdirectory (hplace _)
  -- the temporary file is there and the name is free for a file, so that it can be renamed
  have hput : (made.put ([key.scope, key.owner] ++ [temporaryName disk.process key.name])
      (.file data)).IsRooted := hrooted.put hdirectory (.inr (hplace _))
  have hkey : FileTree.AreShort ([key.scope, key.owner] ++ [key.name]) := areShort_components hcheck
  have hfree : (made.put ([key.scope, key.owner] ++ [temporaryName disk.process key.name])
      (.file data)).at? ([key.scope, key.owner] ++ [key.name]) ≠ some .directory := by
    rw [FileTree.at?_put made hne]
    split
    · exact fun h => (nomatch h)
    · exact hplace _
  have hrenamed := hput.rename_eq_ok htemporary hkey
    (by rw [FileTree.at?_put made hne, if_pos rfl]) hfree
  simp only [List.cons_append, List.nil_append] at hrenamed
  rw [writeTree, hmade]
  dsimp only
  rw [hwritten]
  dsimp only
  rw [FileKey.components, hrenamed]

theorem write_succeeds
    (hshort : (temporaryName disk.process key.name).utf8ByteSize ≤ maxNameLength) (data : Bytes) :
    disk.write key data = ({ disk with tree := (disk.writeTree key data).1 }, .ok ()) := by
  rw [DiskStore.write, hcheck]
  dsimp only
  rw [h.writeTree_succeeds hcheck hshort]

theorem memory_write (data : Bytes) :
    memory.write key data = .ok { memory with files := memory.files.put key data } := by
  rw [MemoryStore.write, hcheck, ok_bind, h.writable]
  rfl

/-- After a write that succeeds, the file is there and one with the temporary name is not. -/
theorem of_write (hshort : (temporaryName disk.process key.name).utf8ByteSize ≤ maxNameLength)
    (data : Bytes) :
    Mirrors { disk with tree := (disk.writeTree key data).1 }
      { memory with files := (memory.files.erase (disk.temporaryKey key)).put key data } := by
  obtain ⟨-, hrooted, made, hprepares, hview⟩ :=
    write_eq_ok h.rooted (h.write_succeeds hcheck hshort data)
  refine ⟨hrooted, h.isDistinct_writeTree key data, ?_, ?_, ?_, ?_, h.writable⟩
  · intro path hpath found
    rw [hview, if_neg (components_ne_of_length hpath), if_neg (components_ne_of_length hpath)]
    exact fun hfile => h.shallow path hpath found (file_of_made hprepares.view hfile)
  · intro other
    rw [hview, Dictionary.get?_put, Dictionary.get?_erase]
    by_cases hkey : other = key
    · rw [hkey, if_pos rfl, if_pos rfl]
      rfl
    · rw [if_neg (fun hc => hkey (components_inj hc)), if_neg hkey]
      by_cases htemporary : other = disk.temporaryKey key
      · rw [htemporary, if_pos rfl, if_pos rfl]
        rfl
      · rw [if_neg (fun hc => htemporary (components_inj hc)), if_neg htemporary,
          at?_components_of_made hprepares.view]
        exact h.files other
  · exact Dictionary.nodup_keys_put (Dictionary.nodup_keys_erase h.keys _) key data
  · intro other found hget
    rw [Dictionary.get?_put, Dictionary.get?_erase] at hget
    split at hget
    · next heq => exact heq ▸ hcheck
    · split at hget
      · cases hget
      · exact h.checked other found hget

/-- A write goes as in memory if the name of the temporary file is not too long and no file has it. -/
theorem write (hshort : (temporaryName disk.process key.name).utf8ByteSize ≤ maxNameLength)
    (hfree : memory.files.get? (disk.temporaryKey key) = none) (data : Bytes) :
    ∃ disk' memory', disk.write key data = (disk', .ok ()) ∧
      memory.write key data = .ok memory' ∧ disk'.Mirrors memory' ∧
      disk'.process = disk.process := by
  refine ⟨_, _, h.write_succeeds hcheck hshort data, h.memory_write hcheck data, ?_, rfl⟩
  refine (h.of_write hcheck hshort data).congr (fun other => ?_)
    (Dictionary.nodup_keys_put h.keys key data) h.writable
  rw [Dictionary.get?_put, Dictionary.get?_put, Dictionary.get?_erase]
  split
  · rfl
  · split
    · next heq => rw [heq, hfree]
    · rfl

/-- A write that fails for its long temporary name has made directories at most. -/
theorem of_write_of_long
    (hlong : maxNameLength < (temporaryName disk.process key.name).utf8ByteSize) (data : Bytes) :
    (disk.write key data).2 = .error .io ∧ (disk.write key data).1.Mirrors memory ∧
      (disk.write key data).1.process = disk.process := by
  obtain ⟨hscope, howner, -⟩ := checkName_of_check hcheck
  obtain ⟨made, hmade, -, hdirectory, -⟩ := h.makeDirectories hcheck
  obtain ⟨hrooted, hview⟩ := h.rooted.at?_of_makeAlong rfl hmade
  have hwritten : made.writeFile [key.scope, key.owner, temporaryName disk.process key.name] data =
      .error .refused :=
    hrooted.writeFile_of_long data (areShort_owner hscope howner) hdirectory hlong
  have hwrite : disk.write key data = ({ disk with tree := made }, .error .io) := by
    rw [DiskStore.write, hcheck]
    dsimp only
    rw [writeTree, hmade]
    dsimp only
    rw [hwritten]
  rw [hwrite]
  refine ⟨rfl, ⟨hrooted, h.distinct.of_makeAlong hmade, ?_, ?_, h.keys, h.checked, h.writable⟩, rfl⟩
  · exact fun path hpath found hfile => h.shallow path hpath found (file_of_made hview hfile)
  · exact fun other => (at?_components_of_made hview other).trans (h.files other)

end Write

-- ---------------------------------------------------------------------------
-- Listing
-- ---------------------------------------------------------------------------

section List

variable {scope owner : String}

/-- The files of an owner in memory, before they are put in order. -/
def owned (memory : MemoryStore) (scope owner : String) : List FileInfo :=
  memory.files.entries.filterMap fun (key, data) =>
    if key.scope = scope ∧ key.owner = owner then some ⟨key.name, data.length⟩ else none

theorem mem_owned_iff (h : disk.Mirrors memory) {info : FileInfo} :
    info ∈ owned memory scope owner ↔ ∃ data,
      memory.files.get? ⟨scope, owner, info.filename⟩ = some data ∧ info.size = data.length := by
  rw [owned, List.mem_filterMap]
  constructor
  · rintro ⟨⟨key, data⟩, hmem, hinfo⟩
    dsimp only at hinfo
    split at hinfo
    · next howned =>
      obtain ⟨rfl, rfl⟩ := howned
      cases hinfo
      exact ⟨data, (Dictionary.mem_entries_iff h.keys).mp hmem, rfl⟩
    · cases hinfo
  · rintro ⟨data, hget, hsize⟩
    refine ⟨_, (Dictionary.mem_entries_iff h.keys).mpr hget, ?_⟩
    dsimp only
    rw [if_pos ⟨rfl, rfl⟩, ← hsize]

theorem nodup_owned (h : disk.Mirrors memory) : (owned memory scope owner).Nodup := by
  refine Dictionary.nodup_filterMap h.keys ?_
  rintro ⟨⟨_, _, name⟩, data⟩ ⟨⟨_, _, other⟩, data'⟩ info hinfo hother
  dsimp only at hinfo hother
  split at hinfo
  · next hkey =>
    split at hother
    · next hkey' =>
      obtain ⟨rfl, rfl⟩ := hkey
      obtain ⟨rfl, rfl⟩ := hkey'
      have hname := congrArg FileInfo.filename (Option.some.inj (hinfo.trans hother.symm))
      dsimp only at hname
      rw [hname]
    · cases hother
  · cases hinfo

/-- A file of the owner is known by its name. -/
theorem eq_of_mem_owned (h : disk.Mirrors memory) {info other : FileInfo}
    (hinfo : info ∈ owned memory scope owner) (hother : other ∈ owned memory scope owner)
    (hname : info.filename = other.filename) : info = other := by
  obtain ⟨data, hget, hsize⟩ := h.mem_owned_iff.mp hinfo
  obtain ⟨data', hget', hsize'⟩ := h.mem_owned_iff.mp hother
  rw [← hname, hget] at hget'
  cases hget'
  obtain ⟨filename, size⟩ := info
  obtain ⟨filename', size'⟩ := other
  cases hname
  cases hsize
  cases hsize'
  rfl

/-- What the disk tells of an entry of a directory. -/
def shown : String × TreeEntry → Option FileInfo
  | (name, .file data) => if IsHidden name then none else some ⟨name, data.length⟩
  | (_, .directory) => none

theorem shown_eq_some_iff {below : String × TreeEntry} {info : FileInfo} :
    shown below = some info ↔ ∃ data, below = (info.filename, .file data) ∧
      ¬IsHidden info.filename ∧ info.size = data.length := by
  obtain ⟨name, entry⟩ := below
  obtain ⟨filename, size⟩ := info
  cases entry with
  | directory => simp [shown]
  | file data =>
    by_cases hname : name = filename
    · subst hname
      simp [shown, eq_comm]
    · simp [shown, hname]

/-- The files of an owner on disk, before they are put in order. -/
def shownIn (tree : FileTree) (scope owner : String) : List FileInfo :=
  (tree.below.entries.filterMap (FileTree.listed [scope, owner])).filterMap shown

theorem mem_shownIn_iff (h : disk.Mirrors memory) {info : FileInfo} :
    info ∈ shownIn disk.tree scope owner ↔
      info ∈ owned memory scope owner ∧ ¬IsHidden info.filename := by
  have hfile (data : Bytes) : (info.filename, TreeEntry.file data) ∈
      disk.tree.below.entries.filterMap (FileTree.listed [scope, owner]) ↔
        memory.files.get? ⟨scope, owner, info.filename⟩ = some data := by
    have hentry := h.files ⟨scope, owner, info.filename⟩
    rw [h.distinct.mem_listed, ← components_eq_concat ⟨scope, owner, info.filename⟩, hentry]
    cases memory.files.get? ⟨scope, owner, info.filename⟩ with
    | none => simp
    | some found => simp
  rw [shownIn, List.mem_filterMap, h.mem_owned_iff]
  constructor
  · rintro ⟨below, hmem, hshown⟩
    obtain ⟨data, rfl, hvisible, hsize⟩ := shown_eq_some_iff.mp hshown
    exact ⟨⟨data, (hfile data).mp hmem, hsize⟩, hvisible⟩
  · rintro ⟨⟨data, hget, hsize⟩, hvisible⟩
    exact ⟨_, (hfile data).mpr hget, shown_eq_some_iff.mpr ⟨data, rfl, hvisible, hsize⟩⟩

theorem nodup_shownIn (h : disk.Mirrors memory) : (shownIn disk.tree scope owner).Nodup := by
  rw [shownIn, List.filterMap_filterMap]
  refine Dictionary.nodup_filterMap h.distinct ?_
  intro below other info hinfo hother
  -- the name that is shown tells the path
  have hpath {below : List String × TreeEntry}
      (h : (FileTree.listed [scope, owner] below).bind shown = some info) :
      below.1 = [scope, owner] ++ [info.filename] := by
    obtain ⟨listed, hlisted, hshown⟩ := Option.bind_eq_some_iff.mp h
    obtain ⟨data, rfl, -, -⟩ := shown_eq_some_iff.mp hshown
    rw [FileTree.listed_eq_some_iff.mp hlisted]
  rw [hpath hinfo, hpath hother]

theorem mem_list_iff {info : FileInfo} :
    info ∈ memory.list scope owner ↔ info ∈ owned memory scope owner :=
  List.mem_mergeSort

/-- The visible files of an owner, put in order from the disk or taken from what the memory lists. -/
theorem sort_shownIn (h : disk.Mirrors memory) :
    FileInfo.sort (shownIn disk.tree scope owner) =
      (memory.list scope owner).filter fun info => ¬IsHidden info.filename := by
  have hnodup : (memory.list scope owner).Nodup :=
    (List.mergeSort_perm (owned memory scope owner) _).nodup_iff.mpr h.nodup_owned
  have hsorted := FileInfo.pairwise_sort (owned memory scope owner)
  refine FileInfo.sort_eq ?_ (hsorted.sublist List.filter_sublist) ?_
  · refine (List.perm_ext_iff_of_nodup h.nodup_shownIn (hnodup.sublist List.filter_sublist)).mpr ?_
    intro info
    rw [h.mem_shownIn_iff, List.mem_filter, mem_list_iff, decide_eq_true_iff]
  · intro info hinfo other hother
    exact h.eq_of_mem_owned (mem_list_iff.mp (List.mem_filter.mp hinfo |>.1))
      (mem_list_iff.mp (List.mem_filter.mp hother |>.1))

/-- The disk lists what the memory lists, without the files that are named like temporary ones. -/
theorem list (h : disk.Mirrors memory) (hscope : checkName scope = .ok ())
    (howner : checkName owner = .ok ()) :
    disk.list scope owner =
      .ok ((memory.list scope owner).filter fun info => ¬IsHidden info.filename) := by
  have hfind := h.rooted.find_of_free (areShort_owner hscope howner)
    (fun before hbefore _ => h.shallow before hbefore.length_le)
  rw [DiskStore.list, hscope, ok_bind, howner, ok_bind, FileTree.readDirectory_eq, hfind]
  cases hentry : disk.tree.at? [scope, owner] with
  | none =>
    -- without the directory the memory has no files of the owner
    have hnone : memory.list scope owner = [] := by
      refine List.eq_nil_iff_forall_not_mem.mpr fun info hinfo => ?_
      obtain ⟨data, hget, -⟩ := h.mem_owned_iff.mp (mem_list_iff.mp hinfo)
      have hfile := h.files ⟨scope, owner, info.filename⟩
      rw [hget, components_eq_concat] at hfile
      have hdirectory := h.rooted.parent [scope, owner] _ _ hfile
      rw [hentry] at hdirectory
      cases hdirectory
    rw [hnone]
    rfl
  | some entry =>
    cases entry with
    | file data => exact absurd hentry (h.shallow [scope, owner] (Nat.le_refl 2) data)
    | directory =>
      refine congrArg Except.ok (Eq.trans ?_ h.sort_shownIn)
      refine congrArg (fun choose => FileInfo.sort (List.filterMap choose _)) (funext fun found => ?_)
      obtain ⟨name, entry⟩ := found
      cases entry <;> rfl

end List

end Mirrors

end DiskStore

end Switchboard
