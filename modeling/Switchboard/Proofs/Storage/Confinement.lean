import Switchboard.Proofs.Storage.Store
import Switchboard.Proofs.Text.Decimal
import Switchboard.Settings.Path

/-!
# Where a key can reach

The three parts of a key are names of what lies directly in a directory, so the path of a key is that
of the root with three more names, and tells the key.  A write makes the directories of the owner and
then touches two names in the last of them: that of the file, and that of the temporary file, which is
such a name as well.

Main results:

* `pathNames_pathUnder`: the names along the path of a key.
* `DiskStore.changesWithin_of_mem_stages`: what a write changes, at every stage.
-/

namespace Switchboard

-- ---------------------------------------------------------------------------
-- Names
-- ---------------------------------------------------------------------------

/-- A text that names something directly in a directory: neither the directory itself nor the one above,
with nothing in it that would separate names or end them. -/
structure IsPlainName (name : String) : Prop where
  ne_empty : name ≠ ""
  ne_here : name ≠ "."
  ne_above : name ≠ ".."
  chars : ∀ c ∈ name.toList, c ≠ '/' ∧ c ≠ '\\' ∧ c ≠ '\x00'

theorem isNameChar_iff {c : Char} : isNameChar c = true ↔ c ≠ '/' ∧ c ≠ '\\' ∧ c ≠ '\x00' := by
  simp [isNameChar, and_assoc]

theorem isPlainName_of_checkName {name : String} (h : checkName name = .ok ()) :
    IsPlainName name := by
  unfold checkName at h
  split at h
  · next hvalid =>
    simp only [isFileName, Bool.and_eq_true, bne_iff_ne, List.all_eq_true] at hvalid
    obtain ⟨⟨⟨⟨hempty, hhere⟩, habove⟩, -⟩, hchars⟩ := hvalid
    exact ⟨hempty, hhere, habove, fun c hc => isNameChar_iff.mp (hchars c hc)⟩
  · cases h

theorem isNameChar_of_isDigit {c : Char} (h : Text.isDigit c = true) : isNameChar c = true := by
  refine isNameChar_iff.mpr ⟨?_, ?_, ?_⟩ <;>
  · rintro rfl
    revert h
    decide

/-- The name of a temporary file is as plain as that of the file. -/
theorem isPlainName_temporaryName {name : String} (process : Nat) (h : IsPlainName name) :
    IsPlainName (DiskStore.temporaryName process name) := by
  have hsplit : (DiskStore.temporaryName process name).toList =
      ['.', 't', 'm', 'p', '-'] ++ (Text.decimal process ++ '-' :: name.toList) := by
    simp [DiskStore.temporaryName, DiskStore.temporaryMark, Text.toList_number]
  -- it is longer than the names that are not plain
  have hne (other : String) (hother : other.toList.length ≤ 4) :
      DiskStore.temporaryName process name ≠ other := by
    rintro rfl
    rw [hsplit, List.length_append, List.length_cons] at hother
    simp only [List.length_cons, List.length_nil] at hother
    omega
  refine ⟨hne "" (by decide), hne "." (by decide), hne ".." (by decide), fun c hc => ?_⟩
  simp only [hsplit, List.mem_append, List.mem_cons (a := c) (b := '-')] at hc
  rcases hc with hc | hc | rfl | hc
  · have hmark : ['.', 't', 'm', 'p', '-'].all isNameChar = true := by decide
    exact isNameChar_iff.mp (List.all_eq_true.mp hmark c hc)
  · have hdigits := List.all_eq_true.mp (Text.decimal_spec process).2.1
    exact isNameChar_iff.mp (isNameChar_of_isDigit (hdigits c hc))
  · decide
  · exact h.chars c hc

-- ---------------------------------------------------------------------------
-- Paths as texts
-- ---------------------------------------------------------------------------

/-- The characters between the slashes of a text, where something stands between them; `name` is what
was read since the last slash. -/
def namesOnto (name : List Char) : List Char → List (List Char)
  | [] => if name = [] then [] else [name]
  | c :: rest =>
    if c = '/' then (if name = [] then [] else [name]) ++ namesOnto [] rest
    else namesOnto (name ++ [c]) rest

/-- The names along a path. -/
def pathNames (path : String) : List String :=
  (namesOnto [] path.toList).map String.ofList

theorem namesOnto_append_slash (name before after : List Char) :
    namesOnto name (before ++ '/' :: after) = namesOnto name before ++ namesOnto [] after := by
  induction before generalizing name with
  | nil => simp only [List.nil_append, namesOnto, if_true]
  | cons c rest ih =>
    rw [List.cons_append, namesOnto, namesOnto]
    split
    · rw [ih, List.append_assoc]
    · rw [ih]

theorem namesOnto_of_no_slash {cs : List Char} (h : ∀ c ∈ cs, c ≠ '/') (name : List Char) :
    namesOnto name cs = if name ++ cs = [] then [] else [name ++ cs] := by
  induction cs generalizing name with
  | nil => rw [namesOnto, List.append_nil]
  | cons c rest ih =>
    obtain ⟨hc, hrest⟩ := List.forall_mem_cons.mp h
    rw [namesOnto, if_neg hc, ih hrest, List.append_assoc]
    rfl

/-- A plain name is the one name along it. -/
theorem IsPlainName.namesOnto_eq {name : String} (h : IsPlainName name) :
    namesOnto [] name.toList = [name.toList] := by
  rw [namesOnto_of_no_slash fun c hc => (h.chars c hc).1, List.nil_append,
    if_neg fun hnil => h.ne_empty (String.toList_eq_nil_iff.mp hnil)]

/-- Joining a plain name to a path puts the name behind those along the path. -/
theorem pathNames_joinPath {name : String} (h : IsPlainName name) (base : String) :
    pathNames (joinPath base name) = pathNames base ++ [name] ∧
      base.toList <+: (joinPath base name).toList := by
  have hone : (namesOnto [] name.toList).map String.ofList = [name] := by
    rw [h.namesOnto_eq, List.map_singleton, String.ofList_toList]
  have hrelative : ¬name.toList.head? = some '/' := fun hhead =>
    (h.chars '/' (List.mem_of_mem_head? hhead)).1 rfl
  unfold joinPath
  by_cases hbase : base = ""
  · rw [if_pos (.inr hbase), hbase]
    exact ⟨hone, List.nil_prefix⟩
  · rw [if_neg (not_or.mpr ⟨hrelative, hbase⟩)]
    split
    · -- the path ends with a slash, behind which nothing stands yet
      next hslash =>
      obtain ⟨before, hbefore⟩ := List.getLast?_eq_some_iff.mp hslash
      refine ⟨?_, by rw [String.toList_append]; exact List.prefix_append _ _⟩
      have hnone : namesOnto [] [] = [] := rfl
      rw [pathNames, pathNames, String.toList_append, hbefore, List.append_assoc,
        List.singleton_append, namesOnto_append_slash, namesOnto_append_slash, hnone,
        List.append_nil, List.map_append, hone]
    · refine ⟨?_, by rw [String.append_assoc, String.toList_append]; exact List.prefix_append _ _⟩
      have hsplit : (base ++ "/" ++ name).toList = base.toList ++ '/' :: name.toList := by
        simp
      rw [pathNames, pathNames, hsplit, namesOnto_append_slash, List.map_append, hone]

namespace FileKey

/-- The path of a file in a store with the given root, if the key is in order. -/
def pathUnder (root : String) (key : FileKey) : Except StorageError String := do
  key.check
  return joinPath (joinPath (joinPath root key.scope) key.owner) key.name

variable {root path : String} {key other : FileKey}

theorem pathUnder_eq_ok_iff : key.pathUnder root = .ok path ↔ key.check = .ok () ∧
    path = joinPath (joinPath (joinPath root key.scope) key.owner) key.name := by
  rw [pathUnder, bind_eq_ok_iff]
  constructor
  · rintro ⟨_, hcheck, hpath⟩
    exact ⟨hcheck, (Except.ok.inj hpath).symm⟩
  · rintro ⟨hcheck, rfl⟩
    exact ⟨(), hcheck, rfl⟩

theorem isPlainName_of_check (h : key.check = .ok ()) : ∀ name ∈ key.components, IsPlainName name := by
  obtain ⟨hscope, howner, hname⟩ := checkName_of_check h
  intro name hmem
  simp only [components, List.mem_cons, List.not_mem_nil, or_false] at hmem
  rcases hmem with rfl | rfl | rfl
  · exact isPlainName_of_checkName hscope
  · exact isPlainName_of_checkName howner
  · exact isPlainName_of_checkName hname

/-- The path of a key is that of the root, with its three parts behind. -/
theorem pathNames_pathUnder (h : key.pathUnder root = .ok path) :
    pathNames path = pathNames root ++ key.components ∧ root.toList <+: path.toList := by
  obtain ⟨hcheck, rfl⟩ := pathUnder_eq_ok_iff.mp h
  have hplain := isPlainName_of_check hcheck
  obtain ⟨hscope, howner, hname⟩ : IsPlainName key.scope ∧ IsPlainName key.owner ∧
      IsPlainName key.name := by
    simpa [components] using hplain
  obtain ⟨hfirst, hroot⟩ := pathNames_joinPath hscope root
  obtain ⟨hsecond, hscoped⟩ := pathNames_joinPath howner (joinPath root key.scope)
  obtain ⟨hthird, howned⟩ := pathNames_joinPath hname (joinPath (joinPath root key.scope) key.owner)
  refine ⟨?_, (hroot.trans hscoped).trans howned⟩
  rw [hthird, hsecond, hfirst, List.append_assoc, List.append_assoc]
  rfl

theorem eq_of_pathUnder (h : key.pathUnder root = .ok path) (hother : other.pathUnder root = .ok path) :
    key = other := by
  have hnames := (pathNames_pathUnder h).1.symm.trans (pathNames_pathUnder hother).1
  exact (components_inj (List.append_cancel_left hnames).symm).symm

end FileKey

-- ---------------------------------------------------------------------------
-- What a write changes
-- ---------------------------------------------------------------------------

namespace FileTree

/-- One tree differs from another at most by new directories on the way to those of an owner, and at the
given names in the last of them. -/
def ChangesWithin (before after : FileTree) (scope owner : String) (names : List String) : Prop :=
  ∀ path, after.at? path = before.at? path ∨
    before.at? path = none ∧ after.at? path = some .directory ∧ path <+: [scope, owner] ∨
    ∃ name ∈ names, path = [scope, owner, name]

variable {before after next : FileTree} {scope owner name : String} {names : List String}

/-- A change at one of the names is within as well. -/
theorem ChangesWithin.trans_at (h : before.ChangesWithin after scope owner names)
    (hname : name ∈ names)
    (hnext : ∀ path, path ≠ [scope, owner, name] → next.at? path = after.at? path) :
    before.ChangesWithin next scope owner names := by
  intro path
  by_cases hpath : path = [scope, owner, name]
  · exact .inr (.inr ⟨name, hname, hpath⟩)
  · rw [hnext path hpath]
    exact h path

theorem ChangesWithin.put (h : before.ChangesWithin after scope owner names) (hname : name ∈ names)
    (entry : TreeEntry) :
    before.ChangesWithin (after.put [scope, owner, name] entry) scope owner names :=
  h.trans_at hname fun path hpath => by
    rw [at?_put after (List.cons_ne_nil _ _), if_neg hpath]

theorem ChangesWithin.remove (h : before.ChangesWithin after scope owner names)
    (hname : name ∈ names) :
    before.ChangesWithin (after.remove [scope, owner, name]) scope owner names :=
  h.trans_at hname fun path hpath => by
    rw [at?_remove after (List.cons_ne_nil _ _), if_neg hpath]

end FileTree

namespace DiskStore

/-- The trees that a write goes through: with the directories, with the temporary file, and once that
was renamed or, if that fails, deleted. -/
def stages (store : DiskStore) (key : FileKey) (data : Bytes) : List FileTree :=
  match store.tree.makeDirectories [key.scope, key.owner] with
  | .error _ => []
  | .ok made =>
    let temporary := [key.scope, key.owner, temporaryName store.process key.name]
    match made.writeFile temporary data with
    | .error _ => [made]
    | .ok written =>
      match written.rename temporary key.components with
      | .ok renamed => [made, written, renamed]
      | .error _ => [made, written, written.remove temporary]

/-- A write leaves the last of its stages. -/
theorem writeTree_eq_getLast (store : DiskStore) (key : FileKey) (data : Bytes) :
    (store.writeTree key data).1 = (store.stages key data).getLast?.getD store.tree := by
  unfold writeTree stages
  cases store.tree.makeDirectories [key.scope, key.owner] with
  | error fault => rfl
  | ok made =>
    dsimp only
    cases made.writeFile [key.scope, key.owner, temporaryName store.process key.name] data with
    | error fault => rfl
    | ok written =>
      dsimp only
      cases written.rename [key.scope, key.owner, temporaryName store.process key.name]
        key.components <;> rfl

/-- A write changes nothing if the key is not in order. -/
theorem write_cases (store : DiskStore) (key : FileKey) (data : Bytes) :
    (store.write key data).1 = store ∨ key.check = .ok () ∧ (store.write key data).1 =
      { store with tree := (store.stages key data).getLast?.getD store.tree } := by
  unfold write
  cases hcheck : key.check with
  | error error => exact .inl rfl
  | ok _ =>
    refine .inr ⟨rfl, ?_⟩
    rw [← writeTree_eq_getLast]

/-- At every stage, a write has changed nothing but the directories of the owner, the file and the
temporary file. -/
theorem changesWithin_of_mem_stages {store : DiskStore} (h : store.tree.IsRooted) {key : FileKey}
    {data : Bytes} {stage : FileTree} (hstage : stage ∈ store.stages key data) :
    store.tree.ChangesWithin stage key.scope key.owner
      [key.name, temporaryName store.process key.name] := by
  have hname : key.name ∈ [key.name, temporaryName store.process key.name] := List.mem_cons_self
  have htemporary : temporaryName store.process key.name ∈
      [key.name, temporaryName store.process key.name] := List.mem_cons_of_mem _ List.mem_cons_self
  unfold stages at hstage
  cases hmade : store.tree.makeDirectories [key.scope, key.owner] with
  | error fault =>
    rw [hmade] at hstage
    cases hstage
  | ok made =>
    obtain ⟨hrooted, hview⟩ := h.at?_of_makeAlong rfl hmade
    have hdirectories : store.tree.ChangesWithin made key.scope key.owner
        [key.name, temporaryName store.process key.name] :=
      fun path => (hview path).imp_right .inl
    rw [hmade] at hstage
    dsimp only at hstage
    cases hwritten : made.writeFile [key.scope, key.owner, temporaryName store.process key.name]
        data with
    | error fault =>
      rw [hwritten] at hstage
      exact List.mem_singleton.mp hstage ▸ hdirectories
    | ok written =>
      obtain ⟨hparent, hplace, rfl⟩ := hrooted.of_writeFile
        (show made.writeFile ([key.scope, key.owner] ++ [_]) data = _ from hwritten)
      -- the temporary file comes and goes, and the file takes its place
      have hput := hdirectories.put htemporary (.file data)
      have hgone := hput.remove htemporary
      rw [hwritten] at hstage
      dsimp only at hstage
      cases hrenamed : FileTree.rename _ [key.scope, key.owner, temporaryName store.process key.name]
          key.components with
      | error fault =>
        rw [hrenamed] at hstage
        simp only [List.mem_cons, List.not_mem_nil, or_false] at hstage
        rcases hstage with rfl | rfl | rfl
        · exact hdirectories
        · exact hput
        · exact hgone
      | ok renamed =>
        obtain ⟨-, found, -, rfl⟩ := (hrooted.put hparent (.inr hplace)).of_rename
          (List.cons_ne_nil _ _)
          (show FileTree.rename _ _ ([key.scope, key.owner] ++ [key.name]) = _ from hrenamed)
        have hfile := hgone.put hname (.file found)
        rw [hrenamed] at hstage
        simp only [List.mem_cons, List.not_mem_nil, or_false] at hstage
        rcases hstage with rfl | rfl | rfl
        · exact hdirectories
        · exact hput
        · exact hfile

end DiskStore

end Switchboard
