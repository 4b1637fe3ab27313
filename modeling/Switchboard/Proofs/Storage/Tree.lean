import Switchboard.Proofs.Except
import Switchboard.Storage.Tree

/-!
# What stands in a tree of files

`FileTree.at?` is the view of a tree.  In a tree whose entries all lie in directories, what a path
leads to is determined by what stands at the path and by the files on the way.

Main results:

* `FileTree.IsRooted.find_of_at?`: a path leads to what stands there.
* `FileTree.find_congr`: trees that agree at a path and on the files on the way to it answer alike.
* `FileTree.IsRooted.at?_of_makeAlong`, `FileTree.IsRooted.at?_of_replace` and
  `FileTree.IsRooted.at?_of_withdraw`: what making directories, replacing a file and giving up on it
  change in the view.
* `FileTree.IsRooted.makeAlong_succeeds`, `FileTree.IsRooted.writeFile_eq_ok` and
  `FileTree.IsRooted.rename_eq_ok`: when these changes succeed.
* `FileTree.IsDistinct.mem_listed`: a directory lists what stands in it.
-/

namespace Switchboard.FileTree

variable {tree other : FileTree} {path : List String} {entry : TreeEntry}

-- ---------------------------------------------------------------------------
-- The view
-- ---------------------------------------------------------------------------

theorem at?_put (tree : FileTree) (hpath : path ≠ []) (entry : TreeEntry) (p : List String) :
    (tree.put path entry).at? p = if p = path then some entry else tree.at? p := by
  rw [at?, at?]
  by_cases hp : p = []
  · rw [if_pos hp, if_pos hp, if_neg (fun h => hpath (h.symm.trans hp))]
  · rw [if_neg hp, if_neg hp]
    exact Dictionary.get?_put tree.below path p entry

theorem at?_remove (tree : FileTree) (hpath : path ≠ []) (p : List String) :
    (tree.remove path).at? p = if p = path then none else tree.at? p := by
  rw [at?, at?]
  by_cases hp : p = []
  · rw [if_pos hp, if_pos hp, if_neg (fun h => hpath (h.symm.trans hp))]
  · rw [if_neg hp, if_neg hp]
    exact Dictionary.get?_erase tree.below path p

/-- Every entry lies in a directory. -/
structure IsRooted (tree : FileTree) : Prop where
  parent : ∀ path name entry, tree.at? (path ++ [name]) = some entry →
    tree.at? path = some .directory

theorem isRooted_empty : empty.IsRooted := by
  refine ⟨fun path name entry h => ?_⟩
  have hnone : empty.at? (path ++ [name]) = none := if_neg (by simp)
  rw [hnone] at h
  cases h

/-- Whatever is on the way to an entry is a directory. -/
theorem IsRooted.directory_of_append (h : tree.IsRooted) {here rest : List String} {name : String}
    (hentry : tree.at? (here ++ name :: rest) = some entry) : tree.at? here = some .directory := by
  -- induction on the rest of the path: one name further down there is a directory, and it lies in one
  induction rest generalizing here name with
  | nil => exact h.parent here name entry hentry
  | cons next rest ih =>
    have hlonger : tree.at? (here ++ [name] ++ next :: rest) = some entry := by
      rw [List.append_assoc]
      exact hentry
    have hnext : tree.at? (here ++ [name]) = some .directory := ih hlonger
    exact h.parent here name .directory hnext

-- ---------------------------------------------------------------------------
-- Following a path
-- ---------------------------------------------------------------------------

/-- Names that file systems can look up. -/
def AreShort (path : List String) : Prop :=
  ∀ name ∈ path, name.utf8ByteSize ≤ maxNameLength

theorem at?_of_walk {here rest : List String} (h : tree.walk here rest = .ok entry) :
    tree.at? (here ++ rest) = some entry := by
  induction rest generalizing here with
  | nil =>
    rw [walk] at h
    rw [List.append_nil]
    cases hhere : tree.at? here with
    | none =>
      rw [hhere] at h
      cases h
    | some found =>
      rw [hhere] at h
      cases h
      rfl
  | cons name rest ih =>
    unfold walk at h
    cases hhere : tree.at? here with
    | none =>
      rw [hhere] at h
      cases h
    | some found =>
      rw [hhere] at h
      cases found with
      | file data => cases h
      | directory =>
        dsimp only at h
        split at h
        · cases h
        · have hentry := ih h
          rwa [List.append_assoc] at hentry

theorem IsRooted.walk_of_at? (h : tree.IsRooted) {here rest : List String} (hshort : AreShort rest)
    (hentry : tree.at? (here ++ rest) = some entry) : tree.walk here rest = .ok entry := by
  induction rest generalizing here with
  | nil =>
    rw [List.append_nil] at hentry
    rw [walk, hentry]
  | cons name rest ih =>
    rw [walk, h.directory_of_append hentry]
    dsimp only
    rw [if_neg (Nat.not_lt.mpr (hshort name List.mem_cons_self))]
    refine ih (fun n hn => hshort n (List.mem_cons_of_mem name hn)) ?_
    rw [List.append_assoc]
    exact hentry

/-- A path on which no file stands, and nothing at its end, leads nowhere. -/
theorem walk_missing {here rest : List String} (hshort : AreShort rest)
    (hfiles : ∀ before after data, rest = before ++ after → after ≠ [] →
      tree.at? (here ++ before) ≠ some (.file data))
    (hnone : tree.at? (here ++ rest) = none) : tree.walk here rest = .error .missing := by
  induction rest generalizing here with
  | nil =>
    rw [List.append_nil] at hnone
    rw [walk, hnone]
  | cons name rest ih =>
    unfold walk
    cases hhere : tree.at? here with
    | none => rfl
    | some found =>
      cases found with
      | file data =>
        refine absurd ?_ (hfiles [] (name :: rest) data rfl (List.cons_ne_nil _ _))
        rw [List.append_nil]
        exact hhere
      | directory =>
        dsimp only
        rw [if_neg (Nat.not_lt.mpr (hshort name List.mem_cons_self))]
        refine ih (fun n hn => hshort n (List.mem_cons_of_mem name hn)) ?_ ?_
        · intro before after data hrest hafter
          rw [List.append_assoc]
          exact hfiles (name :: before) after data (by rw [hrest]; rfl) hafter
        · rw [List.append_assoc]
          exact hnone

/-- Directories on the way are passed. -/
theorem IsRooted.walk_append (h : tree.IsRooted) {here before : List String} (after : List String)
    (hshort : AreShort before) (hdirectory : tree.at? (here ++ before) = some .directory) :
    tree.walk here (before ++ after) = tree.walk (here ++ before) after := by
  induction before generalizing here with
  | nil => rw [List.nil_append, List.append_nil]
  | cons name before ih =>
    have hsplit : here ++ [name] ++ before = here ++ name :: before := List.append_assoc ..
    rw [List.cons_append, walk, h.directory_of_append hdirectory]
    dsimp only
    rw [if_neg (Nat.not_lt.mpr (hshort name List.mem_cons_self)),
      ih (fun n hn => hshort n (List.mem_cons_of_mem name hn)) (hsplit ▸ hdirectory), hsplit]

/-- A file in the middle of a path is in the way. -/
theorem IsRooted.walk_refused (h : tree.IsRooted) (here : List String)
    {before after : List String} {data : Bytes}
    (hshort : AreShort before) (hafter : after ≠ [])
    (hfile : tree.at? (here ++ before) = some (.file data)) :
    tree.walk here (before ++ after) = .error .refused := by
  induction before generalizing here with
  | nil =>
    obtain ⟨name, rest, rfl⟩ := List.exists_cons_of_ne_nil hafter
    rw [List.append_nil] at hfile
    rw [List.nil_append, walk, hfile]
  | cons name before ih =>
    rw [List.cons_append, walk, h.directory_of_append hfile]
    dsimp only
    rw [if_neg (Nat.not_lt.mpr (hshort name List.mem_cons_self))]
    refine ih (here ++ [name]) (fun n hn => hshort n (List.mem_cons_of_mem name hn)) ?_
    rw [List.append_assoc]
    exact hfile

theorem IsRooted.at?_of_walk_missing (h : tree.IsRooted) {here rest : List String}
    (hwalk : tree.walk here rest = .error .missing) : tree.at? (here ++ rest) = none := by
  induction rest generalizing here with
  | nil =>
    rw [walk] at hwalk
    rw [List.append_nil]
    cases hhere : tree.at? here with
    | none => rfl
    | some found =>
      rw [hhere] at hwalk
      cases hwalk
  | cons name rest ih =>
    cases hentry : tree.at? (here ++ name :: rest) with
    | none => rfl
    | some found =>
      rw [walk, h.directory_of_append hentry] at hwalk
      dsimp only at hwalk
      split at hwalk
      · cases hwalk
      · have hnone := ih hwalk
        rw [List.append_assoc] at hnone
        exact absurd (hentry.symm.trans hnone) (Option.some_ne_none found)

/-- If a path leads nowhere, nothing stands there. -/
theorem IsRooted.at?_of_missing (h : tree.IsRooted) (hfind : tree.find path = .error .missing) :
    tree.at? path = none :=
  h.at?_of_walk_missing hfind

theorem at?_of_find (h : tree.find path = .ok entry) : tree.at? path = some entry :=
  at?_of_walk h

/-- A path leads to what stands there. -/
theorem IsRooted.find_of_at? (h : tree.IsRooted) (hshort : AreShort path)
    (hentry : tree.at? path = some entry) : tree.find path = .ok entry :=
  h.walk_of_at? hshort hentry

/-- What a path leads to whose last name is in a directory. -/
theorem IsRooted.find_concat (h : tree.IsRooted) {name : String} (hshort : AreShort path)
    (hdirectory : tree.at? path = some .directory) :
    tree.find (path ++ [name]) = if maxNameLength < name.utf8ByteSize then .error .refused
      else match tree.at? (path ++ [name]) with
        | some entry => .ok entry
        | none => .error .missing := by
  have hwalk : tree.walk [] (path ++ [name]) = tree.walk ([] ++ path) [name] :=
    h.walk_append [name] hshort hdirectory
  rw [find, hwalk, List.nil_append, walk, hdirectory]
  rfl

/-- Trees that agree at a path and on the files on the way to it answer alike. -/
theorem find_congr (h : tree.IsRooted) (hother : other.IsRooted) (hshort : AreShort path)
    (hfiles : ∀ before after data, path = before ++ after → after ≠ [] →
      (tree.at? before = some (.file data) ↔ other.at? before = some (.file data)))
    (hend : tree.at? path = other.at? path) : tree.find path = other.find path := by
  cases hentry : tree.at? path with
  | some entry =>
    rw [h.find_of_at? hshort hentry, hother.find_of_at? hshort (hend ▸ hentry)]
  | none =>
    -- nothing stands at the end: either a file is in the way in both trees, or in neither
    by_cases hway : ∃ before after data, path = before ++ after ∧ after ≠ [] ∧
        tree.at? before = some (.file data)
    · obtain ⟨before, after, data, rfl, hafter, hfile⟩ := hway
      have hbefore : AreShort before := fun name hname =>
        hshort name (List.mem_append_left after hname)
      have hrefused : tree.find (before ++ after) = .error .refused :=
        h.walk_refused [] hbefore hafter hfile
      have hrefused' : other.find (before ++ after) = .error .refused :=
        hother.walk_refused [] hbefore hafter ((hfiles before after data rfl hafter).mp hfile)
      rw [hrefused, hrefused']
    -- no file is in the way, so both trees say that nothing is there
    · have hfree : ∀ before after data, path = before ++ after → after ≠ [] →
          tree.at? ([] ++ before) ≠ some (.file data) := by
        intro before after data hpath hafter hfile
        exact hway ⟨before, after, data, hpath, hafter, hfile⟩
      have hfree' : ∀ before after data, path = before ++ after → after ≠ [] →
          other.at? ([] ++ before) ≠ some (.file data) := by
        intro before after data hpath hafter hfile
        exact hfree before after data hpath hafter ((hfiles before after data hpath hafter).mpr hfile)
      rw [find, find, walk_missing hshort hfree hentry,
        walk_missing hshort hfree' (hend.symm.trans hentry)]

/-- Where no file is in the way, a path leads to what stands at its end, or nowhere. -/
theorem IsRooted.find_of_free (h : tree.IsRooted) (hshort : AreShort path)
    (hfree : ∀ before, before <+: path → before ≠ path → ∀ data,
      tree.at? before ≠ some (.file data)) :
    tree.find path = match tree.at? path with
      | some entry => .ok entry
      | none => .error .missing := by
  cases hentry : tree.at? path with
  | some entry => exact h.find_of_at? hshort hentry
  | none =>
    refine walk_missing hshort ?_ hentry
    intro before after data hpath hafter
    have hne : before ≠ path := by
      rintro rfl
      exact hafter (List.append_right_eq_self.mp hpath.symm)
    exact hfree before ⟨after, hpath.symm⟩ hne data

-- ---------------------------------------------------------------------------
-- Changing a tree
-- ---------------------------------------------------------------------------

theorem append_singleton_ne_self (path : List String) (name : String) : path ++ [name] ≠ path := by
  intro h
  have hlength := congrArg List.length h
  rw [List.length_append, List.length_singleton] at hlength
  omega

/-- A directory that is new, or a file where no directory was, keeps everything in directories. -/
theorem IsRooted.put (h : tree.IsRooted) {name : String}
    (hparent : tree.at? path = some .directory)
    (hplace : entry = .directory ∨ tree.at? (path ++ [name]) ≠ some .directory) :
    (tree.put (path ++ [name]) entry).IsRooted := by
  have hne : path ++ [name] ≠ [] := List.concat_ne_nil name path
  refine ⟨fun p n e he => ?_⟩
  rw [at?_put tree hne] at he ⊢
  -- either the new entry, which lies in the directory at `path`, or one from before
  split at he
  · next heq =>
    obtain ⟨rfl, -⟩ := List.append_inj' heq rfl
    rw [if_neg (append_singleton_ne_self p name).symm]
    exact hparent
  -- no file takes the place of the directory that an earlier entry lies in
  · have hdirectory := h.parent p n e he
    split
    · next heq =>
      rcases hplace with rfl | hplace
      · rfl
      · rw [heq] at hdirectory
        exact absurd hdirectory hplace
    · exact hdirectory

/-- So does taking a file away. -/
theorem IsRooted.remove (h : tree.IsRooted) (hpath : path ≠ [])
    (hplace : tree.at? path ≠ some .directory) : (tree.remove path).IsRooted := by
  refine ⟨fun p n e he => ?_⟩
  rw [at?_remove tree hpath] at he ⊢
  split at he
  · cases he
  · have hdirectory := h.parent p n e he
    -- the directory of another entry is not what was removed, which is a file or nothing
    rw [if_neg]
    · exact hdirectory
    · rintro rfl
      exact hplace hdirectory

/-- Where nothing was, there may be directories now, all of them on the given way; everything else is
as it was. -/
def HasMade (tree : FileTree) (way : List String) (made : FileTree) : Prop :=
  ∀ p, made.at? p = tree.at? p ∨ tree.at? p = none ∧ made.at? p = some .directory ∧ p <+: way

/-- Making directories makes directories on the way, and nothing else. -/
theorem IsRooted.at?_of_makeAlong (h : tree.IsRooted) {here rest : List String} {made : FileTree}
    (hhere : tree.at? here = some .directory) (hmade : tree.makeAlong here rest = .ok made) :
    made.IsRooted ∧ tree.HasMade (here ++ rest) made := by
  induction rest generalizing tree here with
  | nil =>
    rw [makeAlong] at hmade
    cases hmade
    exact ⟨h, fun p => .inl rfl⟩
  | cons name rest ih =>
    have hsplit : here ++ [name] ++ rest = here ++ name :: rest := List.append_assoc ..
    rw [makeAlong] at hmade
    cases hfind : tree.find (here ++ [name]) with
    | ok found =>
      rw [hfind] at hmade
      cases found with
      | file data => cases hmade
      | directory =>
        rw [← hsplit]
        exact ih h (at?_of_find hfind) hmade
    | error fault =>
      rw [hfind] at hmade
      cases fault with
      | refused => cases hmade
      | missing =>
        -- nothing stands here yet, so a directory is made
        have hne : here ++ [name] ≠ [] := List.concat_ne_nil name here
        have hnone : tree.at? (here ++ [name]) = none := h.at?_of_missing hfind
        have hnext : (tree.put (here ++ [name]) .directory).at? (here ++ [name]) =
            some .directory := by
          rw [at?_put tree hne, if_pos rfl]
        obtain ⟨hrooted, hview⟩ := ih (h.put hhere (.inl rfl)) hnext hmade
        refine ⟨hrooted, fun p => ?_⟩
        have hp := hview p
        rw [at?_put tree hne, hsplit] at hp
        split at hp
        · next heq =>
          -- the directory that was made just now
          refine .inr ⟨heq ▸ hnone, ?_, heq ▸ hsplit ▸ List.prefix_append _ rest⟩
          rcases hp with hp | ⟨-, hp, -⟩
          · exact hp
          · exact hp
        · exact hp

/-- A file is written into a directory, in place of a file or of nothing. -/
theorem IsRooted.of_writeFile (h : tree.IsRooted) {name : String} {data : Bytes}
    {written : FileTree} (hwritten : tree.writeFile (path ++ [name]) data = .ok written) :
    tree.at? path = some .directory ∧ tree.at? (path ++ [name]) ≠ some .directory ∧
      written = tree.put (path ++ [name]) (.file data) := by
  rw [writeFile, List.dropLast_concat] at hwritten
  cases hparent : tree.find path with
  | error fault =>
    rw [hparent] at hwritten
    split at hwritten <;> cases hwritten
  | ok above =>
    rw [hparent] at hwritten
    cases above with
    | file before => split at hwritten <;> cases hwritten
    | directory =>
      refine ⟨at?_of_find hparent, ?_⟩
      cases hfind : tree.find (path ++ [name]) with
      | ok found =>
        rw [hfind] at hwritten
        cases found with
        | directory => cases hwritten
        | file before =>
          cases hwritten
          rw [at?_of_find hfind]
          exact ⟨fun h => (nomatch h), rfl⟩
      | error fault =>
        rw [hfind] at hwritten
        cases fault with
        | refused => cases hwritten
        | missing =>
          cases hwritten
          rw [h.at?_of_missing hfind]
          exact ⟨fun h => (nomatch h), rfl⟩

/-- A file that is renamed leaves its place for another one, where a file or nothing was. -/
theorem IsRooted.of_rename (h : tree.IsRooted) {source : List String} {name : String}
    {renamed : FileTree} (hsource : source ≠ [])
    (hrenamed : tree.rename source (path ++ [name]) = .ok renamed) :
    renamed.IsRooted ∧ ∃ data, tree.at? source = some (.file data) ∧
      renamed = (tree.remove source).put (path ++ [name]) (.file data) := by
  rw [rename, readFile] at hrenamed
  cases hfind : tree.find source with
  | error fault =>
    rw [hfind] at hrenamed
    cases hrenamed
  | ok found =>
    rw [hfind] at hrenamed
    cases found with
    | directory => cases hrenamed
    | file data =>
      have hfile := at?_of_find hfind
      -- first the file leaves its place, which keeps everything in directories
      have hremoved : (tree.remove source).IsRooted := by
        refine h.remove hsource ?_
        rw [hfile]
        exact fun h => (nomatch h)
      obtain ⟨hparent, hplace, rfl⟩ := hremoved.of_writeFile hrenamed
      exact ⟨hremoved.put hparent (.inr hplace), data, hfile, rfl⟩

section Replace

variable {temporary name : String} {data : Bytes} {written renamed : FileTree}

/-- A file that was just written can be taken away again, and nothing is left in its place. -/
theorem IsRooted.at?_of_withdraw (h : tree.IsRooted) (path : List String)
    (hwritten : tree.writeFile (path ++ [temporary]) data = .ok written) :
    (written.remove (path ++ [temporary])).IsRooted ∧ ∀ p,
      (written.remove (path ++ [temporary])).at? p =
        if p = path ++ [temporary] then none else tree.at? p := by
  have hne : path ++ [temporary] ≠ [] := List.concat_ne_nil temporary path
  obtain ⟨hparent, hplace, rfl⟩ := h.of_writeFile hwritten
  refine ⟨(h.put hparent (.inr hplace)).remove hne ?_, fun p => ?_⟩
  · rw [at?_put tree hne, if_pos rfl]
    exact fun h => (nomatch h)
  · rw [at?_remove _ hne, at?_put tree hne]
    split <;> rfl

/-- Writing a file beside its place and renaming it puts the data into place, and nothing is left
beside it. -/
theorem IsRooted.at?_of_replace (h : tree.IsRooted) (path : List String)
    (hwritten : tree.writeFile (path ++ [temporary]) data = .ok written)
    (hrenamed : written.rename (path ++ [temporary]) (path ++ [name]) = .ok renamed) :
    renamed.IsRooted ∧ ∀ p, renamed.at? p = if p = path ++ [name] then some (.file data)
      else if p = path ++ [temporary] then none else tree.at? p := by
  have htemporary : path ++ [temporary] ≠ [] := List.concat_ne_nil temporary path
  have hname : path ++ [name] ≠ [] := List.concat_ne_nil name path
  obtain ⟨hparent, hplace, rfl⟩ := h.of_writeFile hwritten
  obtain ⟨hrooted, found, hfound, rfl⟩ :=
    (h.put hparent (.inr hplace)).of_rename htemporary hrenamed
  -- what is renamed is what was written just before
  obtain rfl : data = found := by
    rw [at?_put tree htemporary, if_pos rfl] at hfound
    cases hfound
    rfl
  refine ⟨hrooted, fun p => ?_⟩
  rw [at?_put _ hname, at?_remove _ htemporary, at?_put _ htemporary]
  split
  · rfl
  · split <;> rfl

end Replace

-- ---------------------------------------------------------------------------
-- Changes that succeed
-- ---------------------------------------------------------------------------

theorem areShort_concat {name : String} (hpath : AreShort path)
    (hname : name.utf8ByteSize ≤ maxNameLength) : AreShort (path ++ [name]) := by
  intro n hn
  rcases List.mem_append.mp hn with hn | hn
  · exact hpath n hn
  · rw [List.mem_singleton.mp hn]
    exact hname

/-- Where no file is in the way, directories can be made. -/
theorem IsRooted.makeAlong_succeeds (h : tree.IsRooted) (here : List String) {rest : List String}
    (hshort : AreShort (here ++ rest)) (hhere : tree.at? here = some .directory)
    (hfree : ∀ before, before <+: here ++ rest → ∀ data, tree.at? before ≠ some (.file data)) :
    ∃ made, tree.makeAlong here rest = .ok made ∧ made.at? (here ++ rest) = some .directory := by
  induction rest generalizing tree here with
  | nil =>
    rw [List.append_nil]
    exact ⟨tree, rfl, hhere⟩
  | cons name rest ih =>
    have hne : here ++ [name] ≠ [] := List.concat_ne_nil name here
    rw [List.append_cons] at hshort hfree ⊢
    have hway : here ++ [name] <+: here ++ [name] ++ rest := List.prefix_append _ rest
    have hnext : AreShort (here ++ [name]) := fun n hn => hshort n (hway.subset hn)
    have hfind := h.find_of_free hnext
      (fun before hbefore _ => hfree before (hbefore.trans hway))
    rw [makeAlong, hfind]
    cases hentry : tree.at? (here ++ [name]) with
    | some entry =>
      cases entry with
      | file data => exact absurd hentry (hfree _ hway data)
      | directory => exact ih h _ hshort hentry hfree
    | none =>
      -- the directory that is made is in nobody's way
      refine ih (h.put hhere (.inl rfl)) _ hshort ?_ ?_
      · rw [at?_put tree hne, if_pos rfl]
      · intro before hbefore data
        rw [at?_put tree hne]
        split
        · exact fun h => (nomatch h)
        · exact hfree before hbefore data

/-- A file with a short name can be put in a directory where there is not a directory. -/
theorem IsRooted.writeFile_eq_ok (h : tree.IsRooted) {name : String} {data : Bytes}
    (hshort : AreShort (path ++ [name])) (hdirectory : tree.at? path = some .directory)
    (hplace : tree.at? (path ++ [name]) ≠ some .directory) :
    tree.writeFile (path ++ [name]) data = .ok (tree.put (path ++ [name]) (.file data)) := by
  have hpath : AreShort path := fun n hn => hshort n (List.mem_append_left [name] hn)
  have hname : name.utf8ByteSize ≤ maxNameLength :=
    hshort name (List.mem_append_right path List.mem_cons_self)
  rw [writeFile, List.dropLast_concat, h.find_of_at? hpath hdirectory,
    h.find_concat hpath hdirectory, if_neg (Nat.not_lt.mpr hname)]
  cases hentry : tree.at? (path ++ [name]) with
  | none => rfl
  | some entry =>
    cases entry with
    | file before => rfl
    | directory => exact absurd hentry hplace

/-- A file with a name that is too long cannot be written. -/
theorem IsRooted.writeFile_of_long (h : tree.IsRooted) {name : String} (data : Bytes)
    (hpath : AreShort path) (hdirectory : tree.at? path = some .directory)
    (hname : maxNameLength < name.utf8ByteSize) :
    tree.writeFile (path ++ [name]) data = .error .refused := by
  rw [writeFile, h.find_concat hpath hdirectory, if_pos hname]

/-- A file can be moved within its directory to where there is not a directory. -/
theorem IsRooted.rename_eq_ok (h : tree.IsRooted) {source name : String} {data : Bytes}
    (hsource : AreShort (path ++ [source])) (htarget : AreShort (path ++ [name]))
    (hfile : tree.at? (path ++ [source]) = some (.file data))
    (hplace : tree.at? (path ++ [name]) ≠ some .directory) :
    tree.rename (path ++ [source]) (path ++ [name]) =
      .ok ((tree.remove (path ++ [source])).put (path ++ [name]) (.file data)) := by
  have hne : path ++ [source] ≠ [] := List.concat_ne_nil source path
  have hdirectory : tree.at? path = some .directory := h.parent path source _ hfile
  have hremoved : (tree.remove (path ++ [source])).IsRooted := by
    refine h.remove hne ?_
    rw [hfile]
    exact fun h => (nomatch h)
  have hread : tree.readFile (path ++ [source]) = .ok data := by
    rw [readFile, h.find_of_at? hsource hfile]
  rw [rename, hread]
  refine hremoved.writeFile_eq_ok htarget ?_ ?_
  · rw [at?_remove tree hne, if_neg (append_singleton_ne_self path source).symm]
    exact hdirectory
  · rw [at?_remove tree hne]
    split
    · exact fun h => (nomatch h)
    · exact hplace

-- ---------------------------------------------------------------------------
-- Reading a directory
-- ---------------------------------------------------------------------------

/-- No path stands twice. -/
def IsDistinct (tree : FileTree) : Prop :=
  tree.below.keys.Nodup

theorem isDistinct_empty : empty.IsDistinct := List.nodup_nil

theorem IsDistinct.put (h : tree.IsDistinct) (path : List String) (entry : TreeEntry) :
    (tree.put path entry).IsDistinct :=
  Dictionary.nodup_keys_put h path entry

theorem IsDistinct.remove (h : tree.IsDistinct) (path : List String) :
    (tree.remove path).IsDistinct :=
  Dictionary.nodup_keys_erase h path

theorem IsDistinct.of_makeAlong (h : tree.IsDistinct) {here rest : List String} {made : FileTree}
    (hmade : tree.makeAlong here rest = .ok made) : made.IsDistinct := by
  induction rest generalizing tree here with
  | nil =>
    rw [makeAlong] at hmade
    cases hmade
    exact h
  | cons name rest ih =>
    rw [makeAlong] at hmade
    split at hmade
    · exact ih h hmade
    · exact ih (h.put _ _) hmade
    · cases hmade

theorem IsDistinct.of_writeFile (h : tree.IsDistinct) {data : Bytes} {written : FileTree}
    (hwritten : tree.writeFile path data = .ok written) : written.IsDistinct := by
  unfold writeFile at hwritten
  repeat' split at hwritten
  all_goals cases hwritten <;> exact h.put _ _

theorem IsDistinct.of_rename (h : tree.IsDistinct) {source target : List String}
    {renamed : FileTree} (hrenamed : tree.rename source target = .ok renamed) :
    renamed.IsDistinct := by
  obtain ⟨data, -, hwritten⟩ := bind_eq_ok_iff.mp hrenamed
  exact (h.remove source).of_writeFile hwritten

/-- What an entry of the tree adds to the listing of a directory. -/
def listed (path : List String) (below : List String × TreeEntry) : Option (String × TreeEntry) :=
  match below.1.getLast? with
  | some name => if below.1.dropLast = path then some (name, below.2) else none
  | none => none

theorem listed_eq_some_iff {below : List String × TreeEntry} {name : String} :
    listed path below = some (name, entry) ↔ below = (path ++ [name], entry) := by
  obtain ⟨p, e⟩ := below
  rw [listed]
  rcases List.eq_nil_or_concat p with rfl | ⟨init, last, rfl⟩
  · simp
  · rw [List.concat_eq_append, List.getLast?_concat, List.dropLast_concat]
    dsimp only
    by_cases hinit : init = path
    · simp [hinit]
    · rw [if_neg hinit]
      refine iff_of_false (fun h => (nomatch h)) ?_
      intro heq
      exact hinit (List.append_inj' (congrArg Prod.fst heq) rfl).1

theorem readDirectory_eq (tree : FileTree) (path : List String) :
    tree.readDirectory path = match tree.find path with
      | .ok .directory => .ok (tree.below.entries.filterMap (listed path))
      | .ok (.file _) => .error .refused
      | .error fault => .error fault := rfl

/-- A directory lists the names at which something stands in it. -/
theorem IsDistinct.mem_listed (h : tree.IsDistinct) {name : String} :
    (name, entry) ∈ tree.below.entries.filterMap (listed path) ↔
      tree.at? (path ++ [name]) = some entry := by
  have hne : path ++ [name] ≠ [] := List.concat_ne_nil name path
  rw [at?, if_neg hne, ← Dictionary.mem_entries_iff h, List.mem_filterMap]
  constructor
  · rintro ⟨below, hmem, hlisted⟩
    rw [listed_eq_some_iff] at hlisted
    exact hlisted ▸ hmem
  · intro hmem
    exact ⟨_, hmem, listed_eq_some_iff.mpr rfl⟩

end Switchboard.FileTree
