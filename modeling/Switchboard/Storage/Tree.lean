import Switchboard.Dictionary
import Switchboard.Storage.Key

/-!
# A tree of files

A directory tree as file systems keep it, as far as a store needs it: names of at most 255 bytes,
files and directories that cannot take each other's place, and renaming that replaces a file.  A path
is the list of its components from the root, which is always a directory.
-/

namespace Switchboard

/-- What stands at a path. -/
inductive TreeEntry where
  | file (data : Bytes)
  | directory
  deriving Repr, DecidableEq

/-- Why a path cannot be used. -/
inductive PathFault where
  /-- Nothing stands there. -/
  | missing
  /-- Something of the wrong kind stands there or on the way, or a name is too long. -/
  | refused
  deriving Repr, DecidableEq

/-- The entries below the root, by path. -/
structure FileTree where
  below : Dictionary (List String) TreeEntry
  deriving Repr, DecidableEq

namespace FileTree

/-- A tree with nothing below its root. -/
def empty : FileTree := ⟨.empty⟩

/-- The entry at a path. -/
def at? (tree : FileTree) (path : List String) : Option TreeEntry :=
  if path = [] then some .directory else tree.below.get? path

/-- Puts an entry at a path, in place of what stands there. -/
def put (tree : FileTree) (path : List String) (entry : TreeEntry) : FileTree :=
  ⟨tree.below.put path entry⟩

/-- Takes away the entry at a path. -/
def remove (tree : FileTree) (path : List String) : FileTree :=
  ⟨tree.below.erase path⟩

/-- Goes down from a directory along the remaining components of a path. -/
def walk (tree : FileTree) (here : List String) : List String → Except PathFault TreeEntry
  | [] =>
    match tree.at? here with
    | some entry => .ok entry
    | none => .error .missing
  | name :: rest =>
    match tree.at? here with
    | some .directory =>
      if maxNameLength < name.utf8ByteSize then .error .refused
      else tree.walk (here ++ [name]) rest
    | some (.file _) => .error .refused
    | none => .error .missing

/-- The entry that a path leads to. -/
def find (tree : FileTree) (path : List String) : Except PathFault TreeEntry :=
  tree.walk [] path

/-- The contents of a file. -/
def readFile (tree : FileTree) (path : List String) : Except PathFault Bytes :=
  match tree.find path with
  | .ok (.file data) => .ok data
  | .ok .directory => .error .refused
  | .error fault => .error fault

/-- The names in a directory with what stands there. -/
def readDirectory (tree : FileTree) (path : List String) :
    Except PathFault (List (String × TreeEntry)) :=
  match tree.find path with
  | .ok .directory =>
    .ok (tree.below.entries.filterMap fun (p, entry) =>
      match p.getLast? with
      | some name => if p.dropLast = path then some (name, entry) else none
      | none => none)
  | .ok (.file _) => .error .refused
  | .error fault => .error fault

/-- Makes the directories along the remaining components of a path that are not there yet. -/
def makeAlong (tree : FileTree) (here : List String) : List String → Except PathFault FileTree
  | [] => .ok tree
  | name :: rest =>
    let next := here ++ [name]
    match tree.find next with
    | .ok .directory => tree.makeAlong next rest
    | .error .missing => (tree.put next .directory).makeAlong next rest
    | _ => .error .refused

/-- Makes a directory and those on the way to it. -/
def makeDirectories (tree : FileTree) (path : List String) : Except PathFault FileTree :=
  tree.makeAlong [] path

/-- Creates a file in an existing directory or replaces its contents. -/
def writeFile (tree : FileTree) (path : List String) (data : Bytes) :
    Except PathFault FileTree :=
  match tree.find path with
  | .ok (.file _) | .error .missing =>
    match tree.find path.dropLast with
    | .ok .directory => .ok (tree.put path (.file data))
    | .ok (.file _) => .error .refused
    | .error fault => .error fault
  | .ok .directory => .error .refused
  | .error .refused => .error .refused

/-- Creates or replaces a file, with the directories on the way to it. -/
def plant (tree : FileTree) (path : List String) (data : Bytes) : Except PathFault FileTree := do
  (← tree.makeDirectories path.dropLast).writeFile path data

/-- Moves a file to another path, where it replaces a file but not a directory. -/
def rename (tree : FileTree) (source target : List String) : Except PathFault FileTree := do
  let data ← tree.readFile source
  (tree.remove source).writeFile target data

/-- Deletes a file. -/
def removeFile (tree : FileTree) (path : List String) : Except PathFault FileTree := do
  let _ ← tree.readFile path
  return tree.remove path

end FileTree

end Switchboard
