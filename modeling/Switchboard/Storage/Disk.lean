import Switchboard.Storage.Tree
import Switchboard.Text.Decimal

/-!
# Files on disk

A store that keeps each file in a tree under the path of its key.  A write goes through a temporary
file beside the target, so that nobody sees half of it; listings leave such files out.
-/

namespace Switchboard

/-- A directory tree used as a store by the process with the given number. -/
structure DiskStore where
  tree : FileTree
  process : Nat
  deriving Repr, DecidableEq

namespace DiskStore

/-- What the names of temporary files start with. -/
def temporaryMark : String := ".tmp-"

/-- The name of the temporary file through which a file is written. -/
def temporaryName (process : Nat) (name : String) : String :=
  temporaryMark ++ Text.number process ++ "-" ++ name

/-- A fault of the tree as an error of the store. -/
def orIo {α : Type} : Except PathFault α → Except StorageError α
  | .ok a => .ok a
  | .error _ => .error .io

/-- The files of an owner, in the order of their names. -/
def list (store : DiskStore) (scope owner : String) : Except StorageError (List FileInfo) := do
  checkName scope
  checkName owner
  match store.tree.readDirectory [scope, owner] with
  | .error .missing => return []
  | .error .refused => .error .io
  | .ok entries =>
    return FileInfo.sort <| entries.filterMap fun (name, entry) =>
      match entry with
      | .file data =>
        if temporaryMark.toList.isPrefixOf name.toList then none else some ⟨name, data.length⟩
      | .directory => none

/-- The contents of a file. -/
def read (store : DiskStore) (key : FileKey) : Except StorageError Bytes := do
  key.check
  match store.tree.readFile key.components with
  | .ok data => return data
  | .error .missing => .error (.notFound key.path)
  | .error .refused => .error .io

/-- The tree after a write, whether it succeeds or not: first the directories are made, then the
temporary file is written, then it is renamed; if that fails it is deleted again. -/
def writeTree (store : DiskStore) (key : FileKey) (data : Bytes) :
    FileTree × Except StorageError Unit :=
  match store.tree.makeDirectories [key.scope, key.owner] with
  | .error _ => (store.tree, .error .io)
  | .ok tree =>
    let temporary := [key.scope, key.owner, temporaryName store.process key.name]
    match tree.writeFile temporary data with
    | .error _ => (tree, .error .io)
    | .ok written =>
      match written.rename temporary key.components with
      | .ok renamed => (renamed, .ok ())
      | .error _ => (written.remove temporary, .error .io)

/-- Creates or replaces a file. -/
def write (store : DiskStore) (key : FileKey) (data : Bytes) :
    DiskStore × Except StorageError Unit :=
  match key.check with
  | .error error => (store, .error error)
  | .ok () =>
    let (tree, result) := store.writeTree key data
    ({ store with tree }, result)

/-- Deletes a file, and tells whether there was one. -/
def delete (store : DiskStore) (key : FileKey) : Except StorageError (DiskStore × Bool) := do
  key.check
  match store.tree.removeFile key.components with
  | .ok tree => return ({ store with tree }, true)
  | .error .missing => return (store, false)
  | .error .refused => .error .io

/-- Whether there is a file. -/
def exists? (store : DiskStore) (key : FileKey) : Except StorageError Bool := do
  key.check
  return (store.tree.readFile key.components).isOk

/-- What is known about a file, if there is one. -/
def metadata (store : DiskStore) (key : FileKey) : Except StorageError (Option FileInfo) := do
  key.check
  match store.tree.find key.components with
  | .ok (.file data) => return some ⟨key.name, data.length⟩
  | .ok .directory => return none
  | .error .missing => return none
  | .error .refused => .error .io

end DiskStore

end Switchboard
