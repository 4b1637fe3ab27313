import Switchboard.Dictionary
import Switchboard.Storage.Key

/-!
# Files in memory

A store that keeps its files as a map from keys to contents.  It can be set up to refuse changes.
-/

namespace Switchboard

/-- Files by key. -/
structure MemoryStore where
  files : Dictionary FileKey Bytes
  readOnly : Bool
  deriving Repr, DecidableEq

namespace MemoryStore

/-- A store without files. -/
def empty : MemoryStore := ⟨.empty, false⟩

/-- A store without files that refuses changes. -/
def emptyReadOnly : MemoryStore := ⟨.empty, true⟩

/-- The files of an owner, in the order of their names.  Names that no file can have find nothing. -/
def list (store : MemoryStore) (scope owner : String) : List FileInfo :=
  FileInfo.sort <| store.files.entries.filterMap fun (key, data) =>
    if key.scope = scope ∧ key.owner = owner then some ⟨key.name, data.length⟩ else none

/-- The contents of a file. -/
def read (store : MemoryStore) (key : FileKey) : Except StorageError Bytes := do
  key.check
  match store.files.get? key with
  | some data => return data
  | none => .error (.notFound key.path)

/-- Creates or replaces a file. -/
def write (store : MemoryStore) (key : FileKey) (data : Bytes) :
    Except StorageError MemoryStore := do
  key.check
  if store.readOnly then .error .readOnly
  else return { store with files := store.files.put key data }

/-- Deletes a file, and tells whether there was one. -/
def delete (store : MemoryStore) (key : FileKey) : Except StorageError (MemoryStore × Bool) := do
  key.check
  if store.readOnly then .error .readOnly
  else return ({ store with files := store.files.erase key }, (store.files.get? key).isSome)

/-- Whether there is a file. -/
def exists? (store : MemoryStore) (key : FileKey) : Except StorageError Bool := do
  key.check
  return (store.files.get? key).isSome

/-- What is known about a file, if there is one. -/
def metadata (store : MemoryStore) (key : FileKey) : Except StorageError (Option FileInfo) := do
  key.check
  return (store.files.get? key).map fun data => ⟨key.name, data.length⟩

end MemoryStore

end Switchboard
