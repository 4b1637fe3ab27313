import Switchboard.Storage.Disk
import Switchboard.Storage.Memory

/-!
# Stores

A server keeps files either in memory or on disk; both answer to the same operations.
-/

namespace Switchboard

/-- A store of either kind. -/
inductive Store where
  | memory (store : MemoryStore)
  | disk (store : DiskStore)
  deriving Repr, DecidableEq

namespace Store

/-- The files of an owner, in the order of their names. -/
def list (store : Store) (scope owner : String) : Except StorageError (List FileInfo) :=
  match store with
  | memory s => .ok (s.list scope owner)
  | disk s => s.list scope owner

/-- The contents of a file. -/
def read (store : Store) (key : FileKey) : Except StorageError Bytes :=
  match store with
  | memory s => s.read key
  | disk s => s.read key

/-- Creates or replaces a file.  A disk may change even if the write fails. -/
def write (store : Store) (key : FileKey) (data : Bytes) : Store × Except StorageError Unit :=
  match store with
  | memory s =>
    match s.write key data with
    | .ok s => (memory s, .ok ())
    | .error error => (store, .error error)
  | disk s =>
    let (s, result) := s.write key data
    (disk s, result)

/-- Deletes a file, and tells whether there was one. -/
def delete (store : Store) (key : FileKey) : Except StorageError (Store × Bool) :=
  match store with
  | memory s => do
    let (s, found) ← s.delete key
    return (memory s, found)
  | disk s => do
    let (s, found) ← s.delete key
    return (disk s, found)

/-- Whether there is a file. -/
def exists? (store : Store) (key : FileKey) : Except StorageError Bool :=
  match store with
  | memory s => s.exists? key
  | disk s => s.exists? key

/-- What is known about a file, if there is one. -/
def metadata (store : Store) (key : FileKey) : Except StorageError (Option FileInfo) :=
  match store with
  | memory s => s.metadata key
  | disk s => s.metadata key

end Store

end Switchboard
