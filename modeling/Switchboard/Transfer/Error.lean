import Switchboard.Script.Error
import Switchboard.Storage.Key
import Switchboard.Transfer.State

/-!
# What can be wrong with a transfer

Every fault that a transfer can meet, with the one place that words it.
-/

namespace Switchboard

/-- Why an operation on transfers is refused. -/
inductive TransferError where
  /-- The slot is taken. -/
  | conflict (direction : Direction) (id : UInt32)
  /-- The transfer was idle for too long. -/
  | timeout (id : UInt32)
  | sizeLimitExceeded (limit size : Nat)
  | shortUpload (expected received : Nat)
  | storage (error : StorageError)
  | unknownTransfer (id : UInt32)
  /-- The transfer has not come as far, or has come further. -/
  | unexpectedState (id : UInt32) (status : TransferStatus)
  /-- The scene for the client cannot be compiled. -/
  | scene (error : CompileError)
  deriving Repr, DecidableEq

/-- The wording of the error. -/
def TransferError.message : TransferError → String
  | conflict direction id => s!"a {direction.label} transfer ({id}) is already in progress"
  | timeout id => s!"transfer {id} timed out"
  | sizeLimitExceeded limit size => s!"{size} bytes exceeds the {limit} byte limit"
  | shortUpload expected received => s!"upload ended after {received} of {expected} bytes"
  | storage error => s!"storage: {error.message}"
  | unknownTransfer id => s!"no active transfer {id}"
  | unexpectedState id status => s!"transfer {id} is {status.label}"
  | scene error => s!"scene: {error.message}"

end Switchboard
