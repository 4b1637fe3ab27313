import Switchboard.Bytes
import Switchboard.Text.Decimal

/-!
# Transfers and their slots

A connection has one slot for a download and one for an upload, and each holds at most one transfer
that has not ended.  An ended transfer leaves its slot at once.  The slot remembers the last transfer
that ended, however it did, and the most recent ones that failed.

Times are milliseconds since the server started.
-/

namespace Switchboard

/-- Which way a file travels, seen from the client. -/
inductive Direction where
  | download
  | upload
  deriving Repr, DecidableEq

/-- How messages refer to the direction. -/
def Direction.label : Direction → String
  | download => "download"
  | upload => "upload"

/-- How far a transfer has come. -/
inductive TransferStatus where
  | initiated
  | awaitingAck
  | awaitingFilePick
  | awaitingStats
  | streaming
  | completed
  | failed
  | cancelled
  deriving Repr, DecidableEq

namespace TransferStatus

/-- How messages refer to the status. -/
def label : TransferStatus → String
  | initiated => "Initiated"
  | awaitingAck => "AwaitingAck"
  | awaitingFilePick => "AwaitingFilePick"
  | awaitingStats => "AwaitingStats"
  | streaming => "Streaming"
  | completed => "Completed"
  | failed => "Failed"
  | cancelled => "Cancelled"

/-- Whether the transfer has ended. -/
def isTerminal : TransferStatus → Bool
  | completed | failed | cancelled => true
  | _ => false

end TransferStatus

/-- Why a transfer failed. -/
inductive FailureReason where
  | timeout
  | sizeLimitExceeded (limit size : Nat)
  | shortUpload (expected received : Nat)
  | storage (message : String)
  deriving Repr, DecidableEq

/-- The wording of the reason. -/
def FailureReason.message : FailureReason → String
  | timeout => "timed out"
  | sizeLimitExceeded limit size =>
    Text.number size ++ " bytes exceeds the " ++ Text.number limit ++ " byte limit"
  | shortUpload expected received =>
    "received " ++ Text.number received ++ " of " ++ Text.number expected ++ " bytes"
  | storage message => "storage: " ++ message

/-- What can be seen of a transfer. -/
structure TransferState where
  id : UInt32
  direction : Direction
  filename : String
  /-- The size in bytes; zero until the client has told it. -/
  size : Nat
  /-- The bytes handed on so far. -/
  offset : Nat
  status : TransferStatus
  failure : Option FailureReason
  /-- When something last happened. -/
  lastActivity : Nat
  deriving Repr, DecidableEq

/-- A transfer that begins. -/
def TransferState.new (id : UInt32) (direction : Direction) (filename : String) (size now : Nat) :
    TransferState :=
  ⟨id, direction, filename, size, 0, .initiated, none, now⟩

/-- The bytes that go with a transfer. -/
inductive Cargo where
  /-- The file being served. -/
  | outgoing (data : Bytes)
  /-- What has been received, latest byte first. -/
  | incoming (latest : Bytes)
  deriving Repr, DecidableEq

/-- A transfer that has not ended. -/
structure ActiveTransfer where
  state : TransferState
  cargo : Cargo
  deriving Repr, DecidableEq

/-- A place for one transfer. -/
structure Slot where
  active : Option ActiveTransfer
  /-- The last transfer that ended. -/
  last : Option TransferState
  /-- The most recent failures, oldest first. -/
  failed : List TransferState
  deriving Repr, DecidableEq

namespace Slot

/-- How many failures a slot remembers. -/
def historyLimit : Nat := 32

/-- A slot that has not been used. -/
def empty : Slot := ⟨none, none, []⟩

/-- The history with one more failure; the oldest makes room. -/
def remember (history : List TransferState) (state : TransferState) : List TransferState :=
  (if history.length = historyLimit then history.drop 1 else history) ++ [state]

/-- Ends the active transfer as failed, and tells which it was. -/
def fail (slot : Slot) (reason : FailureReason) : Slot × Option TransferState :=
  match slot.active with
  | none => (slot, none)
  | some active =>
    let state := { active.state with status := .failed, failure := some reason }
    (⟨none, some state, remember slot.failed state⟩, some state)

/-- Ends the active transfer in a way that is no failure, and tells which it was. -/
def finish (slot : Slot) (status : TransferStatus) : Slot × Option TransferState :=
  match slot.active with
  | none => (slot, none)
  | some active =>
    let state := { active.state with status }
    ({ slot with active := none, last := some state }, some state)

/-- Whether the active transfer has been idle for `timeout`. -/
def isIdle (slot : Slot) (now timeout : Nat) : Bool :=
  slot.active.any fun active => timeout ≤ now - active.state.lastActivity

/-- Fails the active transfer if it has been idle for `timeout`. -/
def expire (slot : Slot) (now timeout : Nat) : Slot × Option TransferState :=
  if slot.isIdle now timeout then slot.fail .timeout else (slot, none)

/-- Notes activity on the active transfer if it has the given id and is streaming, and tells whether
it did. -/
def touch (slot : Slot) (now : Nat) (id : UInt32) : Slot × Bool :=
  match slot.active with
  | some active =>
    if active.state.id = id ∧ active.state.status = .streaming then
      let state := { active.state with lastActivity := now }
      ({ slot with active := some { active with state } }, true)
    else (slot, false)
  | none => (slot, false)

end Slot

/-- The two slots of a connection. -/
structure TransferSlots where
  download : Slot
  upload : Slot
  deriving Repr, DecidableEq

namespace TransferSlots

/-- Slots that have not been used. -/
def empty : TransferSlots := ⟨.empty, .empty⟩

/-- The slot for a direction. -/
def slot (slots : TransferSlots) : Direction → Slot
  | .download => slots.download
  | .upload => slots.upload

/-- Replaces the slot for a direction. -/
def setSlot (slots : TransferSlots) (direction : Direction) (slot : Slot) : TransferSlots :=
  match direction with
  | .download => { slots with download := slot }
  | .upload => { slots with upload := slot }

/-- The transfer in a slot, if there is one. -/
def active (slots : TransferSlots) (direction : Direction) : Option TransferState :=
  (slots.slot direction).active.map (·.state)

/-- The last transfer in a direction that ended. -/
def last (slots : TransferSlots) (direction : Direction) : Option TransferState :=
  (slots.slot direction).last

/-- The failures remembered: downloads first, oldest first. -/
def failed (slots : TransferSlots) : List TransferState :=
  slots.download.failed ++ slots.upload.failed

/-- Forgets the failures, and tells how many there were. -/
def clearFailed (slots : TransferSlots) : TransferSlots × Nat :=
  (⟨{ slots.download with failed := [] }, { slots.upload with failed := [] }⟩,
    slots.download.failed.length + slots.upload.failed.length)

/-- Ends what is in the slots as cancelled, and tells what it was. -/
def cancelAll (slots : TransferSlots) : TransferSlots × List TransferState :=
  let (download, d) := slots.download.finish .cancelled
  let (upload, u) := slots.upload.finish .cancelled
  (⟨download, upload⟩, d.toList ++ u.toList)

/-- Fails what has been idle for `timeout`, and tells what it was. -/
def expire (slots : TransferSlots) (now timeout : Nat) : TransferSlots × List TransferState :=
  let (download, d) := slots.download.expire now timeout
  let (upload, u) := slots.upload.expire now timeout
  (⟨download, upload⟩, d.toList ++ u.toList)

/-- Notes activity on a streaming transfer, and tells whether it is there. -/
def touch (slots : TransferSlots) (now : Nat) (direction : Direction) (id : UInt32) :
    TransferSlots × Bool :=
  let (slot, found) := (slots.slot direction).touch now id
  (slots.setSlot direction slot, found)

end TransferSlots

end Switchboard
