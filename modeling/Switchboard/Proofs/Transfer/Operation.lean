import Switchboard.Proofs.Scene
import Switchboard.Proofs.Transfer.Slot
import Switchboard.Server

/-!
# Operations on a connection

Everything that can happen to the transfers of one connection, as one function: `Operation.run`.
`UploadChange` and `DownloadChange` say all that an operation can do to the two slots, so that what
holds of the slots in every run needs to be checked for these few changes only.

Main result: `UploadChange.of_expired`, an operation that first fails what is idle still makes one
change.
-/

namespace Switchboard.Transfers

/-- What can happen to a connection. -/
inductive Operation where
  | initiateDownload (filename : String) (data : Bytes)
  | initiateUpload
  | handle (message : ClientMessage)
  | cancel (direction : Direction)
  | sweep
  | report
  | clearFailed
  | flush
  | close
  /-- Other parts of the server queue chunks. -/
  | send (chunks : List Chunk)
  /-- The link takes frames out of the channel. -/
  | receive (count : Nat)
  | setRx (seq : UInt8)

namespace Operation

/-- Carries out an operation: what all connections share, the connection, and the answer, which is
empty for operations that have none. -/
def run (op : Operation) (service : TransferService) (c : Connection) (now : Nat) :
    TransferService × Connection × Except TransferError (Option TransferState) :=
  match op with
  | initiateDownload filename data =>
    let (service, c, result) := service.initiateDownload c now filename data
    (service, c, result.map some)
  | initiateUpload =>
    let (service, c, result) := service.initiateUpload c now
    (service, c, result.map some)
  | handle message => service.handle c now message
  | cancel direction =>
    let (c, state) := c.cancelTransfer service.limits now direction
    (service, c, .ok state)
  | sweep => (service, (c.sweep service.limits now).1, .ok none)
  | report => (service, (c.report service.limits now).1, .ok none)
  | clearFailed => (service, c.clearFailed.1, .ok none)
  | flush => (service, (c.flush now).1, .ok none)
  | close => (service, c.close, .ok none)
  | send chunks => (service, c.send chunks, .ok none)
  | receive count => (service, { c with outbound := (c.outbound.receive count).2 }, .ok none)
  | setRx seq => (service, c.setRx seq, .ok none)

/-- Whether the operation starts a transfer. -/
def isInitiation : Operation → Bool
  | initiateDownload .. | initiateUpload => true
  | _ => false

end Operation

/-- Whether a message is about an upload that the client is sending. -/
def isUploadMessage : ClientMessage → Bool
  | .uploadPicked .. | .uploadStats .. | .uploadData .. | .uploadEnd _ => true
  | _ => false

theorem isUploadMessage_of_move {limits : TransferLimits} {now : Nat} {message : ClientMessage}
    {a next : ActiveTransfer} (h : UploadMove limits now message a next) :
    isUploadMessage message = true := by
  cases h <;> rfl

/-- The message about an upload that an answer accepts. -/
def acceptedUpload (message : ClientMessage) (answer : Except TransferError (Option TransferState)) :
    Option ClientMessage :=
  match answer with
  | .ok (some _) => if isUploadMessage message then some message else none
  | _ => none

/-- The message about an upload that an operation accepts. -/
def Operation.accepted (op : Operation) (answer : Except TransferError (Option TransferState)) :
    Option ClientMessage :=
  match op with
  | .handle message => acceptedUpload message answer
  | _ => none

-- ---------------------------------------------------------------------------
-- Changes of the slots
-- ---------------------------------------------------------------------------

/-- What an operation can do to the upload of a connection, given the message about an upload that it
accepts, if it accepts one. -/
inductive UploadChange (service after : TransferService) (now : Nat) :
    Option ClientMessage → Option ActiveTransfer → Option ActiveTransfer → Prop where
  | same (active : Option ActiveTransfer) : UploadChange service after now none active active
  | ended (accepted : Option ClientMessage) (active : Option ActiveTransfer) :
      UploadChange service after now accepted active none
  | begun (active : Option ActiveTransfer)
      (frames : Script.FitsFrames service.limits.framePayload)
      (issued : after.nextId = service.nextId + 1) :
      UploadChange service after now none active (some
        ⟨{ TransferState.new service.nextId .upload "" 0 now with status := .awaitingFilePick },
          .incoming []⟩)
  | moved {message : ClientMessage} {a next : ActiveTransfer}
      (move : UploadMove service.limits now message a next) :
      UploadChange service after now (some message) (some a) (some next)

/-- What an operation can do to the download of a connection. -/
inductive DownloadChange (service after : TransferService) (now : Nat) :
    Option ActiveTransfer → Option ActiveTransfer → Prop where
  | same (active : Option ActiveTransfer) : DownloadChange service after now active active
  | ended (active : Option ActiveTransfer) : DownloadChange service after now active none
  | begun {filename : String} {data : Bytes} (active : Option ActiveTransfer)
      (valid : checkName filename = .ok ())
      (fits : data.length ≤ min service.limits.maxFileSize (UInt32.size - 1))
      (issued : after.nextId = service.nextId + 1) :
      DownloadChange service after now active (some
        ⟨{ TransferState.new service.nextId .download filename data.length now with
            status := .awaitingAck },
          .outgoing data⟩)
  | acked {a : ActiveTransfer} (status : a.state.status = .awaitingAck) :
      DownloadChange service after now (some a) (some { a with state := { a.state with
        status := .streaming, offset := a.state.size, lastActivity := now } })
  /-- A segment has left. -/
  | touched {a : ActiveTransfer} (status : a.state.status = .streaming) :
      DownloadChange service after now (some a)
        (some { a with state := { a.state with lastActivity := now } })

section Expiry

variable {service after : TransferService} {now : Nat} {accepted : Option ClientMessage}
  {active mid final : Option ActiveTransfer}

/-- Expiry comes first, and leaves the transfer or ends it. -/
theorem UploadChange.of_expired (h : UploadChange service after now accepted mid final)
    (hmid : mid = active ∨ mid = none) : UploadChange service after now accepted active final := by
  rcases hmid with rfl | rfl
  · exact h
  · cases h with
    -- if expiry has ended the transfer, nothing is there for the operation to change or to end
    | same => exact .ended none active
    | ended => exact .ended accepted active
    | begun _ frames issued => exact .begun active frames issued

end Expiry

end Switchboard.Transfers
