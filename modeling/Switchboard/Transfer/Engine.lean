import Switchboard.Storage.Store
import Switchboard.Transfer.Notice

/-!
# Running transfers

A download is announced; the client accepts it, receives it in segments with an end marker, and
confirms it.  For an upload the client is asked to pick a file, then for its size; it is let go
ahead, sends the file in pieces and says when it is done, and the file is stored under its name.

Expiry is lazy: every operation first fails what has been idle for too long.

An upload step that finds a fault does so in two separate moments.  First it *decides*, looking at
the slot; then it *fails the upload*, going to the slot again.  Both are functions of their own here,
`decide…` and `failUpload`, because something else may happen in between.
-/

namespace Switchboard

/-- What all transfers of a server share. -/
structure TransferService where
  limits : TransferLimits
  store : Store
  /-- The id of the next transfer. -/
  nextId : UInt32
  deriving Repr, DecidableEq

/-- Where received files are kept. -/
def uploadScope : String := "uploads"

/-- The files that every client may download. -/
def libraryKey (name : String) : FileKey := ⟨"library", "public", name⟩

/-- The file name in a path that a client has picked: what follows the last separator, without
white space around it. -/
def baseName (picked : String) : String :=
  let isSeparator (c : Char) : Bool := c == '/' || c == '\\' || c == ':'
  String.ofList (Text.trim (picked.toList.reverse.takeWhile fun c => !isSeparator c).reverse)

/-- The active transfer, if it has the given id and status. -/
def Slot.expect (slot : Slot) (id : UInt32) (status : TransferStatus) :
    Except TransferError ActiveTransfer :=
  match slot.active with
  | none => .error (.unknownTransfer id)
  | some active =>
    if active.state.id ≠ id then .error (.unknownTransfer id)
    else if active.state.status ≠ status then .error (.unexpectedState id active.state.status)
    else .ok active

-- ---------------------------------------------------------------------------
-- Ending transfers from the server's side
-- ---------------------------------------------------------------------------

namespace Connection

/-- Fails what has been idle for too long and tells the client; tells what it was. -/
def sweep (c : Connection) (limits : TransferLimits) (now : Nat) :
    Connection × List TransferState :=
  let (transfers, expired) := c.transfers.expire now limits.timeout
  let c := { c with transfers }
  (expired.foldl (fun c state => c.abort limits.framePayload state.id "Transfer timed out") c,
    expired)

/-- Cancels the transfer in a direction and tells the client; tells which it was. -/
def cancelTransfer (c : Connection) (limits : TransferLimits) (now : Nat) (direction : Direction) :
    Connection × Option TransferState :=
  let (c, _) := c.sweep limits now
  let (slot, ended) := (c.transfers.slot direction).finish .cancelled
  match ended with
  | none => (c, none)
  | some state =>
    ((c.setSlot direction slot).abort limits.framePayload state.id "Cancelled by host", some state)

/-- Fails the upload in the slot, whatever it is by now, and tells the client about the transfer with
the given id. -/
def failUpload (c : Connection) (framePayload : Nat) (id : UInt32) (reason : FailureReason) :
    Connection :=
  match c.transfers.upload.fail reason with
  | (_, none) => c
  | (slot, some _) =>
    (c.setSlot .upload slot).abort framePayload id ("Upload failed: " ++ reason.message)

end Connection

-- ---------------------------------------------------------------------------
-- Downloads
-- ---------------------------------------------------------------------------

/-- The pieces of a file behind those of `done`, which stand latest first: each of `size` bytes but
the last. -/
def pieces (size : Nat) (done : List Bytes) : Bytes → List Bytes
  | [] => done.reverse
  | byte :: rest =>
    pieces size ((byte :: rest.take (size - 1)) :: done) (rest.drop (size - 1))
  termination_by data => data.length
  decreasing_by
    simp only [List.length_drop, List.length_cons]
    omega

/-- The bytes of a transfer id in front of every segment. -/
def segmentHead : Nat := 4

/-- The largest piece of a file that fits one frame; at least one byte. -/
def segmentRoom (framePayload : Nat) : Nat :=
  max 1 (framePayload - (Chunk.headLength + segmentHead))

/-- The chunks of a download: segments of one frame each, then the end marker. -/
def downloadChunks (framePayload : Nat) (streamId : UInt16) (id : UInt32) (data : Bytes) :
    List Chunk :=
  let segment (piece : Bytes) : Chunk :=
    .single .downloadData streamId (downloadSegment id piece) "xfer_download"
  (pieces (segmentRoom framePayload) [] data).map segment ++
    [.single .downloadEnd streamId (downloadEnd id (UInt32.ofNat data.length)) "xfer_download"]

namespace Connection

/-- The client accepts a download: its segments are queued. -/
def downloadAck (c : Connection) (limits : TransferLimits) (now : Nat) (id : UInt32) :
    Connection × Except TransferError TransferState :=
  match c.transfers.download.expect id .awaitingAck with
  | .error error => (c, .error error)
  | .ok active =>
    match active.cargo with
    | .incoming _ => (c, .error (.unexpectedState id active.state.status))
    | .outgoing data =>
      let (c, streamId) := c.takeStreamId
      let state := { active.state with
        status := .streaming, offset := active.state.size, lastActivity := now }
      let slot := { c.transfers.download with active := some { active with state } }
      ((c.setSlot .download slot).send (downloadChunks limits.framePayload streamId id data),
        .ok state)

/-- The client has stored a download. -/
def downloadConfirm (c : Connection) (id : UInt32) :
    Connection × Except TransferError TransferState :=
  match c.transfers.download.expect id .streaming with
  | .error error => (c, .error error)
  | .ok _ =>
    match c.transfers.download.finish .completed with
    | (_, none) => (c, .error (.unknownTransfer id))
    | (slot, some state) => (c.setSlot .download slot, .ok state)

end Connection

-- ---------------------------------------------------------------------------
-- Uploads
-- ---------------------------------------------------------------------------

/-- What an upload step decides when it looks at the slot. -/
inductive UploadDecision where
  /-- The message does not fit; nothing changes. -/
  | refuse (error : TransferError)
  /-- The upload is to fail. -/
  | fail (reason : FailureReason) (error : TransferError)
  /-- The slot moves on, and the state of the transfer is now the given one. -/
  | proceed (slot : Slot) (state : TransferState)
  deriving Repr, DecidableEq

namespace Slot

/-- The slot with another state of its active transfer. -/
def advance (slot : Slot) (active : ActiveTransfer) (state : TransferState) : UploadDecision :=
  .proceed { slot with active := some { active with state } } state

/-- The client has picked a file, or none. -/
def decidePicked (slot : Slot) (now : Nat) (id : UInt32) (picked : String) : UploadDecision :=
  match slot.expect id .awaitingFilePick with
  | .error error => .refuse error
  | .ok active =>
    let filename := baseName picked
    if filename.isEmpty then
      match slot.finish .cancelled with
      | (_, none) => .refuse (.unknownTransfer id)
      | (slot, some state) => .proceed slot state
    else
      match checkName filename with
      | .error error => .fail (.storage error.message) (.storage error)
      | .ok () => slot.advance active
          { active.state with filename, status := .awaitingStats, lastActivity := now }

/-- The client tells the size of the file. -/
def decideStats (slot : Slot) (limits : TransferLimits) (now : Nat) (id : UInt32) (size : Nat) :
    UploadDecision :=
  match slot.expect id .awaitingStats with
  | .error error => .refuse error
  | .ok active =>
    let limit := limits.maxFileSize
    if limit < size then .fail (.sizeLimitExceeded limit size) (.sizeLimitExceeded limit size)
    else slot.advance active { active.state with size, status := .streaming, lastActivity := now }

/-- The client sends a piece of the file. -/
def decideData (slot : Slot) (now : Nat) (id : UInt32) (data : Bytes) : UploadDecision :=
  match slot.expect id .streaming with
  | .error error => .refuse error
  | .ok active =>
    let limit := active.state.size
    let received := active.state.offset + data.length
    if limit < received then
      .fail (.sizeLimitExceeded limit received) (.sizeLimitExceeded limit received)
    else
      let cargo := match active.cargo with
        | .incoming before => .incoming (data.reverseAux before)
        | .outgoing file => .outgoing file
      slot.advance { active with cargo } { active.state with offset := received, lastActivity := now }

/-- The client says that the file is complete: it is stored if it is. -/
def decideEnd (slot : Slot) (store : Store) (owner : String) (id : UInt32) :
    Store × UploadDecision :=
  match slot.expect id .streaming with
  | .error error => (store, .refuse error)
  | .ok active =>
    let expected := active.state.size
    let received := active.state.offset
    if received ≠ expected then
      (store, .fail (.shortUpload expected received) (.shortUpload expected received))
    else
      let filename := active.state.filename
      let (store, written) := match active.cargo with
        | .incoming latest => store.write ⟨uploadScope, owner, filename⟩ latest.reverse
        | .outgoing _ => (store, .error (.notFound filename))
      match written with
      | .error error => (store, .fail (.storage error.message) (.storage error))
      | .ok () =>
        match slot.finish .completed with
        | (_, none) => (store, .refuse (.unknownTransfer id))
        | (slot, some state) => (store, .proceed slot state)

end Slot

namespace Connection

/-- Carries out what an upload step has decided. -/
def settle (c : Connection) (framePayload : Nat) (id : UInt32) :
    UploadDecision → Connection × Except TransferError TransferState
  | .refuse error => (c, .error error)
  | .fail reason error => (c.failUpload framePayload id reason, .error error)
  | .proceed slot state => (c.setSlot .upload slot, .ok state)

/-- Sends a scene about an upload that has moved on. -/
def follow (c : Connection) (framePayload : Nat) (scene : Scene) (state : TransferState) :
    Connection × Except TransferError TransferState :=
  match c.sceneChunks framePayload scene state.id [] with
  | (c, .ok chunks) => (c.send chunks, .ok state)
  | (c, .error error) => (c, .error (.scene error))

/-- The client has picked a file: it is asked for the size. -/
def uploadPicked (c : Connection) (limits : TransferLimits) (now : Nat) (id : UInt32)
    (picked : String) : Connection × Except TransferError TransferState :=
  match c.settle limits.framePayload id (c.transfers.upload.decidePicked now id picked) with
  | (c, .ok state) =>
    if state.status.isTerminal then (c, .ok state)
    else c.follow limits.framePayload .uploadStat state
  | refused => refused

/-- The client tells the size of the file: it may go ahead. -/
def uploadStats (c : Connection) (limits : TransferLimits) (now : Nat) (id : UInt32) (size : Nat) :
    Connection × Except TransferError TransferState :=
  match c.settle limits.framePayload id (c.transfers.upload.decideStats limits now id size) with
  | (c, .ok state) => c.follow limits.framePayload .uploadAuthorize state
  | refused => refused

/-- The client sends a piece of the file. -/
def uploadData (c : Connection) (limits : TransferLimits) (now : Nat) (id : UInt32)
    (data : Bytes) : Connection × Except TransferError TransferState :=
  c.settle limits.framePayload id (c.transfers.upload.decideData now id data)

/-- The client says that the file is complete. -/
def uploadEnd (c : Connection) (limits : TransferLimits) (store : Store) (id : UInt32) :
    Store × Connection × Except TransferError TransferState :=
  let (store, decision) := c.transfers.upload.decideEnd store c.identity id
  (store, c.settle limits.framePayload id decision)

-- ---------------------------------------------------------------------------
-- Either direction
-- ---------------------------------------------------------------------------

/-- The client cancels a transfer, whichever slot it is in. -/
def clientCancel (c : Connection) (id : UInt32) : Connection × Except TransferError TransferState :=
  let holds (direction : Direction) : Bool :=
    (c.transfers.slot direction).active.any (·.state.id = id)
  let cancelIn (direction : Direction) : Connection × Except TransferError TransferState :=
    match (c.transfers.slot direction).finish .cancelled with
    | (_, none) => (c, .error (.unknownTransfer id))
    | (slot, some state) => (c.setSlot direction slot, .ok state)
  if holds .download then cancelIn .download
  else if holds .upload then cancelIn .upload
  else (c, .error (.unknownTransfer id))

end Connection

/-- The transfers of a connection as reports show them. -/
structure TransferReport where
  download : Option TransferState
  upload : Option TransferState
  lastDownload : Option TransferState
  lastUpload : Option TransferState
  failed : List TransferState
  deriving Repr, DecidableEq

/-- Expires what is idle, and tells how the transfers of a connection stand. -/
def Connection.report (c : Connection) (limits : TransferLimits) (now : Nat) :
    Connection × TransferReport :=
  let (c, _) := c.sweep limits now
  let slots := c.transfers
  (c, ⟨slots.active .download, slots.active .upload, slots.last .download, slots.last .upload,
    slots.failed⟩)

/-- Forgets the failures of a connection, and tells how many there were. -/
def Connection.clearFailed (c : Connection) : Connection × Nat :=
  let (transfers, count) := c.transfers.clearFailed
  ({ c with transfers }, count)

namespace TransferService

/-- Gives out the id of a new transfer. -/
def takeId (service : TransferService) : TransferService × UInt32 :=
  ({ service with nextId := service.nextId + 1 }, service.nextId)

/-- Puts a new transfer into a free slot and sends the scene that starts it. -/
def start (service : TransferService) (c : Connection) (now : Nat) (direction : Direction)
    (status : TransferStatus) (scene : Scene) (params : List (String × String))
    (filename : String) (size : Nat) (cargo : Cargo) :
    TransferService × Connection × Except TransferError TransferState :=
  match (c.transfers.slot direction).active with
  | some active => (service, c, .error (.conflict direction active.state.id))
  | none =>
    let (service, id) := service.takeId
    match c.sceneChunks service.limits.framePayload scene id params with
    | (c, .error error) => (service, c, .error (.scene error))
    | (c, .ok chunks) =>
      let state := { TransferState.new id direction filename size now with status }
      let slot := { c.transfers.slot direction with active := some ⟨state, cargo⟩ }
      (service, (c.setSlot direction slot).send chunks, .ok state)

/-- Starts serving a file to the client. -/
def initiateDownload (service : TransferService) (c : Connection) (now : Nat) (filename : String)
    (data : Bytes) : TransferService × Connection × Except TransferError TransferState :=
  let (c, _) := c.sweep service.limits now
  match checkName filename with
  | .error error => (service, c, .error (.storage error))
  | .ok () =>
    let size := data.length
    let limit := min service.limits.maxFileSize (UInt32.size - 1)
    if limit < size then (service, c, .error (.sizeLimitExceeded limit size))
    else
      service.start c now .download .awaitingAck .downloadAnnounce
        [("size", Text.number size), ("filename", filename)] filename size (.outgoing data)

/-- Asks the client to pick a file to send. -/
def initiateUpload (service : TransferService) (c : Connection) (now : Nat) :
    TransferService × Connection × Except TransferError TransferState :=
  let (c, _) := c.sweep service.limits now
  service.start c now .upload .awaitingFilePick .uploadPicker [] "" 0 (.incoming [])

/-- Applies a message from the client that is about a transfer; nothing if it is not. -/
def apply (service : TransferService) (c : Connection) (now : Nat) :
    ClientMessage → Option (TransferService × Connection × Except TransferError TransferState)
  | .downloadAck id => some (service, c.downloadAck service.limits now id)
  | .downloadConfirm id => some (service, c.downloadConfirm id)
  | .cancel id => some (service, c.clientCancel id)
  | .uploadPicked id picked => some (service, c.uploadPicked service.limits now id picked)
  | .uploadStats id size => some (service, c.uploadStats service.limits now id size.toNat)
  | .uploadData id data => some (service, c.uploadData service.limits now id data)
  | .uploadEnd id =>
    let (store, c, result) := c.uploadEnd service.limits service.store id
    some ({ service with store }, c, result)
  | .signOn _ | .other .. => none

/-- Takes a message from the client: expires what is idle and applies it.  A message about a transfer
that has just expired is told apart from one about a transfer that is not there.  The result is
nothing if the message is not about a transfer. -/
def handle (service : TransferService) (c : Connection) (now : Nat) (message : ClientMessage) :
    TransferService × Connection × Except TransferError (Option TransferState) :=
  let (c, expired) := c.sweep service.limits now
  match service.apply c now message with
  | none => (service, c, .ok none)
  | some (service, c, .ok state) => (service, c, .ok (some state))
  | some (service, c, .error (.unknownTransfer id)) =>
    if expired.any (·.id = id) then (service, c, .error (.timeout id))
    else (service, c, .error (.unknownTransfer id))
  | some (service, c, .error error) => (service, c, .error error)

end TransferService

end Switchboard
