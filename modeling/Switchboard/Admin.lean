import Switchboard.Atom.Listing
import Switchboard.Server
import Switchboard.Source.Parse

/-!
# Administration

What the operator of a server can ask for: compiling source text, sending something to a client,
starting and ending transfers, and reports.  A request that is refused is answered with a status code
of the web and a text.
-/

namespace Switchboard

/-- The answer to a request that is refused. -/
structure Refusal where
  status : Nat
  text : String
  deriving Repr, DecidableEq

namespace Refusal

/-- Nobody is online under the name. -/
def notOnline (screenName : String) : Refusal :=
  ⟨404, screenName ++ " is not online"⟩

/-- A script cannot be compiled. -/
def ofCompileError (error : CompileError) : Refusal :=
  match error with
  | .unknownScene _ => ⟨404, error.message⟩
  | _ => ⟨400, error.message⟩

/-- A transfer operation is refused. -/
def ofTransferError (error : TransferError) : Refusal :=
  let status := match error with
    | .conflict .. => 409
    | .sizeLimitExceeded .. => 413
    | .storage (.notFound _) => 404
    | .storage (.invalidName _) => 400
    | .storage _ => 500
    | .scene _ => 400
    | .timeout _ | .shortUpload .. | .unknownTransfer _ | .unexpectedState .. => 422
  ⟨status, error.message⟩

/-- A result of compiling, or the refusal for its error. -/
def orCompile {α : Type} : Except CompileError α → Except Refusal α
  | .ok a => .ok a
  | .error error => .error (ofCompileError error)

/-- A result of a transfer operation, or the refusal for its error. -/
def orTransfer {α : Type} : Except TransferError α → Except Refusal α
  | .ok a => .ok a
  | .error error => .error (ofTransferError error)

end Refusal

/-- A compiled source text. -/
structure Compilation where
  atoms : List Atom
  encoded : Encoded
  chunks : List Chunk

/-- What to send to a client: source text or a scene. -/
structure SendRequest where
  screenName : String
  source : Option String
  scene : Option String
  params : List (String × String)
  /-- Whether to send a burst at once. -/
  immediate : Bool
  deriving Repr, DecidableEq

/-- What was sent to a client. -/
structure SendAnswer where
  screenName : String
  streamId : UInt16
  chunks : Nat
  /-- How many chunks left at once. -/
  sentNow : Nat
  deriving Repr, DecidableEq

/-- A file to serve to a client: the given bytes in hexadecimal, or a file of the library. -/
structure DownloadRequest where
  screenName : String
  filename : String
  content : Option String
  deriving Repr, DecidableEq

namespace Server

/-- Continues with the connection online under a screen name. -/
def withOnline {α : Type} (server : Server) (screenName : String)
    (next : Nat → Connection → Server × Except Refusal α) : Server × Except Refusal α :=
  match server.online? screenName with
  | none => (server, .error (.notOnline screenName))
  | some (i, c) => next i c

/-- Compiles a source text. -/
def compileSource (server : Server) (source : String) (streamId : UInt16) :
    Except Refusal Compilation := do
  let script ← Refusal.orCompile (Script.parse source)
  let atoms ← Refusal.orCompile script.flatten
  let encoded ← Refusal.orCompile script.encode
  let chunks ← Refusal.orCompile (script.compile server.framePayload streamId "api_compile")
  return ⟨atoms, encoded, chunks⟩

/-- The script that a request describes, with the label of its chunks. -/
def sendScript (request : SendRequest) (c : Connection) :
    Except Refusal (Script × String) :=
  match request.source, request.scene with
  | some source, none => do return (← Refusal.orCompile (Script.parse source), "api_source")
  | none, some scene => do
    return (← Refusal.orCompile (Scene.render scene ⟨c.screenName, request.params⟩), scene)
  | _, _ => .error ⟨400, "exactly one of source or scene is required"⟩

/-- Sends something to a client. -/
def sendTo (server : Server) (now : Nat) (request : SendRequest) :
    Server × Except Refusal SendAnswer :=
  server.withOnline request.screenName fun i c =>
    match sendScript request c with
    | .error refusal => (server, .error refusal)
    | .ok (script, label) =>
      let (c, streamId) := c.takeStreamId
      match Refusal.orCompile (script.compile server.framePayload streamId label) with
      | .error refusal => (server.put i c, .error refusal)
      | .ok chunks =>
        let (c, sentNow) := if request.immediate then c.sendNow now chunks else (c.send chunks, 0)
        (server.put i c, .ok ⟨c.screenName, streamId, chunks.length, sentNow⟩)

/-- The bytes that a download request asks for. -/
def downloadContent (server : Server) (request : DownloadRequest) : Except Refusal Bytes :=
  match request.content with
  | some digits =>
    match Text.hexDecode? digits.toList with
    | some bytes => .ok bytes
    | none => .error ⟨400, "invalid hex"⟩
  | none =>
    match server.transfers.store.read (libraryKey request.filename) with
    | .ok bytes => .ok bytes
    | .error error => .error (.ofTransferError (.storage error))

/-- Starts serving a file to a client. -/
def downloadTo (server : Server) (now : Nat) (request : DownloadRequest) :
    Server × Except Refusal TransferState :=
  server.withOnline request.screenName fun i c =>
    match server.downloadContent request with
    | .error refusal => (server, .error refusal)
    | .ok data =>
      let (server, result) := server.initiateDownload i c now request.filename data
      (server, Refusal.orTransfer result)

/-- Asks a client for a file. -/
def uploadFrom (server : Server) (now : Nat) (screenName : String) :
    Server × Except Refusal TransferState :=
  server.withOnline screenName fun i c =>
    let (server, result) := server.initiateUpload i c now
    (server, Refusal.orTransfer result)

/-- Tells how the transfers of a client stand. -/
def reportOn (server : Server) (now : Nat) (screenName : String) :
    Server × Except Refusal TransferReport :=
  server.withOnline screenName fun i c =>
    let (c, report) := c.report server.transfers.limits now
    (server.put i c, .ok report)

/-- Cancels the transfers of a client, in one direction or in both, and tells which they were. -/
def cancelOf (server : Server) (now : Nat) (screenName : String) (direction : Option Direction) :
    Server × Except Refusal (List TransferState) :=
  server.withOnline screenName fun i c =>
    let directions := match direction with
      | some d => [d]
      | none => [.download, .upload]
    let (c, cancelled) := directions.foldl (fun (c, cancelled) d =>
      let (c, state) := c.cancelTransfer server.transfers.limits now d
      (c, cancelled ++ state.toList)) (c, [])
    (server.put i c, .ok cancelled)

/-- Forgets the failed transfers of a client, and tells how many there were. -/
def clearFailedOf (server : Server) (screenName : String) : Server × Except Refusal Nat :=
  server.withOnline screenName fun i c =>
    let (c, count) := c.clearFailed
    (server.put i c, .ok count)

end Server

end Switchboard
