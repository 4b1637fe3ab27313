import Switchboard.Dictionary
import Switchboard.Directory
import Switchboard.Transfer.Engine

/-!
# The server

What all links share: the limits, the directory, the files, and the registry of who is online.  The
registry finds at most one connection for each identity; registering another one evicts it.

Connections are kept in a list and referred to by their position there, so that an evicted connection
still exists for those who hold it.
-/

namespace Switchboard

/-- The limits of the link to each client. -/
structure LinkLimits where
  /-- The most chunks in one burst. -/
  burst : Nat
  /-- The number of frames that may wait in the outbound channel. -/
  window : Nat
  deriving Repr, DecidableEq

/-- The state that all links share. -/
structure Server where
  links : LinkLimits
  transfers : TransferService
  directory : Directory
  connections : List Connection
  /-- The position of the connection that is online under each identity. -/
  registry : Dictionary String Nat
  nextConnectionId : UInt64
  deriving Repr, DecidableEq

/-- What is told about a connection. -/
structure ConnectionInfo where
  id : UInt64
  screenName : String
  profile : ClientProfile
  pendingChunks : Nat
  deriving Repr, DecidableEq

/-- What is told about a connection. -/
def Connection.info (c : Connection) : ConnectionInfo :=
  ⟨c.id, c.screenName, c.profile, c.pacer.queue.length⟩

namespace Server

/-- A server that nobody has signed on to.  A window has at least one place. -/
def new (links : LinkLimits) (limits : TransferLimits) (directory : Directory) (store : Store) :
    Server :=
  ⟨{ links with window := max 1 links.window }, ⟨limits, store, 1⟩, directory, [], .empty, 1⟩

/-- The largest payload of a frame. -/
def framePayload (server : Server) : Nat :=
  server.transfers.limits.framePayload

/-- Keeps a connection, and tells its position. -/
def add (server : Server) (c : Connection) : Server × Nat :=
  ({ server with connections := server.connections ++ [c] }, server.connections.length)

/-- Replaces the connection at a position. -/
def put (server : Server) (i : Nat) (c : Connection) : Server :=
  { server with connections := server.connections.set i c }

/-- Changes the connection at a position. -/
def modify (server : Server) (i : Nat) (f : Connection → Connection) : Server :=
  { server with connections := server.connections.modify i f }

/-- Gives out the id of a new connection. -/
def takeConnectionId (server : Server) : Server × UInt64 :=
  ({ server with nextConnectionId := server.nextConnectionId + 1 }, server.nextConnectionId)

-- ---------------------------------------------------------------------------
-- The registry
-- ---------------------------------------------------------------------------

/-- The position of the connection online under a screen name, in whatever spelling. -/
def find? (server : Server) (screenName : String) : Option Nat :=
  server.registry.get? (identityOf screenName)

/-- The connection online under a screen name. -/
def online? (server : Server) (screenName : String) : Option (Nat × Connection) := do
  let i ← server.find? screenName
  let c ← server.connections[i]?
  return (i, c)

/-- Registers the connection at a position under its identity.  A connection registered there before
is closed; its position is returned. -/
def register (server : Server) (i : Nat) : Server × Option Nat :=
  match server.connections[i]? with
  | none => (server, none)
  | some c =>
    let old := server.registry.get? c.identity
    let server := { server with registry := server.registry.put c.identity i }
    match old with
    | none => (server, none)
    | some j => (server.modify j (·.close), some j)

/-- Whether the connection registered under an identity has the given id. -/
def isRegistered (server : Server) (identity : String) (id : UInt64) : Bool :=
  match server.registry.get? identity with
  | some i => server.connections[i]?.any (·.id = id)
  | none => false

/-- Takes an identity out of the registry if the connection there has the given id, and tells whether
it did. -/
def unregister (server : Server) (identity : String) (id : UInt64) : Server × Bool :=
  if server.isRegistered identity id then
    ({ server with registry := server.registry.erase identity }, true)
  else (server, false)

/-- Who is online, in the order of the screen names. -/
def online (server : Server) : List ConnectionInfo :=
  let infos := server.registry.entries.filterMap fun (_, i) => (server.connections[i]?).map (·.info)
  infos.mergeSort fun a b => a.screenName ≤ b.screenName

-- ---------------------------------------------------------------------------
-- Transfers of a connection
-- ---------------------------------------------------------------------------

/-- Starts serving a file to a client. -/
def initiateDownload (server : Server) (i : Nat) (c : Connection) (now : Nat) (filename : String)
    (data : Bytes) : Server × Except TransferError TransferState :=
  let (transfers, c, result) := server.transfers.initiateDownload c now filename data
  ({ server with transfers }.put i c, result)

/-- Asks a client to pick a file to send. -/
def initiateUpload (server : Server) (i : Nat) (c : Connection) (now : Nat) :
    Server × Except TransferError TransferState :=
  let (transfers, c, result) := server.transfers.initiateUpload c now
  ({ server with transfers }.put i c, result)

/-- Takes a message from a client. -/
def handle (server : Server) (i : Nat) (c : Connection) (now : Nat) (message : ClientMessage) :
    Server × Except TransferError (Option TransferState) :=
  let (transfers, c, result) := server.transfers.handle c now message
  ({ server with transfers }.put i c, result)

end Server

end Switchboard
