import Switchboard.Frame.Decoder
import Switchboard.Server

/-!
# Links

A link is the byte stream to one client.  The client announces itself, signs on under a screen name
and then talks about transfers; the server answers its control frames at once.  A client that the
directory does not know is told so and hung up on.
-/

namespace Switchboard

/-- How far a link has come. -/
inductive LinkPhase where
  /-- Nobody has signed on: the channel to the client and the last sequence number received. -/
  | greeting (outbound : Channel) (rx : UInt8)
  /-- The connection at the given position has signed on. -/
  | signedOn (connection : Nat)
  deriving Repr, DecidableEq

/-- The server's side of a byte stream to a client. -/
structure Link where
  phase : LinkPhase
  /-- What the client has announced. -/
  profile : ClientProfile
  /-- The bytes received that are not a whole frame yet. -/
  buffer : Bytes
  deriving Repr, DecidableEq

/-- Whether a link goes on. -/
inductive Flow where
  | goOn
  | hangUp
  deriving Repr, DecidableEq

namespace Link

/-- A link that has just come up. -/
def new (window : Nat) : Link :=
  ⟨.greeting (.new window) Frame.lastSeq, .unknown, []⟩

/-- The compiled scene that greets a client, and the connection with its stream id given out. -/
def welcomeChunks (framePayload : Nat) (c : Connection) :
    Connection × Except CompileError (List Chunk) :=
  match Scene.welcome.script ⟨c.screenName, []⟩ with
  | .error error => (c, .error error)
  | .ok script =>
    let (c, streamId) := c.takeStreamId
    (c, script.compile framePayload streamId "welcome")

/-- The compiled message for a client that is not admitted. -/
def rejectionChunks (framePayload : Nat) (requested : String) :
    Except CompileError (List Chunk) := do
  let text := "\"" ++ requested ++ "\" is not a registered screen name."
  let script ← Scene.message.script ⟨requested, [("text", text), ("kind", "error")]⟩
  script.compile framePayload 1 "sign_on_rejected"

/-- Tells a client that it is not admitted: one burst into the channel, if the message can be
compiled. -/
def reject (server : Server) (outbound : Channel) (rx : UInt8) (requested : String) : Channel :=
  match rejectionChunks server.framePayload requested with
  | .error _ => outbound
  | .ok chunks =>
    let pacer := ((Pacer.new server.links.burst).setRx rx).enqueue chunks
    (pacer.drain outbound server.links.burst).2.1

/-- Admits a client under a screen name: its connection is registered and greeted. -/
def welcomeAs (server : Server) (link : Link) (outbound : Channel) (rx : UInt8)
    (screenName : String) : Server × Link :=
  let (server, id) := server.takeConnectionId
  let c := (Connection.new id screenName link.profile outbound server.links.burst).setRx rx
  let (server, i) := server.add c
  let (server, _) := server.register i
  let server := server.modify i fun c =>
    match welcomeChunks server.framePayload c with
    | (c, .ok chunks) => c.send chunks
    | (c, .error _) => c
  (server, { link with phase := .signedOn i })

/-- Takes a sign-on. -/
def signOn (server : Server) (link : Link) (outbound : Channel) (rx : UInt8)
    (requested : String) : Server × Link × Flow :=
  match server.directory.lookup requested with
  | none =>
    (server, { link with phase := .greeting (reject server outbound rx requested) rx }, .hangUp)
  | some screenName =>
    let (server, link) := welcomeAs server link outbound rx screenName
    (server, link, .goOn)

/-- Takes the payload of a data frame.  Before sign-on only a sign-on counts. -/
def onData (server : Server) (link : Link) (now : Nat) (payload : Bytes) :
    Server × Link × Flow :=
  match DataPayload.parse payload with
  | .error _ => (server, link, .goOn)
  | .ok data =>
    match ClientMessage.parse data.token data.body with
    | .error _ => (server, link, .goOn)
    | .ok message =>
      match link.phase, message with
      | .greeting outbound rx, .signOn requested => signOn server link outbound rx requested
      | .greeting .., _ => (server, link, .goOn)
      | .signedOn i, message =>
        match server.connections[i]? with
        | some c => ((server.handle i c now message).1, link, .goOn)
        | none => (server, link, .goOn)

/-- Sends a control frame without payload, if the channel takes it. -/
def control (server : Server) (link : Link) (kind : FrameKind) : Server × Link :=
  match link.phase with
  | .signedOn i => (server.modify i fun c => (c.sendControl kind []).1, link)
  | .greeting outbound rx =>
    match Frame.encode ⟨kind, Frame.lastSeq, rx, []⟩ with
    | .error _ => (server, link)
    | .ok bytes =>
      match outbound.send bytes with
      | .ok outbound => (server, { link with phase := .greeting outbound rx })
      | .error _ => (server, link)

/-- Notes the sequence number of a frame from the client. -/
def noteRx (server : Server) (link : Link) (seq : UInt8) : Server × Link :=
  match link.phase with
  | .signedOn i => (server.modify i (·.setRx seq), link)
  | .greeting outbound _ => (server, { link with phase := .greeting outbound seq })

/-- Takes a frame from the client. -/
def onFrame (server : Server) (link : Link) (now : Nat) (frame : Frame) :
    Server × Link × Flow :=
  let (server, link) := noteRx server link frame.tx
  let reply (link : Link) (kind : FrameKind) : Server × Link × Flow :=
    let (server, link) := control server link kind
    (server, link, .goOn)
  match frame.kind with
  | .init => reply { link with profile := .ofAnnouncement frame.payload } .ack
  | .heartbeat => reply link .ack
  | .ss => reply link .ssr
  | .ack | .nak | .ssr => (server, link, .goOn)
  | .data => onData server link now frame.payload

/-- Takes the frames found in received bytes, until the link is to be hung up.  Faults are passed
over. -/
def onFrames (server : Server) (link : Link) (now : Nat) :
    List (Except WireError Frame) → Server × Link × Flow
  | [] => (server, link, .goOn)
  | .error _ :: rest => onFrames server link now rest
  | .ok frame :: rest =>
    match onFrame server link now frame with
    | (server, link, .goOn) => onFrames server link now rest
    | hungUp => hungUp

/-- Takes bytes from the client. -/
def onBytes (server : Server) (link : Link) (now : Nat) (bytes : Bytes) :
    Server × Link × Flow :=
  let (found, buffer) := Frame.drain (link.buffer ++ bytes)
  onFrames server { link with buffer } now found

/-- Takes the link down: its connection is closed, and unregistered unless another one has taken its
place. -/
def teardown (server : Server) (link : Link) : Server :=
  match link.phase with
  | .greeting .. => server
  | .signedOn i =>
    match server.connections[i]? with
    | none => server
    | some c => ((server.put i c.close).unregister c.identity c.id).1

/-- The frames on their way to the client, taken out of the channel. -/
def takeFrames (server : Server) (link : Link) : Server × Link × List Bytes :=
  match link.phase with
  | .greeting outbound rx =>
    let (frames, outbound) := outbound.receiveAll
    (server, { link with phase := .greeting outbound rx }, frames)
  | .signedOn i =>
    match server.connections[i]? with
    | none => (server, link, [])
    | some c =>
      let (frames, outbound) := c.outbound.receiveAll
      (server.put i { c with outbound }, link, frames)

end Link

end Switchboard
