import Switchboard.Link

/-!
# Hosting sessions

A host runs a server with live links on a clock of its own.  Whatever happens on a link happens at an
instant, and then everything runs until nothing is left to do: queued chunks go out in bursts, and a
link whose connection has been closed is taken down.  While time passes, each session looks for idle
transfers once a second, counted from its own start.
-/

namespace Switchboard

/-- A link with its client on the other end. -/
structure Session where
  link : Link
  /-- When the link came up. -/
  start : Nat
  /-- Whether the server still serves the link. -/
  running : Bool
  /-- Whether the client can still send. -/
  writable : Bool
  /-- Whether the client still looks at what arrives. -/
  watched : Bool
  /-- The frames that have arrived since the client last looked, latest first. -/
  arrived : List Bytes
  /-- Whether the link has closed since the client last looked. -/
  closed : Bool
  deriving Repr, DecidableEq

/-- A server with its sessions, and the time in milliseconds. -/
structure Host where
  server : Server
  sessions : List Session
  now : Nat
  deriving Repr, DecidableEq

/-- How often a session looks for idle transfers. -/
def sweepInterval : Nat := 1000

/-- Sends everything that is queued, burst by burst, to a receiver that takes each burst out of the
channel; the frames taken, latest first, are put before those in `taken`. -/
def Connection.pump (c : Connection) (now : Nat) (taken : List Bytes) : Connection × List Bytes :=
  let (frames, outbound) := c.outbound.receiveAll
  match h : Connection.flush { c with outbound } now with
  | (after, count) =>
    if 0 < count then
      have := Connection.length_of_flush h
      after.pump now (frames.reverse ++ taken)
    else (after, frames.reverse ++ taken)
  termination_by c.pacer.queue.length
  decreasing_by simp only at this; omega

namespace Session

/-- A session that starts now. -/
def new (window now : Nat) : Session :=
  ⟨.new window, now, true, true, true, [], false⟩

/-- Hands frames, latest first, to the client if it still looks. -/
def deliver (session : Session) (frames : List Bytes) : Session :=
  if session.watched then { session with arrived := frames ++ session.arrived } else session

/-- The times after `now` and up to `target` at which the session looks for idle transfers. -/
def sweepTimes (session : Session) (now target : Nat) : List Nat :=
  let first := (now + sweepInterval - session.start) / sweepInterval
  let count := (target - session.start) / sweepInterval + 1 - first
  (List.range' first count).map fun k => session.start + sweepInterval * k

end Session

namespace Host

/-- A host with no sessions at time zero. -/
def new (server : Server) : Host := ⟨server, [], 0⟩

/-- Replaces a session. -/
def put (host : Host) (i : Nat) (session : Session) : Host :=
  { host with sessions := host.sessions.set i session }

/-- Ends a session: the link is taken down, and the client gets what is in the channel and sees the
link close. -/
def finish (host : Host) (i : Nat) (session : Session) : Host :=
  let (server, link, frames) := Link.takeFrames host.server session.link
  let session := session.deliver frames.reverse
  { host with server := Link.teardown server link }.put i
    { session with link, running := false, closed := session.watched }

/-- Runs a session until nothing is left to do. -/
def settleSession (host : Host) (i : Nat) (session : Session) : Host :=
  if !session.running then host
  else
    match session.link.phase with
    | .greeting .. =>
      let (server, link, frames) := Link.takeFrames host.server session.link
      { host with server }.put i ({ session with link }.deliver frames.reverse)
    | .signedOn k =>
      match host.server.connections[k]? with
      | none => host
      | some c =>
        if c.closing then host.finish i session
        else
          let (c, frames) := c.pump host.now []
          { host with server := host.server.put k c }.put i (session.deliver frames)

/-- Runs everything until nothing is left to do. -/
def settle (host : Host) : Host :=
  (List.range host.sessions.length).foldl (fun host i =>
    match host.sessions[i]? with
    | some session => host.settleSession i session
    | none => host) host

-- ---------------------------------------------------------------------------
-- Time
-- ---------------------------------------------------------------------------

/-- A session looks for idle transfers at the given time. -/
def sweep (host : Host) (time i : Nat) : Host :=
  let host := { host with now := time }
  match host.sessions[i]? with
  | some session =>
    match session.running, session.link.phase with
    | true, .signedOn k =>
      let server := host.server.modify k fun c =>
        (c.sweep host.server.transfers.limits time).1
      { host with server }.settle
    | _, _ => host
  | none => host

/-- Lets time pass. -/
def advance (host : Host) (milliseconds : Nat) : Host :=
  let target := host.now + milliseconds
  let due := host.sessions.zipIdx.flatMap fun (session, i) =>
    (session.sweepTimes host.now target).map fun time => (time, i)
  let due := due.mergeSort fun a b => a.1 ≤ b.1
  { due.foldl (fun host (time, i) => host.sweep time i) host with now := target }

-- ---------------------------------------------------------------------------
-- What clients do
-- ---------------------------------------------------------------------------

/-- A client connects; the position of its session is returned. -/
def connect (host : Host) : Host × Nat :=
  let session := Session.new host.server.links.window host.now
  ({ host with sessions := host.sessions ++ [session] }, host.sessions.length)

/-- A client sends bytes; tells whether the link takes them.  Sending no bytes at all succeeds for as
long as the client holds its end of the link, whatever has become of the other end. -/
def receive (host : Host) (i : Nat) (bytes : Bytes) : Host × Bool :=
  match host.sessions[i]? with
  | none => (host, false)
  | some session =>
    if bytes.isEmpty then (host, session.watched)
    else if !session.running || !session.writable then (host, false)
    else
      let (server, link, flow) := Link.onBytes host.server session.link host.now bytes
      let host := { host with server }
      let session := { session with link }
      match flow with
      | .goOn => (host.put i session, true)
      | .hangUp => (host.finish i session, true)

/-- A client says that it will send no more: the session ends. -/
def hangUp (host : Host) (i : Nat) : Host :=
  match host.sessions[i]? with
  | none => host
  | some session =>
    let session := { session with writable := false }
    if session.running then host.finish i session else host.put i session

/-- A client goes away without looking at anything more: the session ends. -/
def drop (host : Host) (i : Nat) : Host :=
  match host.sessions[i]? with
  | none => host
  | some session =>
    let session :=
      { session with writable := false, watched := false, arrived := [], closed := false }
    if session.running then host.finish i session else host.put i session

/-- Ends all sessions. -/
def shutdown (host : Host) : Host :=
  (List.range host.sessions.length).foldl (fun host i =>
    match host.sessions[i]? with
    | some session => if session.running then host.finish i session else host
    | none => host) host

/-- What each client sees that it has not looked at yet: the frames that arrived, in order, and
whether the link has closed. -/
def look (host : Host) : Host × List (Nat × List Bytes × Bool) :=
  let seen := host.sessions.zipIdx.filterMap fun (session, i) =>
    if session.arrived.isEmpty && !session.closed then none
    else some (i, session.arrived.reverse, session.closed)
  let sessions := host.sessions.map fun session => { session with arrived := [], closed := false }
  ({ host with sessions }, seen)

end Host

end Switchboard
