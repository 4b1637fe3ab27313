import Switchboard.Message
import Switchboard.Pacer
import Switchboard.ScreenName
import Switchboard.Transfer.State

/-!
# Connections

A connection exists from sign-on until the link goes away.  It holds the queue of chunks for the
client, the channel they leave through and the slots for transfers.
-/

namespace Switchboard

/-- The server's side of a client that has signed on. -/
structure Connection where
  id : UInt64
  /-- The name as it is shown. -/
  screenName : String
  /-- The name under which the connection is found and files are stored. -/
  identity : String
  profile : ClientProfile
  pacer : Pacer
  outbound : Channel
  transfers : TransferSlots
  /-- The stream id to be given out next, unless it is zero. -/
  nextStream : UInt16
  /-- Whether the connection has been told to hang up. -/
  closing : Bool
  deriving Repr, DecidableEq

namespace Connection

/-- A connection with nothing queued and no transfers. -/
def new (id : UInt64) (screenName : String) (profile : ClientProfile) (outbound : Channel)
    (burst : Nat) : Connection :=
  ⟨id, screenName, identityOf screenName, profile, .new burst, outbound, .empty, 1, false⟩

/-- Whether nothing can be sent any more. -/
def isClosed (c : Connection) : Bool :=
  c.pacer.closed || !c.outbound.received

/-- Queues chunks behind everything already waiting. -/
def send (c : Connection) (chunks : List Chunk) : Connection :=
  { c with pacer := c.pacer.enqueue chunks }

/-- The transfer that the last download segment among some chunks belongs to. -/
def lastSegmentId? (sent : List Chunk) : Option UInt32 :=
  match (sent.filter fun c => c.token = .downloadData ∨ c.token = .downloadEnd).getLast? with
  | some chunk => segmentTransferId? chunk.body
  | none => none

/-- Sends one burst, and tells how many chunks it took.  A download segment that leaves counts as
activity on its transfer. -/
def flush (c : Connection) (now : Nat) : Connection × Nat :=
  let (pacer, outbound, sent) := c.pacer.drain c.outbound c.pacer.burst
  let transfers := match lastSegmentId? sent with
    | some id => (c.transfers.touch now .download id).1
    | none => c.transfers
  ({ c with pacer, outbound, transfers }, sent.length)

/-- A burst takes as many chunks off the queue as it sends, or more. -/
theorem length_of_flush {c after : Connection} {now count : Nat}
    (h : c.flush now = (after, count)) :
    after.pacer.queue.length + count ≤ c.pacer.queue.length := by
  cases h
  exact Pacer.length_drain_le c.pacer c.outbound c.pacer.burst

/-- Sends bursts until one of them takes nothing, and tells how many chunks each took, after those in
`counts`, which stand latest first. -/
def flushAllOnto (counts : List Nat) (c : Connection) (now : Nat) : Connection × List Nat :=
  match h : c.flush now with
  | (after, count) =>
    if 0 < count then
      have := length_of_flush h
      flushAllOnto (count :: counts) after now
    else (after, (count :: counts).reverse)
  termination_by c.pacer.queue.length

/-- Sends bursts until one of them takes nothing, and tells how many chunks each took. -/
def flushAll (c : Connection) (now : Nat) : Connection × List Nat :=
  c.flushAllOnto [] now

/-- Queues chunks and sends one burst at once. -/
def sendNow (c : Connection) (now : Nat) (chunks : List Chunk) : Connection × Nat :=
  (c.send chunks).flush now

/-- Sends a control frame ahead of what is queued, and tells whether the channel took it. -/
def sendControl (c : Connection) (kind : FrameKind) (payload : Bytes) : Connection × Bool :=
  if c.isClosed then (c, false)
  else
    match c.pacer.controlFrame kind payload with
    | .error _ => (c, false)
    | .ok frame =>
      match c.outbound.send frame with
      | .ok outbound => ({ c with outbound }, true)
      | .error _ => (c, false)

/-- Gives out the next stream id; zero is left out. -/
def takeStreamId (c : Connection) : Connection × UInt16 :=
  let id := if c.nextStream = 0 then 1 else c.nextStream
  ({ c with nextStream := id + 1 }, id)

/-- Notes the sequence number of a frame received from the client. -/
def setRx (c : Connection) (seq : UInt8) : Connection :=
  { c with pacer := c.pacer.setRx seq }

/-- Stops sending, cancels what is in flight and tells the link to hang up. -/
def close (c : Connection) : Connection :=
  { c with closing := true, pacer := c.pacer.close, transfers := c.transfers.cancelAll.1 }

end Connection

end Switchboard
