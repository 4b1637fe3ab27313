import Switchboard.Channel
import Switchboard.Chunk
import Switchboard.Frame.Basic
import Switchboard.Frame.Payload

/-!
# Pacing

Chunks for a client wait in a queue and leave it in bursts, each as one data frame.  A chunk that
the channel refuses stays at the front of the queue, so the progress of the receiver is what paces
the link.  A chunk too large for a frame is dropped.  Data frames are numbered; control frames carry
the number of the last data frame that was sent.
-/

namespace Switchboard

/-- The queue of chunks for one client. -/
structure Pacer where
  /-- The most chunks in one burst. -/
  burst : Nat
  queue : List Chunk
  /-- The sequence number of the last data frame put into the channel. -/
  tx : UInt8
  /-- The last sequence number received from the client. -/
  rx : UInt8
  closed : Bool
  deriving Repr, DecidableEq

namespace Chunk

/-- The frame that carries a chunk. -/
def frame (chunk : Chunk) (tx rx : UInt8) : Frame :=
  ⟨.data, tx, rx, DataPayload.encode ⟨chunk.token, chunk.streamId, chunk.body⟩⟩

end Chunk

/-- What a burst leaves: the queue, the last sequence number, the channel, the chunks that the
channel took, latest first, and whether the channel turned out to be closed. -/
structure Burst where
  queue : List Chunk
  tx : UInt8
  channel : Channel
  sent : List Chunk
  closed : Bool

/-- Sends chunks from the front of a queue, at most `budget` of them, all with the same received
sequence number. -/
def Burst.run (rx : UInt8) (budget : Nat) (tx : UInt8) (channel : Channel) (sent : List Chunk) :
    List Chunk → Burst
  | [] => ⟨[], tx, channel, sent, false⟩
  | chunk :: rest =>
    if budget = 0 then ⟨chunk :: rest, tx, channel, sent, false⟩
    else
      let next := Frame.nextSeq tx
      match (chunk.frame next rx).encode with
      | .error _ => run rx budget tx channel sent rest
      | .ok bytes =>
        match channel.send bytes with
        | .ok channel => run rx (budget - 1) next channel (chunk :: sent) rest
        | .error .full => ⟨chunk :: rest, tx, channel, sent, false⟩
        | .error .closed => ⟨chunk :: rest, tx, channel, sent, true⟩

/-- A burst takes as many chunks off the queue as it sends, or more. -/
theorem Burst.length_run_le (rx : UInt8) (budget : Nat) (tx : UInt8) (channel : Channel)
    (sent queue : List Chunk) :
    (run rx budget tx channel sent queue).queue.length +
      (run rx budget tx channel sent queue).sent.length ≤ queue.length + sent.length := by
  fun_induction run rx budget tx channel sent queue <;>
    simp only [List.length_cons, List.length_nil] at * <;> omega

namespace Pacer

/-- A pacer with an empty queue. -/
def new (burst : Nat) : Pacer := ⟨burst, [], Frame.lastSeq, Frame.lastSeq, false⟩

/-- Adds chunks at the end of the queue, unless the pacer is closed. -/
def enqueue (pacer : Pacer) (chunks : List Chunk) : Pacer :=
  if pacer.closed then pacer else { pacer with queue := pacer.queue ++ chunks }

/-- Sends a burst of at most `budget` chunks: the pacer and the channel after it, and the chunks that
the channel took, in order.  A channel that turns out to be closed closes the pacer. -/
def drain (pacer : Pacer) (channel : Channel) (budget : Nat) : Pacer × Channel × List Chunk :=
  if pacer.closed then (pacer, channel, [])
  else
    let burst := Burst.run pacer.rx budget pacer.tx channel [] pacer.queue
    ({ pacer with queue := burst.queue, tx := burst.tx, closed := burst.closed },
      burst.channel, burst.sent.reverse)

/-- Draining takes as many chunks off the queue as the channel takes, or more. -/
theorem length_drain_le (pacer : Pacer) (channel : Channel) (budget : Nat) :
    (pacer.drain channel budget).1.queue.length + (pacer.drain channel budget).2.2.length ≤
      pacer.queue.length := by
  unfold drain
  split
  · exact Nat.le_refl _
  · simpa using Burst.length_run_le pacer.rx budget pacer.tx channel [] pacer.queue

/-- The bytes of a control frame with the current sequence numbers. -/
def controlFrame (pacer : Pacer) (kind : FrameKind) (payload : Bytes) : Except WireError Bytes :=
  Frame.encode ⟨kind, pacer.tx, pacer.rx, payload⟩

/-- Notes the sequence number of a frame received from the client. -/
def setRx (pacer : Pacer) (seq : UInt8) : Pacer :=
  { pacer with rx := seq }

/-- Stops the pacer for good.  What is queued stays where it is and is never sent. -/
def close (pacer : Pacer) : Pacer :=
  { pacer with closed := true }

end Pacer

end Switchboard
