import Switchboard.Proofs.Presence.Run
import Switchboard.Proofs.Traffic.Server

/-!
# The frames of a server

An `Act` is anything that can happen to a server: a step of its links or its clock, an operation on one
of its connections, or a request of its operator.  Whatever happens, chunks wait in its queues that keep
to the limit for frames, and a burst finds none that it has to drop.  Limits at either end are the
exception.  Just above the smallest one the chunks of a download are larger than the limit, and a limit
beyond what frames can hold is kept to all the same.

Main results:

* `Traffic.upholds_run`: what is lasting holds of all connections, whatever happens.
* `Traffic.queued_within_limit`: what waits in the queues keeps to the limit, but for small limits.
* `Traffic.bursts_lose_nothing`: no burst drops anything, if frames can hold what the limit allows.
* `Traffic.end_marker_exceeds_limit` and `Traffic.largest_segment_lost`: the exceptions are real.
-/

namespace Switchboard

open Transfers (Operation)

-- ---------------------------------------------------------------------------
-- Framing
-- ---------------------------------------------------------------------------

namespace Chunk

/-- A chunk that fits a frame can be framed under all sequence numbers. -/
theorem FitsFrame.succeeds_encode {chunk : Chunk} (h : chunk.FitsFrame) (tx rx : UInt8) :
    Succeeds (chunk.frame tx rx).encode := by
  rw [Frame.encode_of_fits (fits_frame_iff.mpr h)]
  exact succeeds_ok _

/-- All chunks of downloads fit frames, if frames can hold what the limit allows. -/
theorem fitsFrame_downloadChunks {limit : Nat} (hlimit : limit ≤ maxFramePayload)
    {streamId : UInt16} {id : UInt32} {data : Bytes} {chunk : Chunk}
    (h : chunk ∈ downloadChunks limit streamId id data) : chunk.FitsFrame := by
  have hleast : leastSegment ≤ maxFramePayload := by decide
  have hend : endMarker ≤ maxFramePayload := by decide
  rw [FitsFrame]
  rcases size_of_mem_downloadChunks h with ⟨-, -, hmost⟩ | ⟨-, hsize⟩
  · omega
  · omega

end Chunk

/-- A burst loses nothing of a queue if all of it fits frames. -/
theorem Burst.sent_append_queue (rx : UInt8) (budget : Nat) (tx : UInt8) (channel : Channel)
    (sent queue : List Chunk) (h : ∀ chunk ∈ queue, chunk.FitsFrame) :
    (run rx budget tx channel sent queue).sent.reverse ++
      (run rx budget tx channel sent queue).queue = sent.reverse ++ queue := by
  fun_induction run rx budget tx channel sent queue with
  | case3 budget tx channel sent chunk rest _ next error hencode ih =>
    -- nothing is dropped
    have hfits := (List.forall_mem_cons.mp h).1
    rw [Frame.encode_of_fits (Chunk.fits_frame_iff.mpr hfits)] at hencode
    cases hencode
  | case4 budget tx channel sent chunk rest _ next bytes hencode after hsend ih =>
    rw [ih (List.forall_mem_cons.mp h).2, List.reverse_cons, List.append_assoc]
    rfl
  | _ => rfl

/-- A chunk that fits no frame is dropped, and the burst goes on with the next one. -/
theorem Pacer.drain_of_not_fitsFrame {burst : Nat} (hburst : burst ≠ 0) {first second : Chunk}
    (hfirst : ¬first.FitsFrame) (hsecond : second.FitsFrame) {channel : Channel}
    (hreceived : channel.received = true) (hroom : channel.room ≠ 0) :
    (((Pacer.new burst).enqueue [first, second]).drain channel burst).2.2 = [second] ∧
      (((Pacer.new burst).enqueue [first, second]).drain channel burst).1.queue = [] := by
  have hsend (bytes : Bytes) : channel.send bytes =
      .ok { channel with room := channel.room - 1, latest := bytes :: channel.latest } := by
    rw [Channel.send, hreceived, if_neg (by decide), if_neg hroom]
  have hrun : ∃ tx after, Burst.run Frame.lastSeq burst Frame.lastSeq channel [] [first, second] =
      ⟨[], tx, after, [second], false⟩ := by
    rw [Burst.run, if_neg hburst]
    dsimp only
    rw [Frame.encode_of_not_fits (mt Chunk.fits_frame_iff.mp hfirst)]
    dsimp only
    rw [Burst.run, if_neg hburst]
    dsimp only
    rw [Frame.encode_of_fits (Chunk.fits_frame_iff.mpr hsecond)]
    dsimp only
    rw [hsend]
    exact ⟨_, _, rfl⟩
  obtain ⟨tx, after, hrun⟩ := hrun
  have hdrain : ((Pacer.new burst).enqueue [first, second]).drain channel burst =
      (⟨burst, [], tx, Frame.lastSeq, false⟩, after, [second]) := by
    show (let burst' := Burst.run Frame.lastSeq burst Frame.lastSeq channel [] [first, second]
      ((⟨burst, burst'.queue, burst'.tx, Frame.lastSeq, burst'.closed⟩ : Pacer),
        burst'.channel, burst'.sent.reverse)) = _
    rw [hrun]
    rfl
  rw [hdrain]
  exact ⟨rfl, rfl⟩

/-- A queue of which no burst loses anything: what has left and what is left are what was there. -/
def Pacer.IsLossless (pacer : Pacer) : Prop :=
  ∀ channel budget, (pacer.drain channel budget).2.2 ++ (pacer.drain channel budget).1.queue =
    pacer.queue

theorem Pacer.isLossless_of_fitsFrame {pacer : Pacer} (h : ∀ chunk ∈ pacer.queue, chunk.FitsFrame) :
    pacer.IsLossless := by
  intro channel budget
  unfold drain
  split
  · rfl
  · exact Burst.sent_append_queue pacer.rx budget pacer.tx channel [] pacer.queue h

/-- The chunks in the queue of a connection stay sized. -/
theorem Connection.isLasting_isSized (burst limit : Nat) :
    Connection.IsLasting burst limit (·.IsSized limit) where
  new id screenName profile outbound := .new limit id screenName profile outbound burst
  run op now h hop hlimit := by
    subst hlimit
    exact h.run op hop now
  takeStreamId h := h.takeStreamId
  sendControl h := h.sendControl

namespace Traffic

-- ---------------------------------------------------------------------------
-- Runs
-- ---------------------------------------------------------------------------

/-- What the operator of a server can ask for. -/
inductive Request where
  | send (request : SendRequest)
  | download (request : DownloadRequest)
  | upload (screenName : String)
  | report (screenName : String)
  | cancel (screenName : String) (direction : Option Direction)
  | clearFailed (screenName : String)

/-- The server after a request. -/
def Request.serve (server : Server) (now : Nat) : Request → Server
  | send request => (server.sendTo now request).1
  | download request => (server.downloadTo now request).1
  | upload screenName => (server.uploadFrom now screenName).1
  | report screenName => (server.reportOn now screenName).1
  | cancel screenName direction => (server.cancelOf now screenName direction).1
  | clearFailed screenName => (server.clearFailedOf screenName).1

/-- What can happen. -/
inductive Act where
  | step (s : Presence.Step)
  | ask (request : Request)

/-- Whether nothing is queued but what the server has compiled or cut. -/
def Act.IsOwn (limit : Nat) : Act → Prop
  | step (.operate _ op) => op.IsOwn limit
  | _ => True

/-- Something happens. -/
def act (w : Presence.World) : Act → Presence.World
  | .step s => w.step s
  | .ask request => { w with server := request.serve w.server w.now }

/-- What happens, in order. -/
def run (w : Presence.World) (acts : List Act) : Presence.World :=
  acts.foldl act w

variable {limit : Nat} {w : Presence.World}

section Lasting

variable {burst : Nat} {P : Connection → Prop} (hP : Connection.IsLasting burst limit P)
include hP

theorem upholds_serve {server : Server} (h : server.Upholds burst limit P) (now : Nat)
    (request : Request) : (request.serve server now).Upholds burst limit P := by
  cases request with
  | send request => exact h.sendTo hP now request
  | download request => exact h.downloadTo hP now request
  | upload screenName => exact h.uploadFrom hP now screenName
  | report screenName => exact h.reportOn hP now screenName
  | cancel screenName direction => exact h.cancelOf hP now screenName direction
  | clearFailed screenName => exact h.clearFailedOf hP screenName

/-- Whatever happens, all connections keep what is lasting. -/
theorem upholds_act (h : w.server.Upholds burst limit P) {a : Act} (ha : a.IsOwn limit) :
    (act w a).server.Upholds burst limit P := by
  cases a with
  | ask request => exact upholds_serve hP h w.now request
  | step s =>
    cases s with
    | comeUp => exact h
    | advance milliseconds => exact h
    | frame l f =>
      show (w.frame l f).server.Upholds burst limit P
      unfold Presence.World.frame
      split
      · exact h.onFrame hP _ w.now f
      · exact h
    | tearDown l =>
      show (w.tearDown l).server.Upholds burst limit P
      unfold Presence.World.tearDown
      split
      · exact h.teardown hP _
      · exact h
    | operate position op =>
      show (w.operate position op).server.Upholds burst limit P
      unfold Presence.World.operate
      split
      · exact h
      · next c hc => exact h.operate hP (h.of_getElem? hc) op ha position w.now

theorem upholds_run (h : w.server.Upholds burst limit P) {acts : List Act}
    (hacts : ∀ a ∈ acts, a.IsOwn limit) : (run w acts).server.Upholds burst limit P := by
  induction acts generalizing w with
  | nil => exact h
  | cons a rest ih =>
    obtain ⟨hfirst, hrest⟩ := List.forall_mem_cons.mp hacts
    exact ih (upholds_act hP h hfirst) hrest

end Lasting

/-- A server that has just been started has no connections. -/
theorem upholds_start (links : LinkLimits) (limits : TransferLimits) (directory : Directory)
    (store : Store) (P : Connection → Prop) :
    (Presence.World.start links limits directory store).server.Upholds links.burst
      limits.framePayload P :=
  ⟨rfl, rfl, List.forall_mem_nil _⟩

-- ---------------------------------------------------------------------------
-- Main results
-- ---------------------------------------------------------------------------

/-- Under any limit for frames, whatever is compiled keeps to it; and whatever happens to a server, so
does every chunk in the queue of a connection, but for the chunks of downloads under the smallest limits
that leave room for a header. -/
theorem queued_within_limit (links : LinkLimits) (limits : TransferLimits) (directory : Directory)
    (store : Store) (acts : List Act) (hacts : ∀ a ∈ acts, a.IsOwn limits.framePayload) :
    (∀ (script : Script) (streamId : UInt16) (label : String) (chunks : List Chunk),
      script.compile limits.framePayload streamId label = .ok chunks →
      ∀ chunk ∈ chunks, chunk.payloadLength ≤ limits.framePayload) ∧
    ∀ c ∈ (run (.start links limits directory store) acts).server.connections,
      ∀ chunk ∈ c.pacer.queue,
        chunk.payloadLength ≤ limits.framePayload ∨ chunk.IsOversized limits.framePayload := by
  have hrun := upholds_run (Connection.isLasting_isSized links.burst limits.framePayload)
    (upholds_start links limits directory store _) hacts
  exact ⟨fun script streamId label chunks => Script.payloadLength_of_compile,
    fun c hc => (hrun.connections c hc).queue⟩

/-- Frames hold 11 bytes, and the client accepts a file of three. -/
def tight : List Act :=
  [.step .comeUp, .step (.frame 0 ((ClientMessage.signOn "Ann").frame 16 0)),
    .ask (.download ⟨"ann", "notes.txt", some "010203"⟩),
    .step (.frame 0 ((ClientMessage.downloadAck 1).frame 17 0))]

theorem isOwn_tight (limit : Nat) : ∀ a ∈ tight, a.IsOwn limit := by
  simp [tight, Act.IsOwn]

/-- What waits for the client keeps to the limit, but for the end marker. -/
theorem queued_within_limit_tight :
    (∀ a ∈ tight, a.IsOwn 11) ∧
    ∃ c ∈ (run (.start ⟨4, 8⟩ ⟨100, 1000, 11⟩ (.ofNames []) (.memory .empty))
        tight).server.connections,
      c.pacer.queue ≠ [] ∧
      ∀ chunk ∈ c.pacer.queue, chunk.payloadLength ≤ 11 ∨ chunk.IsOversized 11 := by
  have hacts := isOwn_tight 11
  obtain ⟨c, hc, hqueue⟩ : ∃ c ∈ (run (.start ⟨4, 8⟩ ⟨100, 1000, 11⟩ (.ofNames [])
      (.memory .empty)) tight).server.connections, c.pacer.queue ≠ [] := by
    decide +kernel
  exact ⟨hacts, c, hc, hqueue,
    (queued_within_limit ⟨4, 8⟩ ⟨100, 1000, 11⟩ (.ofNames []) (.memory .empty) tight hacts).2 c hc⟩

/-- The exception is real: an end marker waits that is larger than the limit. -/
theorem end_marker_exceeds_limit :
    (∀ a ∈ tight, a.IsOwn 11) ∧
    ∃ c ∈ (run (.start ⟨4, 8⟩ ⟨100, 1000, 11⟩ (.ofNames []) (.memory .empty))
        tight).server.connections,
      ∃ chunk ∈ c.pacer.queue, 11 < chunk.payloadLength :=
  ⟨isOwn_tight 11, by decide +kernel⟩

/-- Under any limit that frames can hold, whatever is compiled and whatever a file is cut into can be
framed; and whatever happens to a server, no burst loses anything from the queue of a connection, nor
from the queue with something more that was compiled. -/
theorem bursts_lose_nothing (links : LinkLimits) (limits : TransferLimits) (directory : Directory)
    (store : Store) (hlimit : limits.framePayload ≤ maxFramePayload) (acts : List Act)
    (hacts : ∀ a ∈ acts, a.IsOwn limits.framePayload) :
    (∀ (script : Script) (streamId : UInt16) (label : String) (chunks : List Chunk),
      script.compile limits.framePayload streamId label = .ok chunks →
      ∀ chunk ∈ chunks, ∀ tx rx, Succeeds (chunk.frame tx rx).encode) ∧
    (∀ streamId id data, ∀ chunk ∈ downloadChunks limits.framePayload streamId id data,
      ∀ tx rx, Succeeds (chunk.frame tx rx).encode) ∧
    ∀ c ∈ (run (.start links limits directory store) acts).server.connections,
      c.pacer.IsLossless ∧
      ∀ (script : Script) (streamId : UInt16) (label : String) (chunks : List Chunk),
        script.compile limits.framePayload streamId label = .ok chunks →
        (c.pacer.enqueue chunks).IsLossless := by
  have hcompiled {script : Script} {streamId : UInt16} {label : String} {chunks : List Chunk}
      (h : script.compile limits.framePayload streamId label = .ok chunks) :
      ∀ chunk ∈ chunks, chunk.FitsFrame :=
    fun chunk hmem => (Script.payloadLength_of_compile h chunk hmem).trans hlimit
  have hrun := upholds_run (Connection.isLasting_isSized links.burst limits.framePayload)
    (upholds_start links limits directory store _) hacts
  refine ⟨?_, ?_, ?_⟩
  · exact fun script streamId label chunks h chunk hmem => (hcompiled h chunk hmem).succeeds_encode
  · exact fun streamId id data chunk hmem =>
      (Chunk.fitsFrame_downloadChunks hlimit hmem).succeeds_encode
  · intro c hc
    have hqueue (chunk : Chunk) (hmem : chunk ∈ c.pacer.queue) : chunk.FitsFrame :=
      Chunk.IsSized.fitsFrame ((hrun.connections c hc).queue chunk hmem) hlimit
    refine ⟨Pacer.isLossless_of_fitsFrame hqueue, fun script streamId label chunks h => ?_⟩
    refine Pacer.isLossless_of_fitsFrame ?_
    unfold Pacer.enqueue
    split
    · exact hqueue
    · exact List.forall_mem_append.mpr ⟨hqueue, hcompiled h⟩

/-- With frames of 256 bytes nothing of the download is lost. -/
theorem bursts_lose_nothing_tight :
    256 ≤ maxFramePayload ∧ (∀ a ∈ tight, a.IsOwn 256) ∧
    ∃ c ∈ (run (.start ⟨4, 8⟩ ⟨100, 1000, 256⟩ (.ofNames []) (.memory .empty))
        tight).server.connections,
      c.pacer.queue ≠ [] ∧ c.pacer.IsLossless := by
  have hlimit : 256 ≤ maxFramePayload := by decide
  have hacts := isOwn_tight 256
  obtain ⟨c, hc, hqueue⟩ : ∃ c ∈ (run (.start ⟨4, 8⟩ ⟨100, 1000, 256⟩ (.ofNames [])
      (.memory .empty)) tight).server.connections, c.pacer.queue ≠ [] := by
    decide +kernel
  have hlossless := (bursts_lose_nothing ⟨4, 8⟩ ⟨100, 1000, 256⟩ (.ofNames []) (.memory .empty) hlimit
    tight hacts).2.2 c hc
  exact ⟨hlimit, hacts, c, hc, hqueue, hlossless.1⟩

/-- Beyond what frames can hold a segment is lost: it cannot be framed, and the burst goes on with the
end marker. -/
theorem largest_segment_lost :
    let limit := maxFramePayload + 1
    let data : Bytes := List.replicate (limit - 8) 0
    ∃ segment marker, downloadChunks limit 1 1 data = [segment, marker] ∧
      (∀ tx rx, ¬Succeeds (segment.frame tx rx).encode) ∧
      (((Pacer.new 8).enqueue [segment, marker]).drain (.new 8) 8).2.2 = [marker] ∧
      (((Pacer.new 8).enqueue [segment, marker]).drain (.new 8) 8).1.queue = [] := by
  intro limit data
  have hlength : data.length = segmentRoom limit := List.length_replicate
  have hpieces : pieces (segmentRoom limit) [] data = [data] :=
    Chunk.pieces_of_length_le (List.ne_nil_of_length_pos (by rw [hlength]; decide)) hlength.le
  let segment : Chunk := .single .downloadData 1 (downloadSegment 1 data) "xfer_download"
  let marker : Chunk :=
    .single .downloadEnd 1 (downloadEnd 1 (UInt32.ofNat data.length)) "xfer_download"
  have hchunks : downloadChunks limit 1 1 data = [segment, marker] := by
    rw [downloadChunks, hpieces]
    rfl
  have hsegment : ¬segment.FitsFrame := by
    rw [Chunk.FitsFrame, Chunk.payloadLength_segment, hlength]
    decide
  have hmarker : marker.FitsFrame := by
    show Chunk.endMarker ≤ maxFramePayload
    decide
  refine ⟨segment, marker, hchunks, fun tx rx => ?_, ?_⟩
  · rw [Frame.encode_of_not_fits (mt Chunk.fits_frame_iff.mp hsegment)]
    exact not_succeeds_error _
  · exact Pacer.drain_of_not_fitsFrame (by decide) hsegment hmarker rfl (by decide)

end Traffic

end Switchboard
