import Mathlib.Data.List.Iterate
import Switchboard.Pacer
import Switchboard.Proofs.Frame.Decoder

/-!
# Bursts

A burst takes chunks off the front of the queue.  `Burst.Moved` says what it did with them: those
that fit a frame were put into the channel as data frames, numbered one after the other, and the
others were dropped.

Main results:

* `Burst.moved_run`: a burst into a channel that is received from.
* `Burst.run_of_abandoned`: a burst into a channel that nobody receives from.
* `Pacer.sent_drain`: what a burst sends, in whatever state pacer and channel are.
* `Frame.seqsAfter_lastSeq`: how the frames of a pacer are numbered.
-/

namespace Switchboard

-- ---------------------------------------------------------------------------
-- Chunks as frames
-- ---------------------------------------------------------------------------

namespace Chunk

/-- Whether a chunk fits a frame. -/
def FitsFrame (chunk : Chunk) : Prop :=
  chunk.payloadLength ≤ maxFramePayload

instance (chunk : Chunk) : Decidable chunk.FitsFrame :=
  inferInstanceAs (Decidable (_ ≤ _))

/-- What the client makes of a chunk. -/
def content (chunk : Chunk) : DataPayload :=
  ⟨chunk.token, chunk.streamId, chunk.body⟩

theorem fits_frame_iff {chunk : Chunk} {tx rx : UInt8} :
    (chunk.frame tx rx).Fits ↔ chunk.FitsFrame := by
  rw [Frame.Fits, frame, DataPayload.length_encode]
  rfl

end Chunk

-- ---------------------------------------------------------------------------
-- Channels that are received from
-- ---------------------------------------------------------------------------

namespace Channel

theorem received_of_send {channel after : Channel} {frame : Bytes}
    (h : channel.send frame = .ok after) : after.received = true := by
  unfold send at h
  split at h
  · cases h
  · next hreceived =>
    split at h <;> cases h
    simpa using hreceived

/-- A channel that somebody receives from refuses a frame only if it is full. -/
theorem full_of_send {channel : Channel} {frame : Bytes} {fault : SendFault}
    (hreceived : channel.received = true) (h : channel.send frame = .error fault) :
    fault = .full ∧ channel.room = 0 := by
  rw [send, hreceived] at h
  simp only [Bool.not_true, Bool.false_eq_true, ↓reduceIte] at h
  split at h
  · next hroom =>
    cases h
    exact ⟨rfl, hroom⟩
  · cases h

end Channel

-- ---------------------------------------------------------------------------
-- Numbering
-- ---------------------------------------------------------------------------

namespace Frame

/-- The numbers of the frames that follow one with the given number. -/
def seqsAfter (tx : UInt8) (count : Nat) : List UInt8 :=
  List.iterate nextSeq (nextSeq tx) count

/-- The number of the last of the frames that follow one with the given number. -/
def seqAfter (tx : UInt8) (count : Nat) : UInt8 :=
  nextSeq^[count] tx

theorem seqsAfter_succ (tx : UInt8) (count : Nat) :
    seqsAfter tx (count + 1) = nextSeq tx :: seqsAfter (nextSeq tx) count := rfl

theorem seqAfter_succ (tx : UInt8) (count : Nat) :
    seqAfter tx (count + 1) = seqAfter (nextSeq tx) count := rfl

theorem seqAfter_add (tx : UInt8) (m n : Nat) :
    seqAfter tx (m + n) = seqAfter (seqAfter tx m) n := by
  rw [Nat.add_comm, seqAfter, Function.iterate_add_apply]
  rfl

theorem seqsAfter_add (tx : UInt8) (m n : Nat) :
    seqsAfter tx (m + n) = seqsAfter tx m ++ seqsAfter (seqAfter tx m) n := by
  -- counting `m` numbers on and then one is counting one on and then `m`
  have hcomm : nextSeq^[m] (nextSeq tx) = nextSeq (nextSeq^[m] tx) := by
    rw [← Function.iterate_succ_apply, Function.iterate_succ_apply']
  rw [seqsAfter, List.iterate_add, hcomm]
  rfl

/-- The number of the frame with the given index among those that a pacer sends. -/
theorem seqAfter_lastSeq (index : Nat) :
    seqAfter lastSeq (index + 1) = UInt8.ofNat (0x10 + index % 112) := by
  -- there are 112 numbers, and the last is followed by the first
  have hnext : ∀ r < 112, nextSeq (UInt8.ofNat (0x10 + r)) = UInt8.ofNat (0x10 + (r + 1) % 112) := by
    decide
  induction index with
  | zero => rfl
  | succ index ih =>
    rw [seqAfter_add, ih]
    show nextSeq _ = _
    rw [hnext _ (Nat.mod_lt _ (by decide)), Nat.mod_add_mod]

theorem seqsAfter_lastSeq (count : Nat) :
    seqsAfter lastSeq count = (List.range count).map fun i => UInt8.ofNat (0x10 + i % 112) := by
  rw [seqsAfter, ← List.range_map_iterate]
  refine List.map_congr_left fun i _ => ?_
  rw [← seqAfter_lastSeq]
  rfl

theorem getLast?_seqsAfter (tx : UInt8) (count : Nat) :
    (seqsAfter tx count).getLast?.getD tx = seqAfter tx count := by
  cases count with
  | zero => rfl
  | succ count =>
    rw [seqsAfter_add, seqAfter_add, seqsAfter_succ, List.getLast?_append]
    rfl

/-- What the client makes of a frame: its kind, and its payload as that of a data frame. -/
def reading (frame : Frame) : FrameKind × Except WireError DataPayload :=
  (frame.kind, DataPayload.parse frame.payload)

end Frame

namespace Chunk

/-- The frames that carry some chunks and follow one with the given number. -/
def framesAfter (rx tx : UInt8) : List Chunk → List Frame
  | [] => []
  | chunk :: rest =>
    chunk.frame (Frame.nextSeq tx) rx :: framesAfter rx (Frame.nextSeq tx) rest

theorem length_framesAfter (rx tx : UInt8) (chunks : List Chunk) :
    (framesAfter rx tx chunks).length = chunks.length := by
  induction chunks generalizing tx with
  | nil => rfl
  | cons chunk rest ih => rw [framesAfter, List.length_cons, ih, List.length_cons]

theorem tx_framesAfter (rx tx : UInt8) (chunks : List Chunk) :
    (framesAfter rx tx chunks).map (·.tx) = Frame.seqsAfter tx chunks.length := by
  induction chunks generalizing tx with
  | nil => rfl
  | cons chunk rest ih =>
    rw [framesAfter, List.map_cons, ih, List.length_cons, Frame.seqsAfter_succ]
    rfl

theorem reading_framesAfter (rx tx : UInt8) (chunks : List Chunk) :
    (framesAfter rx tx chunks).map (·.reading) = chunks.map fun c => (.data, .ok c.content) := by
  induction chunks generalizing tx with
  | nil => rfl
  | cons chunk rest ih =>
    rw [framesAfter, List.map_cons, List.map_cons, ih, Frame.reading, frame,
      DataPayload.parse_encode]
    rfl

theorem fits_of_mem_framesAfter {rx tx : UInt8} {chunks : List Chunk}
    (h : ∀ chunk ∈ chunks, chunk.FitsFrame) :
    ∀ frame ∈ framesAfter rx tx chunks, frame.Fits := by
  induction chunks generalizing tx with
  | nil => exact fun _ hmem => nomatch hmem
  | cons chunk rest ih =>
    obtain ⟨hchunk, hrest⟩ := List.forall_mem_cons.mp h
    exact List.forall_mem_cons.mpr ⟨fits_frame_iff.mpr hchunk, ih hrest⟩

end Chunk

-- ---------------------------------------------------------------------------
-- One burst
-- ---------------------------------------------------------------------------

/-- What a burst did with the chunks it took off the queue: those that fit a frame were sent, within
the budget, and it stopped only at the end of the budget or of the channel. -/
structure Burst.Moved (rx : UInt8) (budget : Nat) (tx : UInt8) (channel : Channel)
    (sent queue : List Chunk) (after : Burst) (taken : List Chunk) : Prop where
  accounted : queue = taken ++ after.queue
  reported : after.sent = (taken.filter (·.FitsFrame)).reverse ++ sent
  delivered : after.channel.frames =
    channel.frames ++ (Chunk.framesAfter rx tx (taken.filter (·.FitsFrame))).map Frame.bytes
  numbered : after.tx = Frame.seqAfter tx (taken.filter (·.FitsFrame)).length
  bounded : (taken.filter (·.FitsFrame)).length ≤ budget
  stopped : after.queue ≠ [] →
    (taken.filter (·.FitsFrame)).length = budget ∨ after.channel.room = 0
  capacity_eq : after.channel.capacity = channel.capacity
  received : after.channel.received = true
  closed : after.closed = false

namespace Burst

variable {rx : UInt8} {budget : Nat} {tx : UInt8} {channel : Channel} {sent : List Chunk}
  {chunk : Chunk} {rest : List Chunk} {after : Burst} {taken : List Chunk}

/-- Each chunk that was sent takes up a place in the channel. -/
theorem Moved.room_add {queue : List Chunk}
    (h : Moved rx budget tx channel sent queue after taken) :
    after.channel.room + (taken.filter (·.FitsFrame)).length = channel.room := by
  have hdelivered := congrArg List.length h.delivered
  have hcapacity := h.capacity_eq
  rw [List.length_append, List.length_map, Chunk.length_framesAfter, Channel.frames, Channel.frames,
    List.length_reverse, List.length_reverse] at hdelivered
  rw [Channel.capacity, Channel.capacity] at hcapacity
  omega

/-- A burst that stops before it takes anything. -/
theorem Moved.nothing {queue : List Chunk} (hreceived : channel.received = true)
    (hstopped : queue ≠ [] → budget = 0 ∨ channel.room = 0) :
    Moved rx budget tx channel sent queue ⟨queue, tx, channel, sent, false⟩ [] where
  accounted := rfl
  reported := rfl
  delivered := (List.append_nil _).symm
  numbered := rfl
  bounded := Nat.zero_le budget
  stopped hqueue := (hstopped hqueue).imp_left Eq.symm
  capacity_eq := rfl
  received := hreceived
  closed := rfl

/-- A chunk that fits no frame is dropped before the burst goes on. -/
theorem Moved.drop (hchunk : ¬chunk.FitsFrame)
    (h : Moved rx budget tx channel sent rest after taken) :
    Moved rx budget tx channel sent (chunk :: rest) after (chunk :: taken) := by
  -- the chunk is taken, but it does not count as sent
  have hfilter : (chunk :: taken).filter (·.FitsFrame) = taken.filter (·.FitsFrame) :=
    List.filter_cons_of_neg (by simpa using hchunk)
  constructor
  · rw [h.accounted, List.cons_append, ← h.accounted]
  · rw [hfilter, h.reported]
  · rw [hfilter, h.delivered]
  · rw [hfilter, h.numbered]
  · rw [hfilter]
    exact h.bounded
  · rw [hfilter]
    exact h.stopped
  · exact h.capacity_eq
  · exact h.received
  · exact h.closed

/-- A chunk that the channel takes is sent before the burst goes on. -/
theorem Moved.send {next : Channel} (hchunk : chunk.FitsFrame) (hbudget : budget ≠ 0)
    (hsend : channel.send (chunk.frame (Frame.nextSeq tx) rx).bytes = .ok next)
    (h : Moved rx (budget - 1) (Frame.nextSeq tx) next (chunk :: sent) rest after taken) :
    Moved rx budget tx channel sent (chunk :: rest) after (chunk :: taken) := by
  -- the chunk is taken and sent, in front of those sent after it
  have hfilter : (chunk :: taken).filter (·.FitsFrame) = chunk :: taken.filter (·.FitsFrame) :=
    List.filter_cons_of_pos (by simpa using hchunk)
  constructor
  · rw [h.accounted, List.cons_append, ← h.accounted]
  · rw [hfilter, h.reported, List.reverse_cons, List.append_assoc]
    rfl
  · rw [hfilter, h.delivered, Channel.frames_of_send hsend, Chunk.framesAfter, List.map_cons,
      List.append_assoc]
    rfl
  · rw [hfilter, h.numbered, List.length_cons, Frame.seqAfter_succ]
  · have hbounded := h.bounded
    rw [hfilter, List.length_cons]
    omega
  · intro hqueue
    rw [hfilter, List.length_cons]
    refine (h.stopped hqueue).imp_left fun hlength => ?_
    omega
  · exact h.capacity_eq.trans (Channel.capacity_of_send hsend)
  · exact h.received
  · exact h.closed

/-- A burst into a channel that somebody receives from moves chunks into it. -/
theorem moved_run (rx : UInt8) (budget : Nat) (tx : UInt8) {channel : Channel}
    (sent queue : List Chunk) (hreceived : channel.received = true) :
    ∃ taken, Moved rx budget tx channel sent queue (run rx budget tx channel sent queue) taken := by
  -- induction on the queue: the rest meets what the first chunk has left
  induction queue generalizing budget tx channel sent with
  | nil =>
    refine ⟨[], ?_⟩
    rw [run]
    exact .nothing hreceived fun h => absurd rfl h
  | cons chunk rest ih =>
    unfold run
    split
    · next hbudget => exact ⟨[], .nothing hreceived fun _ => .inl hbudget⟩
    · next hbudget =>
      dsimp only
      by_cases hchunk : chunk.FitsFrame
      · rw [Frame.encode_of_fits (Chunk.fits_frame_iff.mpr hchunk)]
        dsimp only
        cases hsend : channel.send (chunk.frame (Frame.nextSeq tx) rx).bytes with
        | ok next =>
          have hnext : next.received = true := Channel.received_of_send hsend
          obtain ⟨taken, htaken⟩ := ih (budget - 1) (Frame.nextSeq tx) (chunk :: sent) hnext
          exact ⟨chunk :: taken, htaken.send hchunk hbudget hsend⟩
        | error fault =>
          -- a channel that is received from refuses a frame only when it is full
          have hfault := Channel.full_of_send hreceived hsend
          rw [hfault.1]
          exact ⟨[], .nothing hreceived fun _ => .inr hfault.2⟩
      · rw [Frame.encode_of_not_fits (mt Chunk.fits_frame_iff.mp hchunk)]
        obtain ⟨taken, htaken⟩ := ih budget tx sent hreceived
        exact ⟨chunk :: taken, htaken.drop hchunk⟩

/-- A burst of no chunks does nothing. -/
theorem run_zero (rx tx : UInt8) (channel : Channel) (sent queue : List Chunk) :
    run rx 0 tx channel sent queue = ⟨queue, tx, channel, sent, false⟩ := by
  cases queue with
  | nil => rfl
  | cons chunk rest => rw [run, if_pos rfl]

/-- A burst into a channel that nobody receives from sends nothing.  It drops what fits no frame from
the front of the queue, and finds the channel closed at the first chunk that fits. -/
theorem run_of_abandoned (rx tx : UInt8) (hbudget : budget ≠ 0)
    (habandoned : channel.received = false) (sent queue : List Chunk) :
    run rx budget tx channel sent queue =
      ⟨queue.dropWhile (¬·.FitsFrame), tx, channel, sent,
        !(queue.dropWhile (¬·.FitsFrame)).isEmpty⟩ := by
  induction queue with
  | nil => rfl
  | cons chunk rest ih =>
    rw [run, if_neg hbudget]
    dsimp only
    by_cases hchunk : chunk.FitsFrame
    -- the first chunk that fits a frame shows that the channel is closed
    · have hclosed : channel.send (chunk.frame (Frame.nextSeq tx) rx).bytes = .error .closed := by
        rw [Channel.send, habandoned]
        rfl
      rw [Frame.encode_of_fits (Chunk.fits_frame_iff.mpr hchunk)]
      dsimp only
      rw [hclosed, List.dropWhile_cons_of_neg (by simpa using hchunk)]
      rfl
    · rw [Frame.encode_of_not_fits (mt Chunk.fits_frame_iff.mp hchunk)]
      dsimp only
      rw [ih, List.dropWhile_cons_of_pos (by simpa using hchunk)]

end Burst

-- ---------------------------------------------------------------------------
-- Pacers
-- ---------------------------------------------------------------------------

namespace Pacer

theorem enqueue_of_open {pacer : Pacer} (h : pacer.closed = false) (chunks : List Chunk) :
    pacer.enqueue chunks = { pacer with queue := pacer.queue ++ chunks } := by
  rw [enqueue, h]
  rfl

theorem enqueue_of_closed {pacer : Pacer} (h : pacer.closed = true) (chunks : List Chunk) :
    pacer.enqueue chunks = pacer :=
  if_pos h

theorem drain_of_closed {pacer : Pacer} (h : pacer.closed = true) (channel : Channel)
    (budget : Nat) : pacer.drain channel budget = (pacer, channel, []) :=
  if_pos h

/-- What a burst does to an open pacer whose channel is received from. -/
theorem exists_moved {pacer : Pacer} {channel : Channel} (hopen : pacer.closed = false)
    (hreceived : channel.received = true) (budget : Nat) :
    ∃ burst taken, Burst.Moved pacer.rx budget pacer.tx channel [] pacer.queue burst taken ∧
      pacer.drain channel budget =
        ({ pacer with queue := burst.queue, tx := burst.tx, closed := false }, burst.channel,
          taken.filter (·.FitsFrame)) := by
  obtain ⟨taken, hmoved⟩ := Burst.moved_run pacer.rx budget pacer.tx [] pacer.queue hreceived
  refine ⟨_, taken, hmoved, ?_⟩
  rw [drain, hopen]
  simp only [Bool.false_eq_true, ↓reduceIte, hmoved.closed, hmoved.reported, List.append_nil,
    List.reverse_reverse]

/-- What leaves an open pacer are the first chunks that fit frames, as many as a burst may hold and the
channel has places for. -/
theorem sent_drain_of_open {pacer : Pacer} {channel : Channel} (hopen : pacer.closed = false)
    (hreceived : channel.received = true) (budget : Nat) :
    (pacer.drain channel budget).2.2 =
      (pacer.queue.filter (·.FitsFrame)).take (min budget channel.room) := by
  obtain ⟨burst, taken, hmoved, hdrain⟩ := exists_moved hopen hreceived budget
  have hbounded := hmoved.bounded
  have hroom := hmoved.room_add
  rw [hdrain, hmoved.accounted, List.filter_append]
  by_cases hqueue : burst.queue = []
  · rw [hqueue, List.filter_nil, List.append_nil, List.take_of_length_le (by omega)]
  · -- something is left, so the burst or the channel is full
    have hlength : min budget channel.room = (taken.filter (·.FitsFrame)).length := by
      rcases hmoved.stopped hqueue with hspent | hfull <;> omega
    rw [hlength, List.take_left]

/-- A burst of no chunks does nothing to a pacer, open or closed. -/
theorem drain_zero (pacer : Pacer) (channel : Channel) : pacer.drain channel 0 = (pacer, channel, []) := by
  obtain ⟨burst, queue, tx, rx, closed⟩ := pacer
  cases closed with
  | true => rfl
  | false =>
    rw [drain, Burst.run_zero]
    rfl

/-- A burst takes something off the queue of an open pacer, if it may and if the channel has a place. -/
theorem length_drain_lt {pacer : Pacer} {channel : Channel} (hopen : pacer.closed = false)
    (hreceived : channel.received = true) (hroom : channel.room ≠ 0) {budget : Nat}
    (hbudget : budget ≠ 0) (hqueue : pacer.queue ≠ []) :
    (pacer.drain channel budget).1.queue.length < pacer.queue.length := by
  obtain ⟨burst, taken, hmoved, hdrain⟩ := exists_moved hopen hreceived budget
  have haccounted := hmoved.accounted
  have htaken : taken ≠ [] := by
    rintro rfl
    -- a burst that took nothing has stopped at once, and left the channel as it was
    have hleft : burst.queue ≠ [] := by
      rwa [haccounted, List.nil_append] at hqueue
    rcases hmoved.stopped hleft with hspent | hfull
    · exact hbudget hspent.symm
    · exact hroom (hmoved.room_add.symm.trans hfull)
  have hpositive := List.length_pos_iff.mpr htaken
  rw [hdrain, haccounted, List.length_append]
  show burst.queue.length < _
  omega

/-- Into a channel that nobody receives from nothing is sent. -/
theorem sent_drain_of_abandoned (pacer : Pacer) {channel : Channel}
    (habandoned : channel.received = false) (budget : Nat) :
    (pacer.drain channel budget).2 = (channel, []) := by
  unfold drain
  split
  · rfl
  · by_cases hbudget : budget = 0
    · rw [hbudget, Burst.run_zero]
      rfl
    · rw [Burst.run_of_abandoned pacer.rx pacer.tx hbudget habandoned]
      rfl

/-- What a burst sends are chunks of the queue, in order, and the channel gets one frame with each. -/
theorem sent_drain (pacer : Pacer) (channel : Channel) (budget : Nat) :
    ((pacer.drain channel budget).2.2).Sublist pacer.queue ∧
      (pacer.drain channel budget).2.1.frames = channel.frames ++
        (Chunk.framesAfter pacer.rx pacer.tx (pacer.drain channel budget).2.2).map Frame.bytes := by
  have hnothing (h : (pacer.drain channel budget).2 = (channel, [])) :
      ((pacer.drain channel budget).2.2).Sublist pacer.queue ∧
        (pacer.drain channel budget).2.1.frames = channel.frames ++
          (Chunk.framesAfter pacer.rx pacer.tx (pacer.drain channel budget).2.2).map
            Frame.bytes := by
    rw [h]
    exact ⟨List.nil_sublist _, (List.append_nil _).symm⟩
  cases hclosed : pacer.closed with
  | true => exact hnothing (by rw [drain_of_closed hclosed])
  | false =>
    cases hreceived : channel.received with
    | false => exact hnothing (pacer.sent_drain_of_abandoned hreceived budget)
    | true =>
      obtain ⟨burst, taken, hmoved, hdrain⟩ := exists_moved hclosed hreceived budget
      rw [hdrain, hmoved.accounted]
      refine ⟨?_, hmoved.delivered⟩
      exact List.filter_sublist.trans (List.sublist_append_left taken burst.queue)

end Pacer

end Switchboard
