import Mathlib.Data.List.Pairwise
import Switchboard.Proofs.Pacer
import Switchboard.Proofs.Transfer.Delivery

/-!
# What keeps a download alive

A burst looks at the last segment that has left, and notes activity on the download whose id it has.
Segments of several downloads may leave in one burst, of those too that were called off or have failed.
Ids are given out in ascending order, and what is queued belongs to the download that has the slot at
that time.  So the segments in the queue are in the order of their ids, and none has a greater id than
the download in the slot: if any of its segments leave, then the last one to leave is among them.

Main results:

* `Connection.SegmentsInOrder.step`: every step of a download keeps the segments in order.
* `Transfers.download_kept_alive`: a burst notes activity on the download in the slot exactly if one of
  its segments leaves.
-/

namespace Switchboard

-- ---------------------------------------------------------------------------
-- Segments in order
-- ---------------------------------------------------------------------------

namespace Chunk

variable {bound bound' : Nat} {id other : UInt32} {chunk : Chunk} {queue more : List Chunk}

/-- Whether the ids that two chunks carry, if both carry one, are in order. -/
def Precedes (first second : Chunk) : Prop :=
  ∀ i j, first.Carries i → second.Carries j → i.toNat ≤ j.toNat

/-- Chunks whose segments stand in the order of the ids that they carry, which are at most a bound. -/
structure AreInOrder (bound : Nat) (queue : List Chunk) : Prop where
  named : ∀ chunk ∈ queue, chunk.IsSegment → ∃ id : UInt32, chunk.Carries id ∧ id.toNat ≤ bound
  ordered : queue.Pairwise Precedes

instance (chunk : Chunk) (id : UInt32) : Decidable (chunk.Carries id) :=
  inferInstanceAs (Decidable (_ ∧ _))

theorem Carries.id_eq (h : chunk.Carries id) (h' : chunk.Carries other) : id = other :=
  Option.some.inj (h.2.symm.trans h'.2)

theorem precedes_self (chunk : Chunk) : chunk.Precedes chunk := by
  intro i j hi hj
  rw [hi.id_eq hj]

theorem precedes_of_not_isSegment {first second : Chunk} (h : ¬second.IsSegment) :
    first.Precedes second :=
  fun _ _ _ hj => absurd hj.1 h

namespace AreInOrder

theorem le_bound (h : AreInOrder bound queue) (hmem : chunk ∈ queue) (hcarries : chunk.Carries id) :
    id.toNat ≤ bound := by
  obtain ⟨found, hfound, hle⟩ := h.named chunk hmem hcarries.1
  rwa [hcarries.id_eq hfound]

theorem mono (h : AreInOrder bound queue) (hle : bound ≤ bound') : AreInOrder bound' queue := by
  refine ⟨fun chunk hmem hsegment => ?_, h.ordered⟩
  obtain ⟨id, hcarries, hid⟩ := h.named chunk hmem hsegment
  exact ⟨id, hcarries, hid.trans hle⟩

theorem sublist (h : AreInOrder bound queue) (hsub : more.Sublist queue) : AreInOrder bound more :=
  ⟨fun chunk hmem => h.named chunk (hsub.subset hmem), h.ordered.sublist hsub⟩

/-- Other chunks may come behind. -/
theorem append_plain (h : AreInOrder bound queue) (hplain : ∀ chunk ∈ more, ¬chunk.IsSegment) :
    AreInOrder bound (queue ++ more) := by
  refine ⟨fun chunk hmem hsegment => ?_, List.pairwise_append.mpr ⟨h.ordered, ?_, ?_⟩⟩
  · rcases List.mem_append.mp hmem with hold | hnew
    · exact h.named chunk hold hsegment
    · exact absurd hsegment (hplain chunk hnew)
  · exact List.pairwise_of_forall_mem_list fun _ _ second hsecond =>
      precedes_of_not_isSegment (hplain second hsecond)
  · intro first _ second hsecond
    exact precedes_of_not_isSegment (hplain second hsecond)

/-- So may the segments of a download whose id is as great as the bound. -/
theorem append_batch (h : AreInOrder id.toNat queue) (streamId : UInt16) (pieces : List Bytes) :
    AreInOrder id.toNat (queue ++ batch streamId id pieces) := by
  have hbatch {first second : Chunk} (hsecond : second ∈ batch streamId id pieces)
      (hfirst : ∀ i, first.Carries i → i.toNat ≤ id.toNat) : first.Precedes second := by
    intro i j hi hj
    rw [id_of_carries_batch hsecond hj]
    exact hfirst i hi
  refine ⟨fun chunk hmem hsegment => ?_, List.pairwise_append.mpr ⟨h.ordered, ?_, ?_⟩⟩
  · rcases List.mem_append.mp hmem with hold | hnew
    · exact h.named chunk hold hsegment
    · exact ⟨id, ⟨hsegment, segmentTransferId?_of_mem_batch hnew⟩, Nat.le_refl _⟩
  · refine List.pairwise_of_forall_mem_list fun first hfirst second hsecond => ?_
    refine hbatch hsecond fun i hi => ?_
    rw [id_of_carries_batch hfirst hi]
  · intro first hfirst second hsecond
    exact hbatch hsecond fun i hi => h.le_bound hfirst hi

end AreInOrder

end Chunk

-- ---------------------------------------------------------------------------
-- The last segment of a burst
-- ---------------------------------------------------------------------------

theorem Slot.touch_of_streaming {slot : Slot} {a : ActiveTransfer} (hactive : slot.active = some a)
    (hstatus : a.state.status = .streaming) (now : Nat) :
    (slot.touch now a.state.id).1 = { slot with
      active := some { a with state := { a.state with lastActivity := now } } } := by
  rw [touch, hactive]
  dsimp only
  rw [if_pos ⟨rfl, hstatus⟩]

theorem Slot.touch_of_not_streaming {slot : Slot} {id : UInt32}
    (h : ∀ a, slot.active = some a → a.state.id = id → a.state.status ≠ .streaming) (now : Nat) :
    (slot.touch now id).1 = slot := by
  unfold touch
  split
  · next a hactive => rw [if_neg fun hid => h a hactive hid.1 hid.2]
  · rfl

namespace Connection

variable {id : UInt32} {sent : List Chunk}

theorem lastSegmentId?_eq (sent : List Chunk) :
    lastSegmentId? sent =
      (sent.filter (·.IsSegment)).getLast?.bind fun chunk => segmentTransferId? chunk.body := by
  have hfilter : (sent.filter fun c => c.token = .downloadData ∨ c.token = .downloadEnd) =
      sent.filter (·.IsSegment) := rfl
  rw [lastSegmentId?, hfilter]
  cases (sent.filter (·.IsSegment)).getLast? <;> rfl

/-- The last segment of a burst is one that has left. -/
theorem exists_of_lastSegmentId? (h : lastSegmentId? sent = some id) :
    ∃ chunk ∈ sent, chunk.Carries id := by
  rw [lastSegmentId?_eq] at h
  obtain ⟨chunk, hlast, hid⟩ := Option.bind_eq_some_iff.mp h
  obtain ⟨hmem, hsegment⟩ := List.mem_filter.mp (List.mem_of_getLast? hlast)
  exact ⟨chunk, hmem, of_decide_eq_true hsegment, hid⟩

/-- If segments leave in the order of their ids, the last one has the greatest. -/
theorem lastSegmentId?_of_areInOrder (h : Chunk.AreInOrder id.toNat sent) {chunk : Chunk}
    (hmem : chunk ∈ sent) (hcarries : chunk.Carries id) : lastSegmentId? sent = some id := by
  have hsegments : Chunk.AreInOrder id.toNat (sent.filter (·.IsSegment)) :=
    h.sublist List.filter_sublist
  have hchunk : chunk ∈ sent.filter (·.IsSegment) :=
    List.mem_filter.mpr ⟨hmem, decide_eq_true hcarries.1⟩
  have hne := List.ne_nil_of_mem hchunk
  have hlast := List.getLast_mem hne
  -- the last segment carries an id that is neither greater nor less
  obtain ⟨other, hother, hle⟩ :=
    hsegments.named _ hlast (of_decide_eq_true (List.mem_filter.mp hlast).2)
  have hge := hsegments.ordered.rel_getLast_of_rel_getLast_getLast hchunk
    (Chunk.precedes_self _) id other hcarries hother
  obtain rfl : other = id := UInt32.toNat_inj.mp (Nat.le_antisymm hle hge)
  rw [lastSegmentId?_eq, List.getLast?_eq_some_getLast hne]
  exact hother.2

-- ---------------------------------------------------------------------------
-- What a burst notes
-- ---------------------------------------------------------------------------

variable {c final : Connection} {a : ActiveTransfer} {now : Nat}

/-- The chunks that leave with the next burst, in order. -/
def leaving (c : Connection) : List Chunk :=
  (c.pacer.drain c.outbound c.pacer.burst).2.2

/-- Whether the transfer in the slot for downloads is streaming, and a segment of it leaves with the
next burst. -/
def IsFed (c : Connection) (a : ActiveTransfer) : Prop :=
  c.transfers.download.active = some a ∧ a.state.status = .streaming ∧
    ∃ chunk ∈ c.leaving, chunk.Carries a.state.id

theorem transfers_flush_of_none (h : lastSegmentId? c.leaving = none) (now : Nat) :
    (c.flush now).1.transfers = c.transfers := by
  unfold flush
  dsimp only
  rw [leaving] at h
  rw [h]

theorem transfers_flush_of_some (h : lastSegmentId? c.leaving = some id) (now : Nat) :
    (c.flush now).1.transfers =
      { c.transfers with download := (c.transfers.download.touch now id).1 } := by
  unfold flush
  dsimp only
  rw [leaving] at h
  rw [h]
  rfl

/-- If segments leave in the order of their ids, then the transfer that is fed is noted. -/
theorem transfers_flush_of_isFed (hfed : c.IsFed a)
    (horder : Chunk.AreInOrder a.state.id.toNat c.leaving) (now : Nat) :
    (c.flush now).1.transfers = { c.transfers with
      download := { c.transfers.download with
        active := some { a with state := { a.state with lastActivity := now } } } } := by
  obtain ⟨hactive, hstatus, chunk, hmem, hcarries⟩ := hfed
  rw [transfers_flush_of_some (lastSegmentId?_of_areInOrder horder hmem hcarries),
    Slot.touch_of_streaming hactive hstatus]

/-- Without one that is fed nothing is noted. -/
theorem transfers_flush_of_not_isFed (h : ∀ a, ¬c.IsFed a) (now : Nat) :
    (c.flush now).1.transfers = c.transfers := by
  cases hlast : lastSegmentId? c.leaving with
  | none => exact transfers_flush_of_none hlast now
  | some id =>
    rw [transfers_flush_of_some hlast, Slot.touch_of_not_streaming]
    intro a hactive hid hstatus
    refine h a ⟨hactive, hstatus, ?_⟩
    rw [hid]
    exact exists_of_lastSegmentId? hlast

-- ---------------------------------------------------------------------------
-- Queues in order
-- ---------------------------------------------------------------------------

/-- A connection whose queued segments are in the order of their ids.  The greatest is at most the last
id given out, and at most that of the download in the slot. -/
structure SegmentsInOrder (issued : Nat) (c : Connection) : Prop where
  queue : Chunk.AreInOrder issued c.pacer.queue
  active : ∀ a, c.transfers.download.active = some a →
    a.state.id.toNat ≤ issued ∧ Chunk.AreInOrder a.state.id.toNat c.pacer.queue

namespace SegmentsInOrder

variable {issued issued' : Nat} {service next : TransferService} {mark : Option Transfers.Mark}
  {rest queued : List Chunk}

theorem mono (h : c.SegmentsInOrder issued) (hle : issued ≤ issued') :
    c.SegmentsInOrder issued' := by
  refine ⟨h.queue.mono hle, fun a ha => ?_⟩
  obtain ⟨hid, horder⟩ := h.active a ha
  exact ⟨hid.trans hle, horder⟩

/-- One step of the slot for downloads keeps the order.  A download that begins has a greater id than
all that is queued, and only the download in the slot queues segments. -/
theorem step (h : c.SegmentsInOrder issued)
    (hstep : Transfers.DownloadStep service next now c.transfers.download final.transfers.download
      mark queued)
    (hrest : rest <:+ c.pacer.queue) (hqueue : final.pacer.queue = rest ++ queued)
    (hle : issued ≤ issued')
    (hfresh : next.nextId = service.nextId + 1 →
      issued' = issued + 1 ∧ service.nextId.toNat = issued + 1) :
    final.SegmentsInOrder issued' := by
  have hplainly {bound : Nat} {more : List Chunk} (horder : Chunk.AreInOrder bound c.pacer.queue)
      (hplain : ∀ chunk ∈ more, ¬chunk.IsSegment) : Chunk.AreInOrder bound (rest ++ more) :=
    (horder.sublist hrest.sublist).append_plain hplain
  cases hstep with
  | quiet hplain hlingers =>
    refine ⟨?_, fun a ha => ?_⟩
    · rw [hqueue]
      exact (hplainly h.queue hplain).mono hle
    -- what is in the slot was there before, with the same id
    · obtain ⟨before, hbefore, hid⟩ : ∃ before, c.transfers.download.active = some before ∧
          before.state.id = a.state.id := by
        rcases hlingers.active with hsame | hnone | ⟨before, hbefore, -, htouched⟩
        · exact ⟨a, hsame.symm.trans ha, rfl⟩
        · cases hnone.symm.trans ha
        · cases htouched.symm.trans ha
          exact ⟨before, hbefore, rfl⟩
      obtain ⟨hissued, horder⟩ := h.active before hbefore
      rw [hqueue, ← hid]
      exact ⟨hissued.trans hle, hplainly horder hplain⟩
  | begun hplain _ _ hissued hactive _ =>
    obtain ⟨rfl, hnumber⟩ := hfresh hissued
    have hafter : Chunk.AreInOrder (issued + 1) final.pacer.queue := by
      rw [hqueue]
      exact (hplainly h.queue hplain).mono hle
    refine ⟨hafter, fun a ha => ?_⟩
    cases hactive.symm.trans ha
    show service.nextId.toNat ≤ _ ∧ Chunk.AreInOrder service.nextId.toNat _
    rw [hnumber]
    exact ⟨Nat.le_refl _, hafter⟩
  | @accepted a data streamId notices hplain hthere _ _ hactive _ =>
    obtain ⟨hissued, horder⟩ := h.active a hthere
    have hafter : Chunk.AreInOrder a.state.id.toNat final.pacer.queue := by
      rw [hqueue, downloadChunks_eq_batch, ← List.append_assoc]
      exact (hplainly horder hplain).append_batch streamId _
    refine ⟨hafter.mono (hissued.trans hle), fun found hfound => ?_⟩
    cases hactive.symm.trans hfound
    exact ⟨hissued.trans hle, hafter⟩
  | confirmed hplain _ _ hactive _ =>
    refine ⟨?_, fun a ha => ?_⟩
    · rw [hqueue]
      exact (hplainly h.queue hplain).mono hle
    · cases hactive.symm.trans ha

end SegmentsInOrder

/-- What leaves in a burst is in order if the queue is. -/
theorem areInOrder_leaving {bound : Nat} (h : Chunk.AreInOrder bound c.pacer.queue) :
    Chunk.AreInOrder bound c.leaving :=
  h.sublist (c.pacer.sent_drain c.outbound c.pacer.burst).1

end Connection

namespace Transfers

/-- Every operation on an open connection keeps the segments in order. -/
theorem isKept_segmentsInOrder : IsKept fun issued _ c => c.SegmentsInOrder issued where
  new _ _ _ _ _ := ⟨⟨List.forall_mem_nil _, .nil⟩, nofun⟩
  mono := Connection.SegmentsInOrder.mono
  run {service op issued issued' events c} now h hplain hopen hle hfresh := by
    obtain ⟨queued, hstep, hqueue⟩ := op.downloadStep service c now hplain
    obtain ⟨-, rest, hrest, hafter⟩ := hqueue hopen
    exact h.step hstep hrest hafter hle hfresh

/-- In every run of fewer than 2³² initiations, on a connection to whose queue others add no segments,
whatever has become of its channel: a burst puts the chunks that leave into the channel as data frames,
in order.  It notes activity on the download in the slot if that is streaming and one of these chunks
carries a part of it, whatever else they carry.  Otherwise it changes no transfer. -/
theorem download_kept_alive (links : LinkLimits) (limits : TransferLimits) (directory : Directory)
    (store : Store) (steps : List Step) (hcount : steps.countP Step.isInitiation < UInt32.size)
    (i : Nat) (hplain : ∀ op, .operate i op ∈ steps → op.IsPlain) (before : Connection)
    (hbefore : ((World.start links limits directory store).run steps).server.connections[i]? =
      some before) (outbound : Channel) (now : Nat) :
    let c := { before with outbound }
    let after := (c.flush now).1
    let sent := c.leaving
    after.outbound.frames =
        outbound.frames ++ (Chunk.framesAfter c.pacer.rx c.pacer.tx sent).map Frame.bytes ∧
      (∀ a, c.transfers.download.active = some a → a.state.status = .streaming →
        (∃ chunk ∈ sent, chunk.Carries a.state.id) →
          after.transfers = { c.transfers with
            download := { c.transfers.download with
              active := some { a with state := { a.state with lastActivity := now } } } }) ∧
      ((¬∃ a, c.transfers.download.active = some a ∧ a.state.status = .streaming ∧
        ∃ chunk ∈ sent, chunk.Carries a.state.id) → after.transfers = c.transfers) := by
  intro c after sent
  have hstart := World.isFollowed_start (fun issued _ c => c.SegmentsInOrder issued) links limits
    directory store i
  obtain ⟨issued, hfollowed⟩ :=
    hstart.run isKept_segmentsInOrder steps hplain (by rwa [Nat.zero_add])
  refine ⟨(c.pacer.sent_drain outbound c.pacer.burst).2, fun a hactive hstatus hsent => ?_,
    fun hnone => ?_⟩
  · refine Connection.transfers_flush_of_isFed ⟨hactive, hstatus, hsent⟩ ?_ now
    cases hclosed : c.pacer.closed with
    | false =>
      have hordered := hfollowed.present before hbefore hclosed
      exact Connection.areInOrder_leaving (hordered.active a hactive).2
    | true =>
      -- nothing leaves a closed connection
      have hnothing : c.leaving = [] := by
        rw [Connection.leaving, Pacer.drain_of_closed hclosed]
      rw [hnothing]
      exact ⟨List.forall_mem_nil _, .nil⟩
  · exact Connection.transfers_flush_of_not_isFed (fun a hfed => hnone ⟨a, hfed⟩) now

/-- A burst carries what is left of a download that was called off, another message, and the download
that came after. -/
theorem download_kept_alive_after_cancel :
    let steps : List Step := [.connect "Ann" ⟨.mac, 1, true⟩ (.new 16) 16,
      .operate 0 (.initiateDownload "old.txt" [1, 2]), .operate 0 (.handle (.downloadAck 1)),
      .operate 0 (.cancel .download), .operate 0 (.send [.single .stream 9 [0] "scene"]),
      .operate 0 (.initiateDownload "new.txt" [3]), .operate 0 (.handle (.downloadAck 2))]
    let w := (World.start ⟨4, 8⟩ ⟨100, 1000, 200⟩ (.ofNames []) (.memory .empty)).run steps
    steps.countP Step.isInitiation < UInt32.size ∧
      (∀ op, .operate 0 op ∈ steps → op.IsPlain) ∧
      ∃ c a, w.server.connections[0]? = some c ∧ (∃ chunk ∈ c.leaving, chunk.Carries 1) ∧
        c.transfers.download.active = some a ∧ a.state.id = 2 ∧ a.state.lastActivity = 0 ∧
        (c.flush 500).1.transfers.download.active =
          some { a with state := { a.state with lastActivity := 500 } } := by
  intro steps w
  have hcount : steps.countP Step.isInitiation < UInt32.size := by decide
  have hplain : ∀ op, .operate 0 op ∈ steps → op.IsPlain := by
    simp [steps, Operation.IsPlain, Chunk.IsSegment]
    decide
  have hconnection : w.server.connections[0]?.any (fun c =>
      c.leaving.any (·.Carries 1) && c.leaving.any (·.Carries 2) &&
        c.transfers.download.active.any fun a => a.state.id = 2 ∧ a.state.status = .streaming ∧
          a.state.lastActivity = 0) = true := by
    decide +kernel
  obtain ⟨c, hc, h⟩ := (Option.any_eq_true _ _).mp hconnection
  obtain ⟨⟨hold, hnew⟩, hslot⟩ := by simpa only [Bool.and_eq_true] using h
  obtain ⟨a, hactive, hstate⟩ := (Option.any_eq_true _ _).mp hslot
  obtain ⟨hid, hstatus, hlast⟩ := of_decide_eq_true hstate
  have hsent : ∃ chunk ∈ c.leaving, chunk.Carries a.state.id := by
    rw [hid]
    simpa using hnew
  have halive := (download_kept_alive ⟨4, 8⟩ ⟨100, 1000, 200⟩ (.ofNames []) (.memory .empty) steps
    hcount 0 hplain c hc c.outbound 500).2.1 a hactive hstatus hsent
  refine ⟨hcount, hplain, c, a, hc, by simpa using hold, hactive, hid, hlast, ?_⟩
  exact congrArg (·.download.active) halive

end Transfers

end Switchboard
