import Switchboard.Proofs.Traffic.Run
import Switchboard.Startup

/-!
# Progress of bursts

If the channel of an open connection has a free place, a burst takes chunks off the queue, so the queue
is empty after at most as many bursts as it holds chunks, with the channel emptied in between.  This
rests on a limit for bursts that allows at least one chunk.  The limit is taken from the settings as it
stands there: if it is zero, no burst ever does anything, and what waits in a queue waits for ever.

Main results:

* `Connection.queue_rounds`: bursts empty the queue, if they may take anything.
* `Connection.flush_of_burst_zero`: otherwise they do nothing.
* `Traffic.bursts_progress`: both, for the connections of a server.
-/

namespace Switchboard

open Transfers (Operation)

theorem Channel.room_receiveAll (channel : Channel) :
    channel.receiveAll.2.room = channel.capacity := by
  simp [receiveAll, receive, frames, capacity]

-- ---------------------------------------------------------------------------
-- One connection
-- ---------------------------------------------------------------------------

namespace Connection

variable {c : Connection}

/-- A burst leaves, and what is in the channel is taken out. -/
def round (c : Connection) (now : Nat) : Connection :=
  let c := (c.flush now).1
  { c with outbound := c.outbound.receiveAll.2 }

/-- Rounds at the given times, in order. -/
def rounds (c : Connection) (times : List Nat) : Connection :=
  times.foldl round c

/-- An open connection whose channel has a free place. -/
structure IsReady (c : Connection) : Prop where
  isOpen : c.isClosed = false
  hasRoom : c.outbound.room ≠ 0

theorem isClosed_eq_false_iff :
    c.isClosed = false ↔ c.pacer.closed = false ∧ c.outbound.received = true := by
  simp [isClosed]

/-- A burst makes progress. -/
theorem length_flush_lt (h : c.IsReady) (hburst : c.pacer.burst ≠ 0) (hqueue : c.pacer.queue ≠ [])
    (now : Nat) : (c.flush now).1.pacer.queue.length < c.pacer.queue.length := by
  obtain ⟨hopen, hreceived⟩ := isClosed_eq_false_iff.mp h.isOpen
  exact Pacer.length_drain_lt hopen hreceived h.hasRoom hburst hqueue

/-- After a round the connection is ready for the next one. -/
theorem IsReady.round (h : c.IsReady) (now : Nat) :
    (c.round now).IsReady ∧ (c.round now).pacer.burst = c.pacer.burst := by
  obtain ⟨hopen, hreceived⟩ := isClosed_eq_false_iff.mp h.isOpen
  obtain ⟨burst, taken, hmoved, hdrain⟩ := Pacer.exists_moved hopen hreceived c.pacer.burst
  have hpacer : (c.round now).pacer = (c.pacer.drain c.outbound c.pacer.burst).1 := rfl
  have houtbound : (c.round now).outbound =
      (c.pacer.drain c.outbound c.pacer.burst).2.1.receiveAll.2 := rfl
  rw [hdrain] at hpacer houtbound
  refine ⟨⟨isClosed_eq_false_iff.mpr ⟨by rw [hpacer], ?_⟩, ?_⟩, by rw [hpacer]⟩
  · rw [houtbound]
    exact hmoved.received
  -- all places are free, and there was a free one before
  · rw [houtbound, Channel.room_receiveAll, hmoved.capacity_eq, Channel.capacity]
    have := h.hasRoom
    omega

/-- As many rounds as there are chunks empty the queue. -/
theorem queue_rounds (h : c.IsReady) (hburst : c.pacer.burst ≠ 0) {times : List Nat}
    (htimes : c.pacer.queue.length ≤ times.length) : (c.rounds times).pacer.queue = [] := by
  -- every round takes at least one chunk while there are any
  induction times generalizing c with
  | nil => exact List.eq_nil_of_length_eq_zero (Nat.le_zero.mp htimes)
  | cons now times ih =>
    obtain ⟨hready, hsame⟩ := h.round now
    refine ih hready (hsame ▸ hburst) ?_
    show (c.flush now).1.pacer.queue.length ≤ times.length
    rw [List.length_cons] at htimes
    by_cases hqueue : c.pacer.queue = []
    · have hsuffix := c.pacer.queue_drain_suffix c.outbound c.pacer.burst
      rw [hqueue] at hsuffix
      have hnothing : (c.flush now).1.pacer.queue = [] := List.suffix_nil.mp hsuffix
      rw [hnothing]
      exact Nat.zero_le _
    · have hless := length_flush_lt h hburst hqueue now
      omega

/-- Bursts of no chunks do nothing. -/
theorem flush_of_burst_zero (hburst : c.pacer.burst = 0) (now : Nat) : c.flush now = (c, 0) := by
  rw [flush, hburst, Pacer.drain_zero]
  rfl

theorem queue_rounds_of_burst_zero (hburst : c.pacer.burst = 0) (times : List Nat) :
    (c.rounds times).pacer.queue = c.pacer.queue := by
  induction times generalizing c with
  | nil => rfl
  | cons now times ih =>
    have hround : (c.round now).pacer = c.pacer := by
      rw [round, flush_of_burst_zero hburst]
    exact (ih (hround ▸ hburst)).trans (congrArg Pacer.queue hround)

end Connection

-- ---------------------------------------------------------------------------
-- The limit for bursts
-- ---------------------------------------------------------------------------

theorem Pacer.burst_enqueue (pacer : Pacer) (chunks : List Chunk) :
    (pacer.enqueue chunks).burst = pacer.burst := by
  unfold enqueue
  split <;> rfl

theorem Pacer.burst_drain (pacer : Pacer) (channel : Channel) (budget : Nat) :
    (pacer.drain channel budget).1.burst = pacer.burst := by
  unfold drain
  split <;> rfl

theorem Connection.Dispatched.burst_eq {limit : Nat} {ds : List Dispatch} {before after : Connection}
    (h : Dispatched limit ds before after) : after.pacer.burst = before.pacer.burst := by
  obtain ⟨batches, -, hpacer⟩ := h
  rw [hpacer, Pacer.burst_enqueue]

/-- No operation changes the limit. -/
theorem Transfers.Operation.burst_run (op : Operation) (service : TransferService) (c : Connection)
    (now : Nat) : (op.run service c now).2.1.pacer.burst = c.pacer.burst := by
  by_cases hsweeps : op.sweeps = true
  · obtain ⟨ended, ds, heffect⟩ := Operation.effect hsweeps service c now
    exact heffect.dispatched.burst_eq.trans (c.dispatched_sweep service.limits now).burst_eq
  · cases op with
    | initiateDownload | initiateUpload | handle | cancel | sweep | report =>
      exact absurd rfl hsweeps
    | flush => exact c.pacer.burst_drain c.outbound c.pacer.burst
    | send chunks => exact c.pacer.burst_enqueue chunks
    | clearFailed | close | receive | setRx => rfl

/-- A connection keeps the limit that it has got from the server. -/
theorem Connection.isLasting_burst (burst limit : Nat) :
    Connection.IsLasting burst limit (·.pacer.burst = burst) where
  new _ _ _ _ _ := rfl
  run op now h _ _ := (op.burst_run _ _ now).trans h
  takeStreamId h := h
  sendControl {c} h kind payload := by
    unfold Connection.sendControl
    split
    · exact h
    · split
      · exact h
      · split <;> exact h

namespace Traffic

/-- A server with the given settings, before any link has come up. -/
def started (settings : Settings) (store : Store) : Presence.World :=
  ⟨.ofSettings settings store, [], [], 0⟩

/-- With any settings: connections send bursts of as many chunks as the settings allow.  While a
connection is open, has something queued and a free place in its channel, a burst makes the queue
shorter exactly if the settings allow bursts of any chunks at all.  If they do, as many bursts as there
are chunks empty the queue, with the channel emptied after each.  If they do not, the queue stays as it
is. -/
theorem bursts_progress (settings : Settings) (store : Store) :
    (∀ acts : List Act, (∀ a ∈ acts, a.IsOwn settings.transport.maxFramePayload.toNat) →
      ∀ c ∈ (run (started settings store) acts).server.connections,
        c.pacer.burst = settings.transport.maxBurst.toNat) ∧
    ∀ c : Connection, c.pacer.burst = settings.transport.maxBurst.toNat → c.isClosed = false →
      c.outbound.room ≠ 0 →
      (c.pacer.queue ≠ [] → ∀ now,
        ((c.flush now).1.pacer.queue.length < c.pacer.queue.length ↔
          settings.transport.maxBurst ≠ 0)) ∧
      (settings.transport.maxBurst ≠ 0 → ∀ times, c.pacer.queue.length ≤ times.length →
        (c.rounds times).pacer.queue = []) ∧
      (settings.transport.maxBurst = 0 → ∀ times,
        (c.rounds times).pacer.queue = c.pacer.queue) := by
  refine ⟨fun acts hacts c hc => ?_, fun c hburst hopen hroom => ?_⟩
  · have hstart : (started settings store).server.Upholds settings.transport.maxBurst.toNat
        settings.transport.maxFramePayload.toNat
        (·.pacer.burst = settings.transport.maxBurst.toNat) :=
      ⟨rfl, rfl, List.forall_mem_nil _⟩
    exact (upholds_run (Connection.isLasting_burst _ _) hstart hacts).connections c hc
  · have hready : c.IsReady := ⟨hopen, hroom⟩
    have hzero : c.pacer.burst = 0 ↔ settings.transport.maxBurst = 0 := by
      rw [hburst, ← UInt64.toNat_inj]
      rfl
    refine ⟨fun hqueue now => ⟨fun hless hnone => ?_, fun hsome => ?_⟩, fun hsome times htimes => ?_,
      fun hnone => Connection.queue_rounds_of_burst_zero (hzero.mpr hnone)⟩
    · rw [Connection.flush_of_burst_zero (hzero.mpr hnone)] at hless
      exact Nat.lt_irrefl _ hless
    · exact Connection.length_flush_lt hready (mt hzero.mp hsome) hqueue now
    · exact Connection.queue_rounds hready (mt hzero.mp hsome) htimes

/-- A client signs on, and a scene is queued that greets it. -/
def arrival : List Act :=
  [.step .comeUp, .step (.frame 0 ((ClientMessage.signOn "Ann").frame 16 0))]

theorem isOwn_arrival (limit : Nat) : ∀ a ∈ arrival, a.IsOwn limit := by
  simp [arrival, Act.IsOwn]

/-- With the settings that hold where nothing else is said, the scene leaves. -/
theorem bursts_progress_greeting :
    (∀ a ∈ arrival, a.IsOwn 119) ∧
    ∃ c ∈ (run (started (.default "data") (.memory .empty)) arrival).server.connections,
      c.isClosed = false ∧ c.outbound.room ≠ 0 ∧ c.pacer.queue ≠ [] ∧
      (c.rounds (List.replicate c.pacer.queue.length 0)).pacer.queue = [] := by
  have hacts := isOwn_arrival 119
  obtain ⟨c, hc, hopen, hroom, hqueue⟩ : ∃ c ∈ (run (started (.default "data") (.memory .empty))
      arrival).server.connections, c.isClosed = false ∧ c.outbound.room ≠ 0 ∧ c.pacer.queue ≠ [] := by
    decide +kernel
  have hprogress := bursts_progress (.default "data") (.memory .empty)
  have hburst := hprogress.1 arrival hacts c hc
  have hempty := (hprogress.2 c hburst hopen hroom).2.1 (by decide)
    (List.replicate c.pacer.queue.length 0) (by rw [List.length_replicate])
  exact ⟨hacts, c, hc, hopen, hroom, hqueue, hempty⟩

/-- If the settings allow bursts of no chunks only, it never leaves. -/
theorem greeting_stalls :
    let settings := { Settings.default "data" with transport := ⟨0, 119, 32⟩ }
    ∃ c ∈ (run (started settings (.memory .empty)) arrival).server.connections,
      c.pacer.burst = settings.transport.maxBurst.toNat ∧ c.isClosed = false ∧
      c.outbound.room ≠ 0 ∧ c.pacer.queue ≠ [] ∧ ∀ now, c.flush now = (c, 0) := by
  intro settings
  obtain ⟨c, hc, hburst, hopen, hroom, hqueue⟩ : ∃ c ∈ (run (started settings (.memory .empty))
      arrival).server.connections, c.pacer.burst = 0 ∧ c.isClosed = false ∧
        c.outbound.room ≠ 0 ∧ c.pacer.queue ≠ [] := by
    decide +kernel
  exact ⟨c, hc, hburst, hopen, hroom, hqueue, Connection.flush_of_burst_zero hburst⟩

end Traffic

end Switchboard
