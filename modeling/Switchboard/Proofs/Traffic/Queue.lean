import Switchboard.Proofs.Dispatch.Operation
import Switchboard.Proofs.Traffic.Size

/-!
# What waits in a queue

Nothing waits in the queue of a connection but what the server has compiled or cut, so every chunk there
is sized as `Chunk.IsSized` says.  Files are cut only with room for a header in frames: a transfer has
to begin before that, and it begins with a scene.

Main result: `Connection.IsSized.run`, every operation keeps the chunks in the queue sized.
-/

namespace Switchboard

open Transfers (Operation)

-- ---------------------------------------------------------------------------
-- Connections
-- ---------------------------------------------------------------------------

/-- An operation that queues nothing but chunks of scripts, if it queues chunks given to it. -/
def Transfers.Operation.IsOwn (limit : Nat) : Operation → Prop
  | send chunks => ∃ (script : Script) (streamId : UInt16) (label : String),
      script.compile limit streamId label = .ok chunks
  | _ => True

namespace Connection

/-- A connection whose queue holds sized chunks, and which has begun transfers only with room for a
header in frames. -/
structure IsSized (limit : Nat) (c : Connection) : Prop where
  queue : ∀ chunk ∈ c.pacer.queue, chunk.IsSized limit
  room : c.IsBusy → Script.FitsFrames limit

variable {limit now : Nat} {c after : Connection} {chunks : List Chunk}

namespace IsSized

/-- A new connection has nothing queued, and no transfers. -/
theorem new (limit : Nat) (id : UInt64) (screenName : String) (profile : ClientProfile)
    (outbound : Channel) (burst : Nat) (rx : UInt8) :
    ((Connection.new id screenName profile outbound burst).setRx rx).IsSized limit := by
  refine ⟨List.forall_mem_nil _, ?_⟩
  rintro ⟨direction, id, a, ha, -⟩
  cases direction <;> cases ha

theorem enqueue (h : c.IsSized limit) (hpacer : after.pacer = c.pacer.enqueue chunks)
    (hchunks : ∀ chunk ∈ chunks, chunk.IsSized limit)
    (hroom : after.IsBusy → Script.FitsFrames limit) : after.IsSized limit := by
  refine ⟨?_, hroom⟩
  rw [hpacer, Pacer.enqueue]
  split
  · exact h.queue
  · exact List.forall_mem_append.mpr ⟨h.queue, hchunks⟩

theorem send (h : c.IsSized limit) (hchunks : ∀ chunk ∈ chunks, chunk.IsSized limit) :
    (c.send chunks).IsSized limit :=
  h.enqueue rfl hchunks h.room

/-- Compiled chunks may be queued. -/
theorem send_compiled (h : c.IsSized limit) {script : Script} {streamId : UInt16} {label : String}
    (hchunks : script.compile limit streamId label = .ok chunks) : (c.send chunks).IsSized limit :=
  h.send fun chunk hmem => .inl (Script.payloadLength_of_compile hchunks chunk hmem)

theorem takeStreamId (h : c.IsSized limit) : c.takeStreamId.1.IsSized limit :=
  ⟨h.queue, h.room⟩

theorem flush (h : c.IsSized limit) (now : Nat) : (c.flush now).1.IsSized limit :=
  ⟨fun chunk hmem => h.queue chunk
      ((c.pacer.queue_drain_suffix c.outbound c.pacer.burst).subset hmem),
    fun ⟨direction, id, hholds⟩ => h.room ⟨direction, id, holds_of_flush hholds⟩⟩

theorem close (h : c.IsSized limit) : c.close.IsSized limit :=
  ⟨h.queue, fun ⟨direction, _, hholds⟩ =>
    absurd hholds (not_holds_of_active (c.isFree_close direction))⟩

theorem sendControl (h : c.IsSized limit) (kind : FrameKind) (payload : Bytes) :
    (c.sendControl kind payload).1.IsSized limit := by
  unfold Connection.sendControl
  split
  · exact h
  · split
    · exact h
    · split
      · exact ⟨h.queue, h.room⟩
      · exact h

/-- Dispatches may be queued; a file only if there is room for a header. -/
theorem dispatched {ds : List Dispatch} (h : c.IsSized limit) (hds : Dispatched limit ds c after)
    (hfiles : ∀ d ∈ ds, d.isScene = false → Script.FitsFrames limit)
    (hroom : after.IsBusy → Script.FitsFrames limit) : after.IsSized limit := by
  obtain ⟨batches, hcarried, hpacer⟩ := hds
  refine h.enqueue hpacer (fun chunk hmem => ?_) hroom
  obtain ⟨batch, hbatch, hchunk⟩ := List.mem_flatten.mp hmem
  obtain ⟨d, hd, hbatch⟩ := Dispatch.exists_of_mem_batches hcarried hbatch
  exact Dispatch.isSized_of_carriedBy hbatch (hfiles d hd) chunk hchunk

/-- The notices of a sweep may be queued. -/
theorem sweep {limits : TransferLimits} (h : c.IsSized limits.framePayload) (now : Nat) :
    (c.sweep limits now).1.IsSized limits.framePayload := by
  refine h.dispatched (c.dispatched_sweep limits now) (fun d hd hfile => ?_)
    fun ⟨direction, id, hholds⟩ => h.room ⟨direction, id, holds_of_sweep hholds⟩
  obtain ⟨state, -, hd⟩ := List.mem_flatMap.mp hd
  rw [TransferState.notices, Dispatch.notices] at hd
  split at hd
  · rw [List.mem_singleton.mp hd] at hfile
    cases hfile
  · cases hd

/-- Every operation keeps the chunks in the queue sized. -/
theorem run {service : TransferService} (h : c.IsSized service.limits.framePayload) (op : Operation)
    (hop : op.IsOwn service.limits.framePayload) (now : Nat) :
    (op.run service c now).2.1.IsSized service.limits.framePayload := by
  have hroom (hbusy : (op.run service c now).2.1.IsBusy) :
      Script.FitsFrames service.limits.framePayload :=
    (op.isBusy_run hbusy).elim h.room fun hframes => hframes
  by_cases hsweeps : op.sweeps = true
  · have hswept := h.sweep now
    obtain ⟨ended, ds, heffect⟩ := Operation.effect hsweeps service c now
    refine hswept.dispatched heffect.dispatched (fun d hd hfile => ?_) hroom
    -- a file is that of a download under way
    have hserved := heffect.served d hd
    cases d with
    | file id data =>
      obtain ⟨a, ha, -⟩ := hserved
      exact hswept.room ⟨.download, a.state.id, a, ha, rfl⟩
    | _ => cases hfile
  · cases op with
    | initiateDownload | initiateUpload | handle | cancel | sweep | report =>
      exact absurd rfl hsweeps
    | flush => exact h.flush now
    | send chunks =>
      obtain ⟨script, streamId, label, hcompile⟩ := hop
      exact h.send_compiled hcompile
    | clearFailed | close | receive | setRx => exact ⟨h.queue, hroom⟩

end IsSized

end Connection

end Switchboard
