import Switchboard.Proofs.Script.RoundTrip
import Switchboard.Transfer.Engine

/-!
# What calls on a connection leave alone

Telling the client something queues chunks behind those that wait and may use up a stream id, and does
nothing else: `Connection.Queued` says so.  Notices and scenes queue streams of atoms only:
`Connection.Notified`.  A step of a transfer may also replace the slot for its direction:
`Connection.MovedIn`.

Main results:

* `Connection.notified_abort` and `Connection.follow_cases`: notices and scenes only tell.
* `Connection.notified_sweep`: sweeping fails what is idle and tells the client.
* `Connection.notified_cancelTransfer`: cancelling ends what is in one slot and tells the client.
-/

namespace Switchboard

-- ---------------------------------------------------------------------------
-- Queueing
-- ---------------------------------------------------------------------------

/-- What a burst leaves in the queue stood at its end. -/
theorem Burst.queue_run_suffix (rx : UInt8) (budget : Nat) (tx : UInt8) (channel : Channel)
    (sent queue : List Chunk) : (run rx budget tx channel sent queue).queue <:+ queue := by
  fun_induction run rx budget tx channel sent queue with
  -- a chunk is dropped or sent, and the burst goes on with the rest
  | case3 =>
    rename_i ih
    exact ih.trans (List.suffix_cons _ _)
  | case4 =>
    rename_i ih
    exact ih.trans (List.suffix_cons _ _)
  | _ => exact List.suffix_refl _

namespace Pacer

theorem enqueue_nil (pacer : Pacer) : pacer.enqueue [] = pacer := by
  unfold enqueue
  split
  · rfl
  · rw [List.append_nil]

theorem enqueue_append (pacer : Pacer) (first second : List Chunk) :
    (pacer.enqueue first).enqueue second = pacer.enqueue (first ++ second) := by
  obtain ⟨burst, queue, tx, rx, closed⟩ := pacer
  cases closed with
  | true => rfl
  | false => simp [enqueue]

/-- A burst takes chunks off the front of the queue only. -/
theorem queue_drain_suffix (pacer : Pacer) (channel : Channel) (budget : Nat) :
    (pacer.drain channel budget).1.queue <:+ pacer.queue := by
  unfold drain
  split
  · exact List.suffix_refl _
  · exact Burst.queue_run_suffix pacer.rx budget pacer.tx channel [] pacer.queue

end Pacer

namespace Connection

/-- A connection after chunks were queued for its client; another stream id may come next. -/
def Queued (chunks : List Chunk) (before after : Connection) : Prop :=
  ∃ nextStream, after = { before with pacer := before.pacer.enqueue chunks, nextStream }

/-- A connection after its client was sent scenes. -/
def Notified (before after : Connection) : Prop :=
  ∃ notices, Queued notices before after ∧ ∀ chunk ∈ notices, chunk.token = .stream

/-- A connection after its client was told something: other chunks may be queued, and another stream
id may come next. -/
def Told (before after : Connection) : Prop :=
  ∃ (queue : List Chunk) (nextStream : UInt16),
    after = { before with pacer := { before.pacer with queue }, nextStream }

/-- The chunks that stand behind all those that were queued before. -/
def newChunks (before after : Connection) : List Chunk :=
  after.pacer.queue.drop before.pacer.queue.length

/-- A connection later on, if nobody has closed it meanwhile: it is still the same client, and what has
been closed stays closed. -/
structure Continues (before after : Connection) : Prop where
  id_eq : after.id = before.id
  screenName_eq : after.screenName = before.screenName
  identity_eq : after.identity = before.identity
  closing_eq : after.closing = before.closing
  closed : before.pacer.closed = true → after.pacer.closed = true

namespace Continues

variable {c before after : Connection}

theorem of_eq (hid : after.id = before.id) (hscreenName : after.screenName = before.screenName)
    (hidentity : after.identity = before.identity) (hclosing : after.closing = before.closing)
    (hclosed : after.pacer.closed = before.pacer.closed) : Continues before after :=
  ⟨hid, hscreenName, hidentity, hclosing, hclosed.trans⟩

theorem refl (c : Connection) : Continues c c :=
  .of_eq rfl rfl rfl rfl rfl

theorem trans (h : Continues c before) (h' : Continues before after) : Continues c after :=
  ⟨h'.id_eq.trans h.id_eq, h'.screenName_eq.trans h.screenName_eq,
    h'.identity_eq.trans h.identity_eq, h'.closing_eq.trans h.closing_eq, h'.closed ∘ h.closed⟩

end Continues

namespace Queued

variable {first second chunks : List Chunk} {c before after : Connection}

theorem refl (c : Connection) : Queued [] c c := by
  refine ⟨c.nextStream, ?_⟩
  rw [Pacer.enqueue_nil]

theorem trans (h : Queued first c before) (h' : Queued second before after) :
    Queued (first ++ second) c after := by
  obtain ⟨nextStream, rfl⟩ := h
  obtain ⟨nextStream', rfl⟩ := h'
  refine ⟨nextStream', ?_⟩
  rw [← Pacer.enqueue_append]

theorem pacer_eq (h : Queued chunks before after) :
    after.pacer = before.pacer.enqueue chunks := by
  obtain ⟨nextStream, rfl⟩ := h
  rfl

theorem told (h : Queued chunks before after) : Told before after := by
  obtain ⟨nextStream, rfl⟩ := h
  unfold Pacer.enqueue
  split
  · exact ⟨before.pacer.queue, nextStream, rfl⟩
  · exact ⟨before.pacer.queue ++ chunks, nextStream, rfl⟩

end Queued

namespace Notified

variable {c before after : Connection}

theorem refl (c : Connection) : Notified c c :=
  ⟨[], .refl c, fun _ hmem => nomatch hmem⟩

theorem trans (h : Notified c before) (h' : Notified before after) : Notified c after := by
  obtain ⟨notices, hqueued, htoken⟩ := h
  obtain ⟨notices', hqueued', htoken'⟩ := h'
  exact ⟨notices ++ notices', hqueued.trans hqueued', List.forall_mem_append.mpr ⟨htoken, htoken'⟩⟩

theorem told (h : Notified before after) : Told before after := by
  obtain ⟨notices, hqueued, -⟩ := h
  exact hqueued.told

end Notified

namespace Told

variable {before after : Connection}

theorem refl (c : Connection) : Told c c :=
  ⟨c.pacer.queue, c.nextStream, rfl⟩

theorem transfers (h : Told before after) : after.transfers = before.transfers := by
  obtain ⟨queue, nextStream, rfl⟩ := h
  rfl

theorem continues (h : Told before after) : Continues before after := by
  obtain ⟨queue, nextStream, rfl⟩ := h
  exact .of_eq rfl rfl rfl rfl rfl

end Told

/-- On an open connection, the chunks queued are the new ones. -/
theorem newChunks_of_enqueue {c after : Connection} {chunks : List Chunk}
    (h : after.pacer = c.pacer.enqueue chunks) (hopen : c.pacer.closed = false) :
    c.newChunks after = chunks := by
  have henqueue : c.pacer.enqueue chunks = { c.pacer with queue := c.pacer.queue ++ chunks } :=
    if_neg (Bool.eq_false_iff.mp hopen)
  rw [newChunks, h, henqueue, List.drop_left]

variable (c : Connection) (limits : TransferLimits) (now framePayload : Nat)

theorem queued_send (chunks : List Chunk) : Queued chunks c (c.send chunks) :=
  ⟨c.nextStream, rfl⟩

theorem queued_takeStreamId : Queued [] c c.takeStreamId.1 := by
  refine ⟨c.takeStreamId.1.nextStream, ?_⟩
  rw [Pacer.enqueue_nil]
  rfl

theorem queued_takeStreamId_send (chunks : List Chunk) :
    Queued chunks c (c.takeStreamId.1.send chunks) :=
  c.queued_takeStreamId.trans (c.takeStreamId.1.queued_send chunks)

theorem told_send (chunks : List Chunk) : Told c (c.send chunks) :=
  (c.queued_send chunks).told

-- ---------------------------------------------------------------------------
-- Scenes and notices
-- ---------------------------------------------------------------------------

/-- Building a scene takes a stream id at most. -/
theorem queued_sceneChunks (scene : Scene) (id : UInt32) (params : List (String × String)) :
    Queued [] c (c.sceneChunks framePayload scene id params).1 := by
  unfold sceneChunks
  dsimp only
  split
  · exact .refl c
  · exact c.queued_takeStreamId

/-- The chunks of a scene travel as a stream of atoms. -/
theorem token_of_sceneChunks {c after : Connection} {framePayload : Nat} {scene : Scene}
    {id : UInt32} {params : List (String × String)} {chunks : List Chunk}
    (h : c.sceneChunks framePayload scene id params = (after, .ok chunks)) :
    ∀ chunk ∈ chunks, chunk.token = .stream := by
  unfold sceneChunks at h
  dsimp only at h
  split at h
  · cases h
  · exact Script.token_of_compile (congrArg Prod.snd h)

/-- Sending a scene that could be built only tells the client something. -/
theorem notified_of_sceneChunks {c after : Connection} {framePayload : Nat} {scene : Scene}
    {id : UInt32} {params : List (String × String)} {chunks : List Chunk}
    (h : c.sceneChunks framePayload scene id params = (after, .ok chunks)) :
    Notified c (after.send chunks) := by
  have hscene := c.queued_sceneChunks framePayload scene id params
  rw [h] at hscene
  exact ⟨[] ++ chunks, hscene.trans (after.queued_send chunks), token_of_sceneChunks h⟩

/-- So does a scene that cannot be built: a stream id is used up. -/
theorem notified_of_sceneChunks_error {c after : Connection} {framePayload : Nat} {scene : Scene}
    {id : UInt32} {params : List (String × String)} {error : CompileError}
    (h : c.sceneChunks framePayload scene id params = (after, .error error)) :
    Notified c after := by
  have hscene := c.queued_sceneChunks framePayload scene id params
  rw [h] at hscene
  exact ⟨[], hscene, fun _ hmem => nomatch hmem⟩

/-- A notice only tells the client something. -/
theorem notified_abort (id : UInt32) (reason : String) :
    Notified c (c.abort framePayload id reason) := by
  unfold abort
  split
  · next heq => exact notified_of_sceneChunks heq
  · next heq => exact notified_of_sceneChunks_error heq

/-- Following up on an upload tells the client something, or shows that the scene cannot be sent. -/
theorem follow_cases (scene : Scene) (state : TransferState) :
    ∃ after, Notified c after ∧
      (c.follow framePayload scene state = (after, .ok state) ∨
        ∃ error, c.follow framePayload scene state = (after, .error (.scene error))) := by
  unfold follow
  split
  · next heq => exact ⟨_, notified_of_sceneChunks heq, .inl rfl⟩
  · next error heq => exact ⟨_, notified_of_sceneChunks_error heq, .inr ⟨error, rfl⟩⟩

theorem notified_abortAll (text : String) (states : List TransferState) :
    Notified c (states.foldl (fun c state => c.abort framePayload state.id text) c) := by
  -- one notice after the other, each to the connection that the last one left
  induction states generalizing c with
  | nil => exact .refl c
  | cons state states ih =>
    exact (c.notified_abort framePayload state.id text).trans (ih _)

/-- Sweeping fails what is idle and tells the client about it. -/
theorem notified_sweep :
    Notified { c with transfers := (c.transfers.expire now limits.timeout).1 }
      (c.sweep limits now).1 :=
  notified_abortAll _ limits.framePayload _ _

@[simp]
theorem transfers_sweep :
    (c.sweep limits now).1.transfers = (c.transfers.expire now limits.timeout).1 :=
  (c.notified_sweep limits now).told.transfers

theorem continues_sweep : Continues c (c.sweep limits now).1 := by
  refine .trans ?_ (c.notified_sweep limits now).told.continues
  exact .of_eq rfl rfl rfl rfl rfl

@[simp]
theorem identity_sweep : (c.sweep limits now).1.identity = c.identity :=
  (c.continues_sweep limits now).identity_eq

/-- Failing an upload takes it out of its slot and tells the client. -/
theorem notified_failUpload (id : UInt32) (reason : FailureReason) :
    Notified (c.setSlot .upload (c.transfers.upload.fail reason).1)
      (c.failUpload framePayload id reason) := by
  rw [failUpload, Slot.fail]
  cases c.transfers.upload.active with
  | none => exact .refl c
  | some active => exact notified_abort _ framePayload id _

-- ---------------------------------------------------------------------------
-- Steps of one transfer
-- ---------------------------------------------------------------------------

/-- A connection after a step of a transfer in a direction: the slot for that direction may differ, and
the client may have been told something. -/
def MovedIn (direction : Direction) (before after : Connection) : Prop :=
  ∃ slot, Told (before.setSlot direction slot) after

namespace MovedIn

variable {direction : Direction} {before mid after : Connection}

theorem of_told (direction : Direction) (h : Told before after) : MovedIn direction before after := by
  refine ⟨before.transfers.slot direction, ?_⟩
  cases direction <;> exact h

theorem continues (h : MovedIn direction before after) : Continues before after := by
  obtain ⟨slot, htold⟩ := h
  refine .trans ?_ htold.continues
  exact .of_eq rfl rfl rfl rfl rfl

theorem upload (h : MovedIn .download before after) :
    after.transfers.upload = before.transfers.upload := by
  obtain ⟨slot, htold⟩ := h
  rw [htold.transfers]
  rfl

theorem download (h : MovedIn .upload before after) :
    after.transfers.download = before.transfers.download := by
  obtain ⟨slot, htold⟩ := h
  rw [htold.transfers]
  rfl

end MovedIn

theorem movedIn_setSlot (direction : Direction) (slot : Slot) :
    MovedIn direction c (c.setSlot direction slot) :=
  ⟨slot, .refl _⟩

/-- A cancellation by the server ends the transfer in a slot, if there is one, and tells the client. -/
theorem notified_cancelTransfer (direction : Direction) :
    Notified ((c.sweep limits now).1.setSlot direction
        (((c.sweep limits now).1.transfers.slot direction).finish .cancelled).1)
      (c.cancelTransfer limits now direction).1 := by
  unfold cancelTransfer
  dsimp only
  generalize (c.sweep limits now).1 = swept
  cases hactive : (swept.transfers.slot direction).active with
  | none =>
    have hfinish : (swept.transfers.slot direction).finish .cancelled =
        (swept.transfers.slot direction, none) := by
      rw [Slot.finish, hactive]
    rw [hfinish]
    cases direction <;> exact .refl swept
  | some a =>
    rw [Slot.finish, hactive]
    exact notified_abort _ limits.framePayload _ _

theorem movedIn_cancelTransfer (direction : Direction) :
    MovedIn direction (c.sweep limits now).1 (c.cancelTransfer limits now direction).1 :=
  ⟨_, (c.notified_cancelTransfer limits now direction).told⟩

end Connection

end Switchboard
