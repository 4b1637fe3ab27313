import Switchboard.Proofs.Transfer.Initiation
import Switchboard.Proofs.Transfer.Operation

/-!
# Steps of a download

What an operation does to the download of a connection and what it queues for it.  `DownloadStep` lists
all that can happen: a download begins, the client accepts it and all of its segments are queued, the
client says that it has stored them, or nothing of this kind.

Main results:

* `Operation.downloadStep`: every operation makes one of these steps.
* `Operation.downloadChange`: every operation makes one of the changes that the slot for downloads
  allows.
-/

namespace Switchboard

/-- Whether a chunk carries a part of a file that is being served, or says that it ends. -/
def Chunk.IsSegment (chunk : Chunk) : Prop :=
  chunk.token = .downloadData ∨ chunk.token = .downloadEnd

instance (chunk : Chunk) : Decidable chunk.IsSegment :=
  inferInstanceAs (Decidable (_ ∨ _))

theorem Chunk.not_isSegment_of_stream {chunk : Chunk} (h : chunk.token = .stream) :
    ¬chunk.IsSegment := by
  rw [IsSegment, h]
  decide

/-- A notice carries no part of a file. -/
theorem Connection.Notified.exists_enqueue {before after : Connection} (h : Notified before after) :
    ∃ notices, after.pacer = before.pacer.enqueue notices ∧
      ∀ chunk ∈ notices, ¬chunk.IsSegment := by
  obtain ⟨notices, hqueued, htoken⟩ := h
  exact ⟨notices, hqueued.pacer_eq, fun chunk hmem =>
    Chunk.not_isSegment_of_stream (htoken chunk hmem)⟩

-- ---------------------------------------------------------------------------
-- Slots in which nothing new happens
-- ---------------------------------------------------------------------------

namespace Slot

/-- A slot that remembers no other transfer as completed than before. -/
def KeepsLast (before after : Slot) : Prop :=
  ∀ state, after.last = some state → state.status = .completed → before.last = some state

/-- A slot whose transfer is the same, except that activity may have been noted on it, or is gone. -/
structure Lingers (now : Nat) (before after : Slot) : Prop where
  active : after.active = before.active ∨ after.active = none ∨
    ∃ a, before.active = some a ∧ a.state.status = .streaming ∧
      after.active = some { a with state := { a.state with lastActivity := now } }
  last : KeepsLast before after

variable {before mid after slot : Slot} {now timeout : Nat}

theorem Lingers.refl (slot : Slot) : Lingers now slot slot :=
  ⟨.inl rfl, fun _ h _ => h⟩

/-- Calling off a transfer does not complete it. -/
theorem lingers_cancel (slot : Slot) : Lingers now slot (slot.finish .cancelled).1 := by
  refine ⟨.inr (.inl (slot.active_finish _)), fun state hlast hstatus => ?_⟩
  unfold finish at hlast
  split at hlast
  · exact hlast
  · cases hlast
    cases hstatus

theorem lingers_touch (slot : Slot) (id : UInt32) : Lingers now slot (slot.touch now id).1 := by
  unfold touch
  split
  · next a hactive =>
    split
    · next h => exact ⟨.inr (.inr ⟨a, hactive, h.2, rfl⟩), fun _ hlast _ => hlast⟩
    · exact .refl slot
  · exact .refl slot

theorem active_of_expire {a : ActiveTransfer} (h : (slot.expire now timeout).1.active = some a) :
    slot.active = some a := by
  rcases slot.active_expire_or now timeout with hsame | hnone
  · rw [← hsame, h]
  · cases hnone.symm.trans h

/-- Expiry does not complete a transfer. -/
theorem keepsLast_expire (slot : Slot) (now timeout : Nat) :
    slot.KeepsLast (slot.expire now timeout).1 := by
  intro state hlast hstatus
  unfold expire fail at hlast
  split at hlast
  · split at hlast
    · exact hlast
    · cases hlast
      cases hstatus
  · exact hlast

theorem KeepsLast.trans (h : before.KeepsLast mid) (h' : mid.KeepsLast after) :
    before.KeepsLast after :=
  fun state hlast hstatus => h state (h' state hlast hstatus) hstatus

theorem Lingers.of_expired (h : Lingers now (slot.expire now timeout).1 after) :
    Lingers now slot after := by
  refine ⟨?_, (slot.keepsLast_expire now timeout).trans h.last⟩
  rcases h.active with hsame | hnone | ⟨a, hactive, hstatus, htouched⟩
  · rw [hsame]
    exact (slot.active_expire_or now timeout).imp_right .inl
  · exact .inr (.inl hnone)
  · exact .inr (.inr ⟨a, active_of_expire hactive, hstatus, htouched⟩)

end Slot

-- ---------------------------------------------------------------------------
-- Steps
-- ---------------------------------------------------------------------------

namespace Transfers

/-- What the answer to an operation tells of a download. -/
inductive Mark where
  | begun (id : UInt32) (data : Bytes)
  | accepted (id : UInt32)
  | confirmed (id : UInt32)
  deriving DecidableEq

/-- The download that a mark is about. -/
def Mark.id : Mark → UInt32
  | begun id _ | accepted id | confirmed id => id

/-- What the answer to an operation tells of a download, if it does: that one was begun, or that a
message from the client was taken. -/
def Operation.mark? (op : Operation) (answer : Except TransferError (Option TransferState)) :
    Option Mark :=
  match op, answer with
  | initiateDownload _ data, .ok (some state) => some (.begun state.id data)
  | handle (.downloadAck id), .ok (some _) => some (.accepted id)
  | handle (.downloadConfirm id), .ok (some _) => some (.confirmed id)
  | _, _ => none

/-- Whether an operation leaves it to the transfers to queue parts of files. -/
def Operation.IsPlain : Operation → Prop
  | send chunks => ∀ chunk ∈ chunks, ¬chunk.IsSegment
  | _ => True

/-- What an operation can do to the slot for downloads, with what its answer tells and with the chunks
that it queues. -/
inductive DownloadStep (service next : TransferService) (now : Nat) (before after : Slot) :
    Option Mark → List Chunk → Prop where
  | quiet {queued : List Chunk} (plain : ∀ chunk ∈ queued, ¬chunk.IsSegment)
      (lingers : before.Lingers now after) :
      DownloadStep service next now before after none queued
  | begun {filename : String} {data : Bytes} {queued : List Chunk}
      (plain : ∀ chunk ∈ queued, ¬chunk.IsSegment) (valid : checkName filename = .ok ())
      (fits : data.length ≤ min service.limits.maxFileSize (UInt32.size - 1))
      (issued : next.nextId = service.nextId + 1)
      (active : after.active = some
        ⟨{ TransferState.new service.nextId .download filename data.length now with
            status := .awaitingAck },
          .outgoing data⟩)
      (last : before.KeepsLast after) :
      DownloadStep service next now before after (some (.begun service.nextId data)) queued
  | accepted {a : ActiveTransfer} {data : Bytes} {streamId : UInt16} {notices : List Chunk}
      (plain : ∀ chunk ∈ notices, ¬chunk.IsSegment) (there : before.active = some a)
      (status : a.state.status = .awaitingAck) (cargo : a.cargo = .outgoing data)
      (active : after.active = some { a with state := { a.state with
        status := .streaming, offset := a.state.size, lastActivity := now } })
      (last : before.KeepsLast after) :
      DownloadStep service next now before after (some (.accepted a.state.id))
        (notices ++ downloadChunks service.limits.framePayload streamId a.state.id data)
  | confirmed {a : ActiveTransfer} {queued : List Chunk}
      (plain : ∀ chunk ∈ queued, ¬chunk.IsSegment) (there : before.active = some a)
      (status : a.state.status = .streaming) (active : after.active = none)
      (last : after.last = some { a.state with status := .completed }) :
      DownloadStep service next now before after (some (.confirmed a.state.id)) queued

variable {service next : TransferService} {c swept final : Connection} {now timeout : Nat}
  {slot before after : Slot} {mark : Option Mark} {queued notices : List Chunk}

/-- What is idle may expire before, and the client may be told so. -/
theorem DownloadStep.of_expired
    (h : DownloadStep service next now (slot.expire now timeout).1 after mark queued)
    (hnotices : ∀ chunk ∈ notices, ¬chunk.IsSegment) :
    DownloadStep service next now slot after mark (notices ++ queued) := by
  have hlast := slot.keepsLast_expire now timeout
  cases h with
  | quiet hplain hlingers =>
    exact .quiet (List.forall_mem_append.mpr ⟨hnotices, hplain⟩) hlingers.of_expired
  | begun hplain hvalid hfits hissued hactive hkept =>
    exact .begun (List.forall_mem_append.mpr ⟨hnotices, hplain⟩) hvalid hfits hissued hactive
      (hlast.trans hkept)
  | accepted hplain hthere hstatus hcargo hactive hkept =>
    rw [← List.append_assoc]
    exact .accepted (List.forall_mem_append.mpr ⟨hnotices, hplain⟩)
      (Slot.active_of_expire hthere) hstatus hcargo hactive (hlast.trans hkept)
  | confirmed hplain hthere hstatus hactive hended =>
    exact .confirmed (List.forall_mem_append.mpr ⟨hnotices, hplain⟩)
      (Slot.active_of_expire hthere) hstatus hactive hended

/-- A step of the download of a connection, with the chunks handed to its queue. -/
def Steps (service next : TransferService) (now : Nat) (mark : Option Mark)
    (before after : Connection) : Prop :=
  ∃ queued, after.pacer = before.pacer.enqueue queued ∧
    DownloadStep service next now before.transfers.download after.transfers.download mark queued

/-- An operation that sweeps first makes one step. -/
theorem Steps.of_swept (limits : TransferLimits)
    (h : Steps service next now mark (c.sweep limits now).1 final) :
    Steps service next now mark c final := by
  obtain ⟨queued, hpacer, hstep⟩ := h
  obtain ⟨notices, hswept, hplain⟩ := (c.notified_sweep limits now).exists_enqueue
  refine ⟨notices ++ queued, ?_, ?_⟩
  · rw [hpacer, hswept]
    exact Pacer.enqueue_append c.pacer notices queued
  · rw [Connection.transfers_sweep] at hstep
    exact hstep.of_expired hplain

/-- Notices leave the download alone. -/
theorem Steps.of_notified {transfers : TransferSlots}
    (h : Connection.Notified { c with transfers } final)
    (hlingers : c.transfers.download.Lingers now transfers.download) :
    Steps service next now none c final := by
  obtain ⟨notices, hpacer, hplain⟩ := h.exists_enqueue
  refine ⟨notices, hpacer, .quiet hplain ?_⟩
  rw [h.told.transfers]
  exact hlingers

/-- Where nothing happens to the download, nothing is told of it. -/
theorem Steps.refl (service next : TransferService) (now : Nat) (c : Connection) :
    Steps service next now none c c :=
  .of_notified (.refl c) (.refl _)

-- ---------------------------------------------------------------------------
-- Messages and initiations
-- ---------------------------------------------------------------------------

theorem Operation.mark?_error (op : Operation) (error : TransferError) : op.mark? (.error error) = none := by
  cases op with
  | handle message => cases message <;> rfl
  | _ => rfl

theorem Operation.mark?_upload {message : ClientMessage} (h : isUploadMessage message = true)
    (answer : Except TransferError (Option TransferState)) :
    Operation.mark? (.handle message) answer = none := by
  cases message <;> first | rfl | cases h

theorem Reply.steps {message : ClientMessage} {other : TransferService}
    {result : Except TransferError TransferState}
    (h : Reply service c now message other final result) (next : TransferService) :
    Steps service next now (Operation.mark? (.handle message) (result.map some)) c final := by
  cases h with
  | unknown => rw [Except.map, Operation.mark?_error]; exact .refl service next now c
  | unexpected => rw [Except.map, Operation.mark?_error]; exact .refl service next now c
  | failed _ _ _ hnotified => rw [Except.map, Operation.mark?_error]; exact .of_notified hnotified (.refl _)
  | unsaid _ _ _ hnotified => rw [Except.map, Operation.mark?_error]; exact .of_notified hnotified (.refl _)
  | moved _ hmove hnotified =>
    rw [Operation.mark?_upload (isUploadMessage_of_move hmove)]
    exact .of_notified hnotified (.refl _)
  | @accepted a data streamId _ htarget hmessage hstatus hcargo hqueued =>
    subst hmessage
    refine ⟨_, hqueued.pacer_eq, ?_⟩
    rw [hqueued.told.transfers]
    exact @DownloadStep.accepted service next now _ _ a data streamId [] (List.forall_mem_nil _)
      htarget.active hstatus hcargo rfl fun _ hlast _ => hlast
  | @ended direction a status _ htarget htransition hterminal =>
    generalize hstatus : a.state.status = earlier at htransition
    have hsubject := htarget.subject
    have hactive := htarget.active
    have hpacer : c.pacer = c.pacer.enqueue [] := (Pacer.enqueue_nil _).symm
    cases htransition with
    | accepted => cases hterminal
    | sized => cases hterminal
    | picked => cases hterminal
    | extended => cases hterminal
    | confirmed id =>
      obtain rfl : id = a.state.id := Option.some.inj hsubject
      refine ⟨[], hpacer, .confirmed (List.forall_mem_nil _) hactive hstatus ?_ ?_⟩
      · exact Slot.active_finish _ _
      · show ((c.transfers.slot .download).finish .completed).1.last = _
        rw [Slot.finish_of_active hactive]
    | cancelled id =>
      refine ⟨[], hpacer, .quiet (List.forall_mem_nil _) ?_⟩
      cases direction with
      | download => exact Slot.lingers_cancel _
      | upload => exact .refl _
    | calledOff => exact ⟨[], hpacer, .quiet (List.forall_mem_nil _) (.refl _)⟩
    | stored => exact ⟨[], hpacer, .quiet (List.forall_mem_nil _) (.refl _)⟩

theorem Operation.mark?_reword (op : Operation) (result : Except TransferError TransferState)
    (f : TransferError → TransferError) :
    op.mark? ((result.mapError f).map some) = op.mark? (result.map some) := by
  cases result with
  | ok state => rfl
  | error error => exact (op.mark?_error _).trans (op.mark?_error error).symm

theorem steps_handle (service : TransferService) (c : Connection) (now : Nat)
    (message : ClientMessage) :
    Steps service (service.handle c now message).1 now
      (Operation.mark? (.handle message) (service.handle c now message).2.2) c
      (service.handle c now message).2.1 := by
  refine .of_swept service.limits ?_
  rcases service.handle_cases c now message with ⟨hsubject, h⟩ | ⟨after, final, result, hreply, h⟩
  · rw [h]
    -- a message about no transfer tells nothing of a download
    have hmark : Operation.mark? (.handle message) (.ok none) = none := by
      cases message <;> rfl
    rw [hmark]
    exact .refl _ _ _ _
  · rw [h, Operation.mark?_reword]
    exact hreply.steps after

theorem steps_initiateDownload (service : TransferService) (c : Connection) (now : Nat)
    (filename : String) (data : Bytes) :
    Steps service (service.initiateDownload c now filename data).1 now
      (Operation.mark? (.initiateDownload filename data)
        ((service.initiateDownload c now filename data).2.2.map some)) c
      (service.initiateDownload c now filename data).2.1 := by
  refine .of_swept service.limits ?_
  rcases service.initiateDownload_cases c now filename data with
    ⟨after, final, error, h, -, hqueued⟩ | ⟨final, state, h, rfl, hnotified, hvalid, hfits⟩
  · rw [h, Except.map, Operation.mark?_error]
    exact .of_notified ⟨[], hqueued, List.forall_mem_nil _⟩ (.refl _)
  · rw [h]
    obtain ⟨notices, hpacer, hplain⟩ := hnotified.exists_enqueue
    refine ⟨notices, hpacer, .begun hplain hvalid hfits rfl ?_ ?_⟩
    · rw [hnotified.told.transfers]
      rfl
    · rw [hnotified.told.transfers]
      exact fun _ hlast _ => hlast

-- ---------------------------------------------------------------------------
-- Every operation
-- ---------------------------------------------------------------------------

namespace Operation

variable (op : Operation) (service : TransferService) (c : Connection) (now : Nat)

/-- The slot for downloads makes one of the steps.  The chunks of the step are those that an open
connection has queued, and they stand behind those that have not left the queue. -/
theorem downloadStep (hplain : op.IsPlain) :
    ∃ queued, DownloadStep service (op.run service c now).1 now c.transfers.download
        (op.run service c now).2.1.transfers.download (op.mark? (op.run service c now).2.2)
        queued ∧
      (c.pacer.closed = false → c.newChunks (op.run service c now).2.1 = queued ∧
        ∃ rest, rest <:+ c.pacer.queue ∧
          (op.run service c now).2.1.pacer.queue = rest ++ queued) := by
  -- what is handed to the queue of an open connection stands behind what was there
  have hsteps {mark : Option Mark} {after : TransferService} {final : Connection}
      (h : Steps service after now mark c final) :
      ∃ queued, DownloadStep service after now c.transfers.download final.transfers.download mark
          queued ∧
        (c.pacer.closed = false → c.newChunks final = queued ∧
          ∃ rest, rest <:+ c.pacer.queue ∧ final.pacer.queue = rest ++ queued) := by
    obtain ⟨queued, hpacer, hstep⟩ := h
    refine ⟨queued, hstep, fun hopen => ⟨Connection.newChunks_of_enqueue hpacer hopen, ?_⟩⟩
    refine ⟨c.pacer.queue, List.suffix_refl _, ?_⟩
    rw [hpacer, Pacer.enqueue, if_neg (Bool.eq_false_iff.mp hopen)]
  -- where the queue only gets shorter, nothing is new
  have hquiet {final : Connection} (hsuffix : final.pacer.queue <:+ c.pacer.queue)
      (hlingers : c.transfers.download.Lingers now final.transfers.download) :
      ∃ queued, DownloadStep service service now c.transfers.download final.transfers.download none
          queued ∧
        (c.pacer.closed = false → c.newChunks final = queued ∧
          ∃ rest, rest <:+ c.pacer.queue ∧ final.pacer.queue = rest ++ queued) := by
    refine ⟨[], .quiet (List.forall_mem_nil _) hlingers, fun _ => ⟨?_, _, hsuffix, ?_⟩⟩
    · exact List.drop_eq_nil_of_le hsuffix.length_le
    · rw [List.append_nil]
  have hsweep : Steps service service now none c (c.sweep service.limits now).1 :=
    .of_swept service.limits (.refl _ _ _ _)
  cases op with
  | initiateDownload filename data => exact hsteps (steps_initiateDownload service c now filename data)
  | initiateUpload =>
    refine hsteps (.of_swept service.limits ?_)
    rcases service.start_cases (c.sweep service.limits now).1 now .upload .awaitingFilePick
      .uploadPicker [] "" 0 (.incoming []) with
      ⟨after, final, error, h, -, hqueued⟩ | ⟨final, state, h, -, hnotified, -⟩
    · rw [run, TransferService.initiateUpload]
      dsimp only
      rw [h]
      exact .of_notified ⟨[], hqueued, List.forall_mem_nil _⟩ (.refl _)
    · rw [run, TransferService.initiateUpload]
      dsimp only
      rw [h]
      exact .of_notified hnotified (.refl _)
  | handle message => exact hsteps (steps_handle service c now message)
  | cancel direction =>
    refine hsteps (.of_swept service.limits ?_)
    refine .of_notified (c.notified_cancelTransfer service.limits now direction) ?_
    cases direction with
    | download => exact Slot.lingers_cancel _
    | upload => exact .refl _
  | sweep => exact hsteps hsweep
  | report => exact hsteps hsweep
  | clearFailed => exact hquiet (List.suffix_refl _) ⟨.inl rfl, fun _ hlast _ => hlast⟩
  | flush =>
    refine hquiet (c.pacer.queue_drain_suffix c.outbound c.pacer.burst) ?_
    show c.transfers.download.Lingers now (c.flush now).1.transfers.download
    rcases c.transfers_flush now with h | ⟨id, h⟩
    · rw [h]
      exact .refl _
    · rw [h]
      exact Slot.lingers_touch _ id
  | close => exact hquiet (List.suffix_refl _) (Slot.lingers_cancel _)
  | send chunks =>
    exact hsteps ⟨chunks, rfl, .quiet hplain (.refl _)⟩
  | receive count => exact hquiet (List.suffix_refl _) (.refl _)
  | setRx seq => exact hquiet (List.suffix_refl _) (.refl _)

end Operation

theorem DownloadStep.change
    (h : DownloadStep service next now before after mark queued) :
    DownloadChange service next now before.active after.active := by
  cases h with
  | quiet _ hlingers =>
    rcases hlingers.active with hsame | hnone | ⟨a, hactive, hstatus, htouched⟩
    · rw [hsame]
      exact .same _
    · rw [hnone]
      exact .ended _
    · rw [hactive, htouched]
      exact .touched hstatus
  | begun _ hvalid hfits hissued hactive =>
    rw [hactive]
    exact .begun _ hvalid hfits hissued
  | accepted _ hthere hstatus _ hactive =>
    rw [hthere, hactive]
    exact .acked hstatus
  | confirmed _ _ _ hactive =>
    rw [hactive]
    exact .ended _

/-- An operation makes one of the changes that the slot for downloads allows. -/
theorem Operation.downloadChange (op : Operation) (service : TransferService) (c : Connection)
    (now : Nat) :
    DownloadChange service (op.run service c now).1 now c.transfers.download.active
      (op.run service c now).2.1.transfers.download.active := by
  -- chunks that others queue do not matter for the slot
  by_cases hplain : op.IsPlain
  · obtain ⟨queued, hstep, -⟩ := op.downloadStep service c now hplain
    exact hstep.change
  · cases op with
    | send chunks => exact .same _
    | _ => exact absurd trivial hplain

end Transfers

end Switchboard
