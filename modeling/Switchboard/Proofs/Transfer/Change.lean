import Switchboard.Proofs.Transfer.Download

/-!
# What each operation changes

Main results:

* `Operation.uploadChange`: every operation makes one of the changes that the slot for uploads allows.
* `Operation.service_run`: only the end of an upload reaches the store, and only initiations take
  ids.
* `Operation.continues_run`: a connection stays that of the same client, and only closing closes it.
* `Operation.store_run`: an operation changes the store by the one write that it makes, if it makes one.
* `handle_uploadEnd`: how the end of an upload is answered.
-/

namespace Switchboard

-- ---------------------------------------------------------------------------
-- Messages
-- ---------------------------------------------------------------------------

namespace Transfers

section Replies

variable {service after : TransferService} {c final : Connection} {now : Nat}
  {message : ClientMessage} {result : Except TransferError TransferState}

/-- A reply keeps to one slot. -/
theorem Reply.movedIn (h : Reply service c now message after final result) :
    ∃ direction, Connection.MovedIn direction c final := by
  cases h with
  | unknown => exact ⟨.upload, .of_told .upload (.refl c)⟩
  | unexpected => exact ⟨.upload, .of_told .upload (.refl c)⟩
  | failed _ _ _ hnotified => exact ⟨.upload, _, hnotified.told⟩
  | ended => exact ⟨_, c.movedIn_setSlot _ _⟩
  | moved _ _ hnotified => exact ⟨.upload, _, hnotified.told⟩
  | unsaid _ _ _ hnotified => exact ⟨.upload, _, hnotified.told⟩
  | accepted _ _ _ _ hqueued => exact ⟨.download, _, hqueued.told⟩

/-- Only the end of an upload reaches what all connections share. -/
theorem Reply.service_eq (h : Reply service c now message after final result) :
    after = service ∨ ∃ id store, message = .uploadEnd id ∧ after = { service with store } := by
  cases h with
  | failed _ _ hkept =>
    rcases hkept with ⟨id, hid⟩ | rfl
    · exact .inr ⟨id, _, hid, rfl⟩
    · exact .inl rfl
  | ended _ _ _ hkept =>
    rcases hkept with ⟨id, hid⟩ | rfl
    · exact .inr ⟨id, _, hid, rfl⟩
    · exact .inl rfl
  | _ => exact .inl rfl

/-- No message about an upload moves a download. -/
theorem isUploadMessage_of_transition {before after : TransferStatus}
    (h : Transition message .download before after) : isUploadMessage message = false := by
  cases h <;> rfl

/-- A reply changes the upload as it answers. -/
theorem Reply.uploadChange (h : Reply service c now message after final result)
    (hframes : ∀ a, c.transfers.upload.active = some a →
      Script.FitsFrames service.limits.framePayload) (other : TransferService) :
    UploadChange service other now (acceptedUpload message (result.map some))
      c.transfers.upload.active final.transfers.upload.active := by
  cases h with
  | unknown => exact .same _
  | unexpected => exact .same _
  | @failed a reason _ _ _ _ _ _ hnotified =>
    rw [hnotified.told.transfers]
    show UploadChange _ _ _ none _ (c.transfers.upload.fail reason).1.active
    rw [Slot.active_fail]
    exact .ended none _
  | @ended direction a status _ htarget htransition =>
    cases direction with
    | upload =>
      show UploadChange _ _ _ _ _ (c.transfers.upload.finish status).1.active
      rw [Slot.active_finish]
      exact .ended _ _
    | download =>
      -- no message about an upload ends a download
      show UploadChange _ _ _ (if isUploadMessage message then some message else none) _ _
      rw [isUploadMessage_of_transition htransition]
      exact .same _
  | moved htarget hmove hnotified =>
    rw [hnotified.told.transfers]
    show UploadChange _ _ _ (if isUploadMessage message then some message else none) _ _
    rw [if_pos (isUploadMessage_of_move hmove)]
    have hactive : c.transfers.upload.active = _ := htarget.active
    rw [hactive]
    exact .moved hmove
  | unsaid _ htarget _ _ hno => exact absurd (hframes _ htarget.active) hno
  | accepted htarget hmessage _ _ hqueued =>
    rw [hqueued.told.transfers, hmessage]
    exact .same _

theorem acceptedUpload_reword (message : ClientMessage)
    (result : Except TransferError TransferState) (f : TransferError → TransferError) :
    acceptedUpload message ((result.mapError f).map some) =
      acceptedUpload message (result.map some) := by
  cases result <;> rfl

variable (service c now message)

theorem movedIn_handle :
    ∃ direction, Connection.MovedIn direction (c.sweep service.limits now).1
      (service.handle c now message).2.1 := by
  rcases service.handle_cases c now message with ⟨-, h⟩ | ⟨after, final, result, hreply, h⟩
  · rw [h]
    exact ⟨.upload, .of_told .upload (.refl _)⟩
  · rw [h]
    exact hreply.movedIn

theorem service_handle :
    (service.handle c now message).1 = service ∨
      ∃ id store, message = .uploadEnd id ∧
        (service.handle c now message).1 = { service with store } := by
  rcases service.handle_cases c now message with ⟨-, h⟩ | ⟨after, final, result, hreply, h⟩
  · rw [h]
    exact .inl rfl
  · rw [h]
    exact hreply.service_eq

theorem uploadChange_handle
    (hframes : ∀ a, (c.sweep service.limits now).1.transfers.upload.active = some a →
      Script.FitsFrames service.limits.framePayload) :
    UploadChange service (service.handle c now message).1 now
      (acceptedUpload message (service.handle c now message).2.2)
      (c.sweep service.limits now).1.transfers.upload.active
      (service.handle c now message).2.1.transfers.upload.active := by
  rcases service.handle_cases c now message with ⟨-, h⟩ | ⟨after, final, result, hreply, h⟩
  · rw [h]
    exact .same _
  · rw [h, acceptedUpload_reword]
    exact hreply.uploadChange hframes after

end Replies

end Transfers

namespace Transfers

theorem UploadChange.of_same_or_none {service after : TransferService} {now : Nat}
    {active final : Option ActiveTransfer} (h : final = active ∨ final = none) :
    UploadChange service after now none active final := by
  rcases h with rfl | rfl
  · exact .same final
  · exact .ended none active

-- ---------------------------------------------------------------------------
-- Every operation
-- ---------------------------------------------------------------------------

namespace Operation

variable (op : Operation) (service : TransferService) (c : Connection) (now : Nat)

/-- An operation makes one of the changes that the slot for uploads allows. -/
theorem uploadChange (hframes : ∀ a, c.transfers.upload.active = some a →
      Script.FitsFrames service.limits.framePayload) :
    UploadChange service (op.run service c now).1 now (op.accepted (op.run service c now).2.2)
      c.transfers.upload.active (op.run service c now).2.1.transfers.upload.active := by
  -- most operations sweep first
  have hswept : (c.sweep service.limits now).1.transfers.upload.active =
      c.transfers.upload.active ∨
      (c.sweep service.limits now).1.transfers.upload.active = none :=
    c.active_sweep_or service.limits now .upload
  have hsweptFrames : ∀ a, (c.sweep service.limits now).1.transfers.upload.active = some a →
      Script.FitsFrames service.limits.framePayload := by
    intro a ha
    rcases hswept with h | h
    · exact hframes a (h ▸ ha)
    · rw [h] at ha
      cases ha
  cases op with
  | initiateDownload filename data =>
    refine .of_same_or_none ?_
    have h := service.movedIn_initiateDownload c now filename data
    show (service.initiateDownload c now filename data).2.1.transfers.upload.active = _ ∨ _
    rw [← h.upload] at hswept
    exact hswept
  | initiateUpload =>
    refine UploadChange.of_expired ?_ hswept
    -- the upload is refused, or it begins in its slot under the next id
    rcases service.start_cases (c.sweep service.limits now).1 now .upload .awaitingFilePick
      .uploadPicker [] "" 0 (.incoming []) with
      ⟨after, final, error, h, -, hqueued⟩ | ⟨final, state, h, rfl, hnotified, hfits⟩
    · rw [run, TransferService.initiateUpload]
      dsimp only
      rw [h, hqueued.told.transfers]
      exact .same _
    · rw [run, TransferService.initiateUpload]
      dsimp only
      rw [h, hnotified.told.transfers]
      exact .begun _ hfits rfl
  | handle message => exact (uploadChange_handle service c now message hsweptFrames).of_expired hswept
  | cancel direction =>
    have hcancel := c.active_cancelTransfer service.limits now direction .upload
    exact (UploadChange.of_same_or_none hcancel).of_expired hswept
  | sweep => exact .of_same_or_none hswept
  | report => exact .of_same_or_none hswept
  | clearFailed => exact .same _
  | flush =>
    refine .of_same_or_none (.inl ?_)
    show (c.flush now).1.transfers.upload.active = _
    rcases c.transfers_flush now with h | ⟨id, h⟩
    · rw [h]
    · rw [h]
      rfl
  | close => exact .of_same_or_none (.inr (c.transfers.upload.active_finish .cancelled))
  | send chunks =>
    refine .of_same_or_none (.inl ?_)
    show (c.send chunks).transfers.upload.active = _
    rw [(c.told_send chunks).transfers]
  | receive count => exact .same _
  | setRx seq => exact .same _

/-- What all connections share changes in two ways: an initiation takes an id, and the end of an upload
reaches the store. -/
theorem service_run :
    (op.run service c now).1 = service ∨
      (op.isInitiation = true ∧ (op.run service c now).1 = service.takeId.1) ∨
      ∃ id store, op = .handle (.uploadEnd id) ∧
        (op.run service c now).1 = { service with store } := by
  cases op with
  | initiateDownload filename data =>
    rw [run]
    dsimp only
    rcases service.initiateDownload_cases c now filename data with
      ⟨after, final, error, h, hafter, -⟩ | ⟨final, state, h, -⟩
    · rw [h]
      exact hafter.imp_right fun htaken => .inl ⟨rfl, htaken⟩
    · rw [h]
      exact .inr (.inl ⟨rfl, rfl⟩)
  | initiateUpload =>
    rcases service.service_start (c.sweep service.limits now).1 now .upload .awaitingFilePick
      .uploadPicker [] "" 0 (.incoming []) with h | h
    · exact .inl h
    · exact .inr (.inl ⟨rfl, h⟩)
  | handle message =>
    rcases service_handle service c now message with h | ⟨id, store, rfl, h⟩
    · exact .inl h
    · exact .inr (.inr ⟨id, store, rfl, h⟩)
  | _ => exact .inl rfl

/-- After an operation other than closing it, a connection is still that of the same client, and is to
be hung up if it was before. -/
theorem continues_run (hop : op ≠ .close) : c.Continues (op.run service c now).2.1 := by
  have hswept := c.continues_sweep service.limits now
  cases op with
  | initiateDownload filename data =>
    exact hswept.trans (service.movedIn_initiateDownload c now filename data).continues
  | initiateUpload =>
    exact hswept.trans (service.movedIn_start (c.sweep service.limits now).1 now .upload
      .awaitingFilePick .uploadPicker [] "" 0 (.incoming [])).continues
  | handle message =>
    obtain ⟨direction, hmoved⟩ := movedIn_handle service c now message
    exact hswept.trans hmoved.continues
  | cancel direction =>
    exact hswept.trans (c.movedIn_cancelTransfer service.limits now direction).continues
  | sweep => exact hswept
  | report => exact hswept
  | send chunks => exact (c.told_send chunks).continues
  | clearFailed => exact .of_eq rfl rfl rfl rfl rfl
  | flush =>
    refine ⟨rfl, rfl, rfl, rfl, fun hclosed => ?_⟩
    show (c.pacer.drain c.outbound c.pacer.burst).1.closed = true
    rw [Pacer.drain, if_pos hclosed]
    exact hclosed
  | close => exact absurd rfl hop
  | receive count => exact .of_eq rfl rfl rfl rfl rfl
  | setRx seq => exact .of_eq rfl rfl rfl rfl rfl

/-- Closing a connection apart, it goes on. -/
theorem continues_or_close :
    c.Continues (op.run service c now).2.1 ∨ (op.run service c now).2.1 = c.close := by
  by_cases hop : op = .close
  · subst hop
    exact .inr rfl
  · exact .inl (op.continues_run service c now hop)

/-- What is closed stays closed. -/
theorem closed_run (hclosed : c.pacer.closed = true) :
    (op.run service c now).2.1.pacer.closed = true := by
  rcases op.continues_or_close service c now with h | h
  · exact h.closed hclosed
  · rw [h]
    rfl

end Operation

-- ---------------------------------------------------------------------------
-- Writes
-- ---------------------------------------------------------------------------

/-- The write that an operation makes: at the end of an upload, if all of its pieces have come. -/
def Operation.write? (op : Operation) (service : TransferService) (c : Connection) (now : Nat) :
    Option (FileKey × Bytes) :=
  match op with
  | .handle (.uploadEnd id) =>
    (c.sweep service.limits now).1.transfers.upload.write? id c.identity
  | _ => none

section Writes

variable {service : TransferService} {c : Connection} {now : Nat} {id : UInt32} {key : FileKey}
  {data : Bytes}

/-- What is written is what the upload of the connection holds. -/
theorem Operation.of_write? {op : Operation} (h : op.write? service c now = some (key, data)) :
    ∃ a latest, op = .handle (.uploadEnd a.state.id) ∧ c.transfers.upload.active = some a ∧
      a.cargo = .incoming latest ∧ a.state.status = .streaming ∧ a.state.offset = a.state.size ∧
      key = ⟨uploadScope, c.identity, a.state.filename⟩ ∧ data = latest.reverse := by
  unfold write? at h
  split at h
  · obtain ⟨a, latest, hactive, hcargo, rfl, hstatus, hoffset, hkey, hdata⟩ :=
      Slot.write?_eq_some_iff.mp h
    exact ⟨a, latest, rfl, Connection.active_before_sweep .upload hactive, hcargo, hstatus, hoffset,
      hkey, hdata⟩
  · cases h

variable (service c now id)

theorem apply_uploadEnd : service.apply (c.sweep service.limits now).1 now (.uploadEnd id) = some
    ({ service with
      store := ((c.sweep service.limits now).1.uploadEnd service.limits service.store id).1 },
      ((c.sweep service.limits now).1.uploadEnd service.limits service.store id).2) := rfl

/-- An operation changes the store by the one write that it makes, if it makes one. -/
theorem Operation.store_run (op : Operation) :
    (op.run service c now).1.store = service.store.written (op.write? service c now) := by
  by_cases hend : ∃ id, op = .handle (.uploadEnd id)
  · obtain ⟨id, rfl⟩ := hend
    show (service.handle c now (.uploadEnd id)).1.store = _
    rw [service.handle_of_apply c now (apply_uploadEnd service c now id)]
    show ((c.sweep service.limits now).1.transfers.upload.decideEnd service.store
      (c.sweep service.limits now).1.identity id).1 = _
    rw [Connection.identity_sweep, Slot.store_decideEnd]
    rfl
  · have hnone : op.write? service c now = none := by
      unfold write?
      split
      · next id => exact absurd ⟨id, rfl⟩ hend
      · rfl
    rw [hnone, Store.written]
    rcases op.service_run service c now with hsame | ⟨-, htaken⟩ | ⟨id, store, rfl, -⟩
    · rw [hsame]
    · rw [htaken]
      rfl
    · exact absurd ⟨id, rfl⟩ hend

/-- The end of an upload is answered with an error, or it makes a write that succeeds, and is answered
with the completed upload. -/
theorem handle_uploadEnd :
    (∃ error, (service.handle c now (.uploadEnd id)).2.2 = .error error) ∨
    ∃ a key data after, c.transfers.upload.active = some a ∧
      (Operation.handle (.uploadEnd id)).write? service c now = some (key, data) ∧
      service.store.write key data = (after, .ok ()) ∧
      (service.handle c now (.uploadEnd id)).2.2 =
        .ok (some { a.state with status := .completed }) := by
  rw [service.handle_of_apply c now (apply_uploadEnd service c now id), Connection.uploadEnd]
  dsimp only
  rw [Connection.identity_sweep]
  -- what is decided at the end decides on the answer
  rcases (c.sweep service.limits now).1.transfers.upload.decideEnd_cases service.limits id
    service.store c.identity with ⟨error, -, h⟩ | ⟨a, reason, error, after, hactive, -, -, -, h⟩ |
    ⟨a, latest, after, hactive, hid, hstatus, hcomplete, hcargo, hwrite, h⟩
  · rw [h]
    exact .inl ⟨_, rfl⟩
  · rw [h]
    exact .inl ⟨_, rfl⟩
  · rw [h]
    exact .inr ⟨a, _, _, after, Connection.active_before_sweep .upload hactive,
      Slot.write?_eq_some_iff.mpr ⟨a, latest, hactive, hcargo, hid, hstatus, hcomplete, rfl, rfl⟩,
      hwrite, rfl⟩

variable {service c now id}

/-- A write that succeeds is answered with a completed upload. -/
theorem handle_of_write {after : Store}
    (h : (Operation.handle (.uploadEnd id)).write? service c now = some (key, data))
    (hwrite : service.store.write key data = (after, .ok ())) :
    ∃ state : TransferState, state.status = .completed ∧
      (service.handle c now (.uploadEnd id)).2.2 = .ok (some state) := by
  obtain ⟨a, -, hdecision⟩ := Slot.decideEnd_of_write service.store h
  rw [hwrite] at hdecision
  refine ⟨{ a.state with status := .completed }, rfl, ?_⟩
  rw [service.handle_of_apply c now (apply_uploadEnd service c now id), Connection.uploadEnd]
  dsimp only
  rw [Connection.identity_sweep, hdecision]
  rfl

end Writes

end Transfers

end Switchboard
