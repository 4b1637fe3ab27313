import Switchboard.Proofs.Transfer.Reply

/-!
# Beginning and calling off transfers

What the server does to the transfers of a connection by itself: it begins them, calls them off and
notes that their segments leave.

Main results:

* `TransferService.start_cases` and `TransferService.initiateDownload_cases`: a new transfer is
  refused, or it takes its slot and the next id.
* `Connection.active_cancelTransfer`: a cancellation leaves what is in a slot or ends it.
* `Connection.transfers_flush`: a burst does no more than note activity.
-/

namespace Switchboard

-- ---------------------------------------------------------------------------
-- Initiations
-- ---------------------------------------------------------------------------

namespace TransferService

variable (service : TransferService) (c : Connection) (now : Nat)

/-- A new transfer is refused, or it takes its slot and the next id. -/
theorem start_cases (direction : Direction) (status : TransferStatus) (scene : Scene)
    (params : List (String × String)) (filename : String) (size : Nat) (cargo : Cargo) :
    (∃ after final error,
      service.start c now direction status scene params filename size cargo =
        (after, final, .error error) ∧
      (after = service ∨ after = service.takeId.1) ∧ Connection.Queued [] c final) ∨
    ∃ final state,
      service.start c now direction status scene params filename size cargo =
        (service.takeId.1, final, .ok state) ∧
      state = { TransferState.new service.nextId direction filename size now with status } ∧
      Connection.Notified (c.setSlot direction
        { c.transfers.slot direction with active := some ⟨state, cargo⟩ }) final ∧
      Script.FitsFrames service.limits.framePayload := by
  have hqueued := c.queued_sceneChunks service.limits.framePayload scene service.nextId params
  unfold start
  split
  · exact .inl ⟨_, _, _, rfl, .inl rfl, .refl c⟩
  · dsimp only [takeId]
    cases hscene : c.sceneChunks service.limits.framePayload scene service.nextId params with
    | mk mid result =>
      rw [hscene] at hqueued
      cases result with
      | error error => exact .inl ⟨_, _, _, rfl, .inr rfl, hqueued⟩
      | ok chunks =>
        have htoken := Connection.token_of_sceneChunks hscene
        have hframes := Connection.fitsFrames_of_sceneChunks hscene
        -- the scene was built for the connection before the slot was set
        obtain ⟨nextStream, rfl⟩ := hqueued
        refine .inr ⟨_, _, rfl, rfl, ⟨chunks, ⟨nextStream, ?_⟩, htoken⟩, hframes⟩
        rw [Pacer.enqueue_nil]
        rfl

theorem service_start (direction : Direction) (status : TransferStatus) (scene : Scene)
    (params : List (String × String)) (filename : String) (size : Nat) (cargo : Cargo) :
    (service.start c now direction status scene params filename size cargo).1 = service ∨
      (service.start c now direction status scene params filename size cargo).1 =
        service.takeId.1 := by
  rcases service.start_cases c now direction status scene params filename size cargo with
    ⟨after, final, error, h, hafter, -⟩ | ⟨final, state, h, -⟩
  · rw [h]
    exact hafter
  · rw [h]
    exact .inr rfl

theorem movedIn_start (direction : Direction) (status : TransferStatus) (scene : Scene)
    (params : List (String × String)) (filename : String) (size : Nat) (cargo : Cargo) :
    Connection.MovedIn direction c
      (service.start c now direction status scene params filename size cargo).2.1 := by
  rcases service.start_cases c now direction status scene params filename size cargo with
    ⟨after, final, error, h, -, hqueued⟩ | ⟨final, state, h, -, hnotified, -⟩
  · rw [h]
    exact .of_told direction hqueued.told
  · rw [h]
    exact ⟨_, hnotified.told⟩

/-- A download is refused after the sweep, or it begins: its name can be stored, and its content keeps
to the limit and can be counted. -/
theorem initiateDownload_cases (filename : String) (data : Bytes) :
    (∃ after final error,
      service.initiateDownload c now filename data = (after, final, .error error) ∧
      (after = service ∨ after = service.takeId.1) ∧
      Connection.Queued [] (c.sweep service.limits now).1 final) ∨
    ∃ final state,
      service.initiateDownload c now filename data = (service.takeId.1, final, .ok state) ∧
      state = { TransferState.new service.nextId .download filename data.length now with
        status := .awaitingAck } ∧
      Connection.Notified ((c.sweep service.limits now).1.setSlot .download
        { (c.sweep service.limits now).1.transfers.download with
          active := some ⟨state, .outgoing data⟩ }) final ∧
      checkName filename = .ok () ∧
      data.length ≤ min service.limits.maxFileSize (UInt32.size - 1) := by
  unfold initiateDownload
  dsimp only
  cases hvalid : checkName filename with
  | error error => exact .inl ⟨_, _, _, rfl, .inl rfl, .refl _⟩
  | ok _ =>
    dsimp only
    split
    · exact .inl ⟨_, _, _, rfl, .inl rfl, .refl _⟩
    · next hfits =>
      -- name and size are fine: the download is still refused, or it begins
      rcases service.start_cases (c.sweep service.limits now).1 now .download .awaitingAck
        .downloadAnnounce [("size", Text.number data.length), ("filename", filename)] filename
        data.length (.outgoing data) with
        hrefused | ⟨final, state, h, hstate, hnotified, -⟩
      · exact .inl hrefused
      · exact .inr ⟨final, state, h, hstate, hnotified, rfl, Nat.le_of_not_lt hfits⟩

theorem movedIn_initiateDownload (filename : String) (data : Bytes) :
    Connection.MovedIn .download (c.sweep service.limits now).1
      (service.initiateDownload c now filename data).2.1 := by
  rcases service.initiateDownload_cases c now filename data with
    ⟨after, final, error, h, -, hqueued⟩ | ⟨final, state, h, -, hnotified, -⟩
  · rw [h]
    exact .of_told .download hqueued.told
  · rw [h]
    exact ⟨_, hnotified.told⟩

end TransferService

-- ---------------------------------------------------------------------------
-- Cancelling and flushing
-- ---------------------------------------------------------------------------

namespace Connection

/-- A cancellation by the server leaves what is in a slot or ends it, after the sweep. -/
theorem active_cancelTransfer (c : Connection) (limits : TransferLimits) (now : Nat)
    (cancelled direction : Direction) :
    ((c.cancelTransfer limits now cancelled).1.transfers.slot direction).active =
        ((c.sweep limits now).1.transfers.slot direction).active ∨
      ((c.cancelTransfer limits now cancelled).1.transfers.slot direction).active = none := by
  rw [(c.notified_cancelTransfer limits now cancelled).told.transfers]
  cases cancelled <;> cases direction
  · exact .inr (Slot.active_finish _ .cancelled)
  · exact .inl rfl
  · exact .inl rfl
  · exact .inr (Slot.active_finish _ .cancelled)

/-- A burst may note activity on the download, and does nothing else to the transfers. -/
theorem transfers_flush (c : Connection) (now : Nat) :
    (c.flush now).1.transfers = c.transfers ∨
      ∃ id, (c.flush now).1.transfers = (c.transfers.touch now .download id).1 := by
  unfold flush
  dsimp only
  split
  · next id _ => exact .inr ⟨id, rfl⟩
  · exact .inl rfl

end Connection

end Switchboard
