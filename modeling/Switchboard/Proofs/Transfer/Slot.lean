import Switchboard.Proofs.Connection
import Switchboard.Proofs.Storage.Store

/-!
# Steps within a slot

What a message can do to the transfer in a slot: end it, or move it on.  `Transition` lists the steps
from one status to another that messages make, and `UploadMove` the ways in which an upload moves on,
each with the conditions that are checked.

Main results:

* `Slot.outcome_decidePicked`, `Slot.outcome_decideStats` and `Slot.outcome_decideData`: what the
  decisions about an upload come to.
* `Slot.decideEnd_cases`: what the end of an upload comes to.
* `Slot.store_decideEnd` and `Slot.decideEnd_of_write`: the write that the end of an upload makes, if it
  makes one, and what the upload comes to.
-/

namespace Switchboard

namespace Slot

-- ---------------------------------------------------------------------------
-- Ending transfers
-- ---------------------------------------------------------------------------

@[simp]
theorem active_fail (slot : Slot) (reason : FailureReason) : (slot.fail reason).1.active = none := by
  unfold fail
  split
  · next h => exact h
  · rfl

@[simp]
theorem active_finish (slot : Slot) (status : TransferStatus) :
    (slot.finish status).1.active = none := by
  unfold finish
  split
  · next h => exact h
  · rfl

theorem fail_of_active {slot : Slot} {active : ActiveTransfer} (h : slot.active = some active)
    (reason : FailureReason) :
    slot.fail reason =
      let failed := { active.state with status := .failed, failure := some reason }
      (⟨none, some failed, remember slot.failed failed⟩, some failed) := by
  rw [fail, h]

theorem finish_of_active {slot : Slot} {active : ActiveTransfer} (h : slot.active = some active)
    (status : TransferStatus) :
    slot.finish status =
      ({ slot with active := none, last := some { active.state with status } },
        some { active.state with status }) := by
  rw [finish, h]

/-- Expiry ends a transfer that has been idle, and leaves any other alone. -/
theorem active_expire (slot : Slot) (now timeout : Nat) :
    (slot.expire now timeout).1.active = if slot.isIdle now timeout then none else slot.active := by
  unfold expire
  split
  · exact slot.active_fail .timeout
  · rfl

theorem active_expire_or (slot : Slot) (now timeout : Nat) :
    (slot.expire now timeout).1.active = slot.active ∨
      (slot.expire now timeout).1.active = none := by
  rw [active_expire]
  split
  · exact .inr rfl
  · exact .inl rfl

end Slot

/-- Sweeping leaves the transfer in a direction or ends it. -/
theorem Connection.active_sweep_or (c : Connection) (limits : TransferLimits) (now : Nat)
    (direction : Direction) :
    ((c.sweep limits now).1.transfers.slot direction).active =
        (c.transfers.slot direction).active ∨
      ((c.sweep limits now).1.transfers.slot direction).active = none := by
  rw [Connection.transfers_sweep]
  cases direction with
  | download => exact c.transfers.download.active_expire_or now limits.timeout
  | upload => exact c.transfers.upload.active_expire_or now limits.timeout

/-- What sweeping has left was there before. -/
theorem Connection.active_before_sweep {c : Connection} {limits : TransferLimits} {now : Nat}
    {a : ActiveTransfer} (direction : Direction)
    (h : ((c.sweep limits now).1.transfers.slot direction).active = some a) :
    (c.transfers.slot direction).active = some a := by
  rcases c.active_sweep_or limits now direction with hsame | hnone
  · exact hsame.symm.trans h
  · cases hnone.symm.trans h

namespace Slot

-- ---------------------------------------------------------------------------
-- Looking at the slot
-- ---------------------------------------------------------------------------

theorem expect_eq_ok_iff {slot : Slot} {id : UInt32} {status : TransferStatus}
    {active : ActiveTransfer} :
    slot.expect id status = .ok active ↔
      slot.active = some active ∧ active.state.id = id ∧ active.state.status = status := by
  unfold expect
  split
  · next h => simp [h]
  · next found h =>
    rw [h, Option.some.injEq]
    split
    · next hid =>
      refine iff_of_false (fun h => nomatch h) ?_
      rintro ⟨rfl, rfl, -⟩
      exact hid rfl
    · next hid =>
      split
      · next hstatus =>
        refine iff_of_false (fun h => nomatch h) ?_
        rintro ⟨rfl, -, rfl⟩
        exact hstatus rfl
      · next hstatus =>
        rw [Except.ok.injEq]
        constructor
        · rintro rfl
          exact ⟨rfl, Decidable.not_not.mp hid, Decidable.not_not.mp hstatus⟩
        · exact fun h => h.1

/-- Why a slot refuses a message about the transfer with the given id: the transfer is not there, or
it has come to another point. -/
inductive Refuses (slot : Slot) (id : UInt32) : TransferError → Prop where
  | unknown (absent : ∀ a, slot.active = some a → a.state.id ≠ id) :
      Refuses slot id (.unknownTransfer id)
  | unexpected {a : ActiveTransfer} (active : slot.active = some a) (named : a.state.id = id) :
      Refuses slot id (.unexpectedState id a.state.status)

theorem refuses_of_expect {slot : Slot} {id : UInt32} {status : TransferStatus}
    {error : TransferError} (h : slot.expect id status = .error error) : slot.Refuses id error := by
  unfold expect at h
  split at h
  · next hnone =>
    cases h
    refine .unknown fun a ha => ?_
    rw [hnone] at ha
    cases ha
  · next found hfound =>
    split at h
    · next hid =>
      cases h
      refine .unknown fun a ha => ?_
      rw [hfound] at ha
      cases ha
      exact hid
    · next hid =>
      split at h
      · cases h
        exact .unexpected hfound (Decidable.not_not.mp hid)
      · cases h

end Slot

-- ---------------------------------------------------------------------------
-- Messages and transfers
-- ---------------------------------------------------------------------------

/-- The id of the transfer that a message is about. -/
def ClientMessage.subject? : ClientMessage → Option UInt32
  | downloadAck id | downloadConfirm id | cancel id | uploadPicked id _ | uploadStats id _
  | uploadData id _ | uploadEnd id => some id
  | signOn _ | other .. => none

/-- Whether a message may be about a transfer in a direction. -/
def ClientMessage.addresses (message : ClientMessage) (direction : Direction) : Bool :=
  match message with
  | downloadAck _ | downloadConfirm _ => direction = .download
  | uploadPicked .. | uploadStats .. | uploadData .. | uploadEnd _ => direction = .upload
  | cancel _ => true
  | signOn _ | other .. => false

/-- The steps from one status to another that messages from the client make. -/
inductive Transition : ClientMessage → Direction → TransferStatus → TransferStatus → Prop where
  | accepted (id : UInt32) : Transition (.downloadAck id) .download .awaitingAck .streaming
  | confirmed (id : UInt32) : Transition (.downloadConfirm id) .download .streaming .completed
  | picked {id : UInt32} {path : String} (named : baseName path ≠ "") :
      Transition (.uploadPicked id path) .upload .awaitingFilePick .awaitingStats
  /-- The client has picked no file. -/
  | calledOff {id : UInt32} {path : String} (unnamed : baseName path = "") :
      Transition (.uploadPicked id path) .upload .awaitingFilePick .cancelled
  | sized (id size : UInt32) : Transition (.uploadStats id size) .upload .awaitingStats .streaming
  | extended (id : UInt32) (data : Bytes) :
      Transition (.uploadData id data) .upload .streaming .streaming
  | stored (id : UInt32) : Transition (.uploadEnd id) .upload .streaming .completed
  | cancelled (id : UInt32) (direction : Direction) (status : TransferStatus) :
      Transition (.cancel id) direction status .cancelled

/-- The reason recorded for an upload that fails with an error. -/
def TransferError.reason? : TransferError → Option FailureReason
  | sizeLimitExceeded limit size => some (.sizeLimitExceeded limit size)
  | shortUpload expected received => some (.shortUpload expected received)
  | storage error => some (.storage error.message)
  | _ => none

-- ---------------------------------------------------------------------------
-- Uploads
-- ---------------------------------------------------------------------------

/-- More bytes of a file that is being received. -/
def Cargo.extend (data : Bytes) : Cargo → Cargo
  | .incoming latest => .incoming (data.reverseAux latest)
  | .outgoing file => .outgoing file

/-- How an upload moves on when a message from the client is accepted. -/
inductive UploadMove (limits : TransferLimits) (now : Nat) :
    ClientMessage → ActiveTransfer → ActiveTransfer → Prop where
  /-- The client has picked a file whose name can be stored. -/
  | picked {a : ActiveTransfer} {path : String} (status : a.state.status = .awaitingFilePick)
      (valid : checkName (baseName path) = .ok ()) :
      UploadMove limits now (.uploadPicked a.state.id path) a
        { a with state := { a.state with
            filename := baseName path, status := .awaitingStats, lastActivity := now } }
  /-- The client has told a size within the limit. -/
  | sized {a : ActiveTransfer} {size : UInt32} (status : a.state.status = .awaitingStats)
      (fits : size.toNat ≤ limits.maxFileSize) :
      UploadMove limits now (.uploadStats a.state.id size) a
        { a with state := { a.state with
            size := size.toNat, status := .streaming, lastActivity := now } }
  /-- The client has sent a piece that keeps to the size. -/
  | extended {a : ActiveTransfer} {data : Bytes} (status : a.state.status = .streaming)
      (fits : a.state.offset + data.length ≤ a.state.size) :
      UploadMove limits now (.uploadData a.state.id data) a
        { a with
          state := { a.state with offset := a.state.offset + data.length, lastActivity := now }
          cargo := a.cargo.extend data }

theorem UploadMove.subject_eq {limits : TransferLimits} {now : Nat} {message : ClientMessage}
    {a next : ActiveTransfer} (h : UploadMove limits now message a next) :
    message.subject? = some a.state.id := by
  cases h <;> rfl

theorem UploadMove.transition {limits : TransferLimits} {now : Nat} {message : ClientMessage}
    {a next : ActiveTransfer} (h : UploadMove limits now message a next) :
    Transition message .upload a.state.status next.state.status := by
  cases h with
  | @picked _ path hstatus hvalid =>
    rw [hstatus]
    -- a name that can be stored is not empty
    refine .picked fun hempty => ?_
    rw [hempty] at hvalid
    cases hvalid
  | sized hstatus =>
    rw [hstatus]
    exact .sized _ _
  | extended hstatus =>
    show Transition _ .upload a.state.status a.state.status
    rw [hstatus]
    exact .extended _ _

/-- An upload that moves on has not ended. -/
theorem UploadMove.isTerminal_eq {limits : TransferLimits} {now : Nat} {message : ClientMessage}
    {a next : ActiveTransfer} (h : UploadMove limits now message a next) :
    next.state.status.isTerminal = false := by
  cases h with
  | picked => rfl
  | sized => rfl
  | extended hstatus =>
    show a.state.status.isTerminal = false
    rw [hstatus]
    rfl

/-- The faults that a message can find in an upload, or that its file meets in the store. -/
inductive UploadFault (limits : TransferLimits) (a : ActiveTransfer) :
    ClientMessage → TransferError → Prop where
  | misnamed {id : UInt32} {path : String} {error : StorageError}
      (invalid : checkName (baseName path) = .error error) :
      UploadFault limits a (.uploadPicked id path) (.storage error)
  | tooLarge {id size : UInt32} (exceeds : limits.maxFileSize < size.toNat) :
      UploadFault limits a (.uploadStats id size)
        (.sizeLimitExceeded limits.maxFileSize size.toNat)
  | overrun {id : UInt32} {data : Bytes}
      (exceeds : a.state.size < a.state.offset + data.length) :
      UploadFault limits a (.uploadData id data)
        (.sizeLimitExceeded a.state.size (a.state.offset + data.length))
  | short {id : UInt32} (differs : a.state.offset ≠ a.state.size) :
      UploadFault limits a (.uploadEnd id) (.shortUpload a.state.size a.state.offset)
  | unwritten (id : UInt32) (error : StorageError) :
      UploadFault limits a (.uploadEnd id) (.storage error)

/-- What a decision about a message comes to: nothing, a failure, the end of the upload, or the next
state of the upload. -/
inductive UploadDecision.Outcome (limits : TransferLimits) (now : Nat) (slot : Slot)
    (message : ClientMessage) : UploadDecision → Prop where
  | refused {id : UInt32} {error : TransferError} (subject : message.subject? = some id)
      (why : slot.Refuses id error) : Outcome limits now slot message (.refuse error)
  | failed {a : ActiveTransfer} {reason : FailureReason} {error : TransferError}
      (subject : message.subject? = some a.state.id) (active : slot.active = some a)
      (why : error.reason? = some reason) (fault : UploadFault limits a message error) :
      Outcome limits now slot message (.fail reason error)
  | ended {a : ActiveTransfer} {status : TransferStatus}
      (subject : message.subject? = some a.state.id) (active : slot.active = some a)
      (transition : Transition message .upload a.state.status status)
      (terminal : status.isTerminal = true) :
      Outcome limits now slot message
        (.proceed (slot.finish status).1 { a.state with status })
  | moved {a next : ActiveTransfer} (active : slot.active = some a)
      (move : UploadMove limits now message a next) :
      Outcome limits now slot message (.proceed { slot with active := some next } next.state)

namespace Slot

variable (slot : Slot) (limits : TransferLimits) (now : Nat) (id : UInt32)

theorem outcome_decidePicked (path : String) :
    (slot.decidePicked now id path).Outcome limits now slot (.uploadPicked id path) := by
  unfold decidePicked
  cases hexpect : slot.expect id .awaitingFilePick with
  | error error => exact .refused rfl (refuses_of_expect hexpect)
  | ok a =>
    -- the upload is there and waits for a file to be picked; an empty path calls it off
    obtain ⟨hactive, rfl, hstatus⟩ := expect_eq_ok_iff.mp hexpect
    dsimp only
    split
    · next hempty =>
      have htransition : Transition (.uploadPicked a.state.id path) .upload a.state.status
          .cancelled := by
        rw [hstatus]
        exact .calledOff (String.isEmpty_iff.mp hempty)
      have hended := @UploadDecision.Outcome.ended limits now _ _ a _ rfl hactive htransition rfl
      rw [finish_of_active hactive] at hended ⊢
      exact hended
    · cases hvalid : checkName (baseName path) with
      | error error => exact .failed rfl hactive rfl (.misnamed hvalid)
      | ok _ => exact .moved hactive (.picked hstatus hvalid)

theorem outcome_decideStats (size : UInt32) :
    (slot.decideStats limits now id size.toNat).Outcome limits now slot (.uploadStats id size) := by
  unfold decideStats
  cases hexpect : slot.expect id .awaitingStats with
  | error error => exact .refused rfl (refuses_of_expect hexpect)
  | ok a =>
    -- the upload waits for the size, which has to keep to the limit
    obtain ⟨hactive, rfl, hstatus⟩ := expect_eq_ok_iff.mp hexpect
    dsimp only
    split
    · next hexceeds => exact .failed rfl hactive rfl (.tooLarge hexceeds)
    · next hfits => exact .moved hactive (.sized hstatus (Nat.le_of_not_lt hfits))

theorem outcome_decideData (data : Bytes) :
    (slot.decideData now id data).Outcome limits now slot (.uploadData id data) := by
  unfold decideData
  cases hexpect : slot.expect id .streaming with
  | error error => exact .refused rfl (refuses_of_expect hexpect)
  | ok a =>
    -- the upload takes pieces, as long as they keep to the size
    obtain ⟨hactive, rfl, hstatus⟩ := expect_eq_ok_iff.mp hexpect
    dsimp only
    split
    · next hexceeds => exact .failed rfl hactive rfl (.overrun hexceeds)
    · next hfits =>
      have hmove : UploadMove limits now (.uploadData a.state.id data) a _ :=
        .extended hstatus (Nat.le_of_not_lt hfits)
      obtain ⟨state, cargo⟩ := a
      cases cargo <;> exact .moved hactive hmove

/-- The end of an upload: it is refused, it fails, or the file is stored. -/
theorem decideEnd_cases (store : Store) (owner : String) :
    (∃ error, slot.Refuses id error ∧
      slot.decideEnd store owner id = (store, .refuse error)) ∨
    (∃ a reason error after, slot.active = some a ∧ a.state.id = id ∧
      error.reason? = some reason ∧ UploadFault limits a (.uploadEnd id) error ∧
      slot.decideEnd store owner id = (after, .fail reason error)) ∨
    ∃ a latest after, slot.active = some a ∧ a.state.id = id ∧ a.state.status = .streaming ∧
      a.state.offset = a.state.size ∧ a.cargo = .incoming latest ∧
      store.write ⟨uploadScope, owner, a.state.filename⟩ latest.reverse = (after, .ok ()) ∧
      slot.decideEnd store owner id =
        (after, .proceed (slot.finish .completed).1 { a.state with status := .completed }) := by
  unfold decideEnd
  cases hexpect : slot.expect id .streaming with
  | error error => exact .inl ⟨error, refuses_of_expect hexpect, rfl⟩
  | ok a =>
    -- the upload takes pieces, and ends only when all of them are there
    obtain ⟨hactive, rfl, hstatus⟩ := expect_eq_ok_iff.mp hexpect
    dsimp only
    split
    · next hdiffers => exact .inr (.inl ⟨a, _, _, store, hactive, rfl, rfl, .short hdiffers, rfl⟩)
    · next hcomplete =>
      cases hcargo : a.cargo with
      | outgoing file => exact .inr (.inl ⟨a, _, _, store, hactive, rfl, rfl, .unwritten _ _, rfl⟩)
      | incoming latest =>
        dsimp only
        cases hwrite : store.write ⟨uploadScope, owner, a.state.filename⟩ latest.reverse with
        | mk after written =>
          cases written with
          | error fault =>
            exact .inr (.inl ⟨a, _, _, after, hactive, rfl, rfl, .unwritten _ _, rfl⟩)
          | ok _ =>
            refine .inr (.inr ⟨a, latest, after, hactive, rfl, hstatus,
              Decidable.not_not.mp hcomplete, hcargo, hwrite, ?_⟩)
            rw [finish_of_active hactive]

-- ---------------------------------------------------------------------------
-- The write at the end of an upload
-- ---------------------------------------------------------------------------

/-- The write that the end of an upload makes: there is one if the upload has the id and all of its
pieces have come. -/
def write? (owner : String) : Option (FileKey × Bytes) :=
  match slot.active with
  | some ⟨state, .incoming latest⟩ =>
    if state.id = id ∧ state.status = .streaming ∧ state.offset = state.size then
      some (⟨uploadScope, owner, state.filename⟩, latest.reverse)
    else none
  | _ => none

variable {slot id} {owner : String} {key : FileKey} {data : Bytes}

theorem write?_eq_some_iff : slot.write? id owner = some (key, data) ↔ ∃ a latest,
    slot.active = some a ∧ a.cargo = .incoming latest ∧ a.state.id = id ∧
      a.state.status = .streaming ∧ a.state.offset = a.state.size ∧
      key = ⟨uploadScope, owner, a.state.filename⟩ ∧ data = latest.reverse := by
  unfold write?
  split
  · next state latest hactive =>
    split
    · next hcomplete =>
      rw [Option.some.injEq, Prod.mk.injEq, hactive]
      constructor
      · rintro ⟨rfl, rfl⟩
        exact ⟨_, latest, rfl, rfl, hcomplete.1, hcomplete.2.1, hcomplete.2.2, rfl, rfl⟩
      · rintro ⟨a, latest', ha, hcargo, -, -, -, rfl, rfl⟩
        cases ha
        cases hcargo
        exact ⟨rfl, rfl⟩
    · next hcomplete =>
      refine iff_of_false (fun h => nomatch h) ?_
      rintro ⟨a, latest', ha, -, hid, hstatus, hoffset, -⟩
      rw [hactive] at ha
      cases ha
      exact hcomplete ⟨hid, hstatus, hoffset⟩
  · next hother =>
    refine iff_of_false (fun h => nomatch h) ?_
    rintro ⟨⟨state, cargo⟩, latest, ha, rfl, -⟩
    exact hother state latest ha

/-- The upload is completed if this write succeeds, and fails otherwise. -/
theorem decideEnd_of_write (store : Store) (h : slot.write? id owner = some (key, data)) :
    ∃ a, slot.active = some a ∧ slot.decideEnd store owner id =
      match store.write key data with
      | (after, .ok _) =>
        (after, .proceed (slot.finish .completed).1 { a.state with status := .completed })
      | (after, .error fault) => (after, .fail (.storage fault.message) (.storage fault)) := by
  obtain ⟨a, latest, hactive, hcargo, hid, hstatus, hoffset, rfl, rfl⟩ := write?_eq_some_iff.mp h
  refine ⟨a, hactive, ?_⟩
  rw [decideEnd, expect_eq_ok_iff.mpr ⟨hactive, hid, hstatus⟩]
  dsimp only
  rw [if_neg (not_not_intro hoffset), hcargo]
  dsimp only
  cases store.write ⟨uploadScope, owner, a.state.filename⟩ latest.reverse with
  | mk after written =>
    cases written with
    | error fault => rfl
    | ok _ => rw [finish_of_active hactive]

/-- The end of an upload reaches the store by this write only. -/
theorem store_decideEnd (store : Store) (owner : String) :
    (slot.decideEnd store owner id).1 = store.written (slot.write? id owner) := by
  cases hwrite : slot.write? id owner with
  | some write =>
    obtain ⟨a, -, h⟩ := decideEnd_of_write store hwrite
    rw [h, Store.written]
    split <;> next hresult => rw [hresult]
  | none =>
    rw [Store.written]
    unfold decideEnd
    cases hexpect : slot.expect id .streaming with
    | error error => rfl
    | ok a =>
      obtain ⟨hactive, hid, hstatus⟩ := expect_eq_ok_iff.mp hexpect
      dsimp only
      split
      · rfl
      · next hcomplete =>
        cases hcargo : a.cargo with
        | outgoing file => rfl
        | incoming latest =>
          -- all pieces are there, so there would have been a write
          have hsome : slot.write? id owner =
              some (⟨uploadScope, owner, a.state.filename⟩, latest.reverse) :=
            write?_eq_some_iff.mpr ⟨a, latest, hactive, hcargo, hid, hstatus,
              Decidable.not_not.mp hcomplete, rfl, rfl⟩
          cases hwrite.symm.trans hsome

end Slot

end Switchboard
