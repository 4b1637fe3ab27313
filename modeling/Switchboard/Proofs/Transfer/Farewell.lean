import Switchboard.Proofs.Dispatch.Notice
import Switchboard.Proofs.Dispatch.Operation
import Switchboard.Proofs.Text.Quoted

/-!
# Taking leave of transfers

The server ends a transfer that has been idle for too long, an upload in which it finds a fault, and
what its host cancels.  The operation that does so tells the client, in one notice about that transfer.
The text of a notice has to fit an operand, though, and the text about a file that cannot be stored may
quote the whole name that the client has picked: what cannot be said is not said.

Main results:

* `SlotChange.exists_ending`: what an operation ends in a slot, by expiry or afterwards.
* `ended_transfers_noticed`: the notices that an operation sends are those about the transfers that the
  server has ended in it, as far as they can be said; and only the store can make one that cannot.
* `uploadPicked_of_long`: no file name that is refused for its length is told of.
* `misnamed_upload_unnoticed`: one of them.
-/

namespace Switchboard

-- ---------------------------------------------------------------------------
-- Texts
-- ---------------------------------------------------------------------------

namespace TransferState

/-- Whether what is to be said about a transfer that the server has ended fits an operand. -/
def IsSayable (state : TransferState) : Prop :=
  state.farewell.utf8ByteSize ≤ 255

instance : DecidablePred IsSayable :=
  fun state => inferInstanceAs (Decidable (state.farewell.utf8ByteSize ≤ 255))

/-- What a client is told about a transfer that the server has ended. -/
def notice (state : TransferState) : Notice :=
  ⟨state.id, state.farewell⟩

end TransferState

/-- Of the notices about some transfers those are sent that can be said. -/
theorem filterMap_notices {limit : Nat} (hlimit : Script.FitsFrames limit)
    (states : List TransferState) :
    (states.flatMap (·.notices limit)).filterMap Dispatch.notice? =
      (states.filter (·.IsSayable)).map (·.notice) := by
  induction states with
  | nil => rfl
  | cons state rest ih =>
    rw [List.flatMap_cons, List.filterMap_append, ih, TransferState.notices, Dispatch.notices]
    by_cases hsayable : state.IsSayable
    · rw [if_pos ⟨hlimit, hsayable⟩, List.filter_cons_of_pos (by simpa using hsayable)]
      rfl
    · rw [if_neg fun h => hsayable h.2, List.filter_cons_of_neg (by simpa using hsayable)]
      rfl

theorem filterMap_filter_isNotice (ds : List Dispatch) :
    (ds.filter (·.isNotice)).filterMap Dispatch.notice? = ds.filterMap Dispatch.notice? := by
  rw [List.filterMap_filter]
  refine List.filterMap_congr fun d _ => ?_
  cases d <;> rfl

/-- A name that is too long is refused, and quoted in full. -/
theorem checkName_of_long {name : String} (h : maxNameLength < name.utf8ByteSize) :
    checkName name = .error (.invalidName name) := by
  rw [checkName, if_neg]
  intro hname
  simp only [isFileName, Bool.and_eq_true, decide_eq_true_eq] at hname
  omega

namespace ActiveTransfer.IsUpload

variable {limits : TransferLimits} {a : ActiveTransfer}

/-- The sizes of an upload that is under way keep to the limit. -/
theorem sizes_le (h : a.IsUpload limits) :
    a.state.offset ≤ a.state.size ∧ a.state.size ≤ limits.maxFileSize := by
  rcases h.phase with ⟨-, hsize, hoffset⟩ | ⟨-, hsize, hoffset, -⟩ | ⟨-, hoffset, hsize, -⟩
  · exact ⟨by omega, by omega⟩
  · exact ⟨by omega, by omega⟩
  · exact ⟨hoffset, hsize⟩

end ActiveTransfer.IsUpload

/-- Texts about sizes of up to 64 bits are short. -/
theorem FailureReason.utf8ByteSize_sizes {first second : Nat} (hfirst : first < Nat.pow 10 20)
    (hsecond : second < Nat.pow 10 20) :
    (sizeLimitExceeded first second).message.utf8ByteSize ≤ 240 ∧
      (shortUpload first second).message.utf8ByteSize ≤ 240 := by
  have hfirst := Text.utf8ByteSize_number_le hfirst
  have hsecond := Text.utf8ByteSize_number_le hsecond
  have hexceeds : " bytes exceeds the ".utf8ByteSize = 19 := by decide
  have hlimit : " byte limit".utf8ByteSize = 11 := by decide
  have hreceived : "received ".utf8ByteSize = 9 := by decide
  have hof : " of ".utf8ByteSize = 4 := by decide
  have hbytes : " bytes".utf8ByteSize = 6 := by decide
  constructor
  · simp only [message, String.utf8ByteSize_append]
    omega
  · simp only [message, String.utf8ByteSize_append]
    omega

theorem utf8ByteSize_uploadFailed {text : String} (h : text.utf8ByteSize ≤ 240) :
    ("Upload failed: " ++ text).utf8ByteSize ≤ 255 := by
  have hfailed : "Upload failed: ".utf8ByteSize = 15 := by decide
  rw [String.utf8ByteSize_append]
  omega

/-- Whatever is wrong with an upload can be said, but for what the store finds wrong with it. -/
theorem UploadFault.storage_or_sayable {limits : TransferLimits} {a : ActiveTransfer}
    {message : ClientMessage} {error : TransferError} {reason : FailureReason}
    (h : UploadFault limits a message error) (hwhy : error.reason? = some reason)
    (hupload : a.IsUpload limits) (hlimit : limits.maxFileSize < UInt64.size)
    (hdata : ∀ id data, message = .uploadData id data → data.length < UInt64.size) :
    (∃ fault : StorageError, reason = .storage fault.message) ∨
      ("Upload failed: " ++ reason.message).utf8ByteSize ≤ 255 := by
  have hbound : UInt64.size + UInt64.size < Nat.pow 10 20 := by decide
  obtain ⟨hoffset, hsize⟩ := hupload.sizes_le
  cases h with
  | misnamed => exact .inl ⟨_, (Option.some.inj hwhy).symm⟩
  | unwritten => exact .inl ⟨_, (Option.some.inj hwhy).symm⟩
  | @tooLarge _ size =>
    cases hwhy
    have htold : size.toNat < UInt64.size := Nat.lt_trans size.toNat_lt (by decide)
    refine .inr (utf8ByteSize_uploadFailed (FailureReason.utf8ByteSize_sizes ?_ ?_).1) <;> omega
  | @overrun id data =>
    cases hwhy
    have hpiece := hdata id data rfl
    refine .inr (utf8ByteSize_uploadFailed (FailureReason.utf8ByteSize_sizes ?_ ?_).1) <;> omega
  | short =>
    cases hwhy
    refine .inr (utf8ByteSize_uploadFailed (FailureReason.utf8ByteSize_sizes ?_ ?_).2) <;> omega

namespace Transfers

-- ---------------------------------------------------------------------------
-- What is ended
-- ---------------------------------------------------------------------------

/-- The transfer in a slot that the server has ended by an operation, as the slot remembers it. -/
inductive Ending (op : Operation) (direction : Direction) (before after : Slot) :
    Option TransferState → Prop where
  /-- Nothing has failed, and nothing was cancelled by the host: what was in the slot is still there, or
  the client or a connection that closes has ended it. -/
  | nothing (failed : after.failed = before.failed ∨ op = .clearFailed)
      (left : ∀ a, before.active = some a →
        (∃ b, after.active = some b ∧ b.state.id = a.state.id) ∨
        ∃ status, status ≠ .failed ∧ (op = .close ∨ ∃ message, op = .handle message) ∧
          after.last = some { a.state with status }) :
      Ending op direction before after none
  | failed {a : ActiveTransfer} {reason : FailureReason} {state : TransferState}
      (active : before.active = some a)
      (state_eq : state = { a.state with status := .failed, failure := some reason })
      (last : after.last = some state)
      (remembered : after.failed = Slot.remember before.failed state) :
      Ending op direction before after (some state)
  | cancelled {a : ActiveTransfer} {state : TransferState} (asked : op = .cancel direction)
      (active : before.active = some a) (state_eq : state = { a.state with status := .cancelled })
      (last : after.last = some state) :
      Ending op direction before after (some state)

variable {op : Operation} {service : TransferService} {direction : Direction} {c : Connection}
  {slot after : Slot} {now : Nat} {ended : List TransferState}

/-- A slot that is as it was, but for activity on its transfer. -/
theorem Ending.of_kept (hfailed : after.failed = slot.failed)
    (hactive : ∀ a, slot.active = some a → ∃ b, after.active = some b ∧ b.state.id = a.state.id) :
    Ending op direction slot after none :=
  .nothing (.inl hfailed) fun a ha => .inl (hactive a ha)

theorem Ending.refl (slot : Slot) : Ending op direction slot slot none :=
  .of_kept rfl fun a ha => ⟨a, ha, rfl⟩

/-- What an operation that sweeps first ends in a slot: what the sweep has expired, or what it has ended
afterwards. -/
theorem SlotChange.exists_ending {timeout : Nat}
    (h : SlotChange op service direction (slot.expire now timeout).1 after ended) :
    ∃ state, Ending op direction slot after state ∧
      state.toList = (slot.expire now timeout).2.toList ++ ended := by
  unfold Slot.expire at h ⊢
  split at h
  · next hidle =>
    -- the transfer expires, and the operation finds a free slot
    obtain ⟨a, hactive, -⟩ := Slot.isIdle_iff.mp hidle
    rw [if_pos hidle]
    rw [Slot.fail_of_active hactive] at h ⊢
    obtain ⟨hslot, rfl, -⟩ := h.of_free rfl
    refine ⟨some _, .failed hactive rfl ?_ ?_, rfl⟩
    · exact congrArg Slot.last hslot
    · exact congrArg Slot.failed hslot
  · next hbusy =>
    rw [if_neg hbusy]
    cases h with
    | kept => exact ⟨none, .refl slot, rfl⟩
    | begun _ hfree =>
      refine ⟨none, .of_kept rfl fun a ha => ?_, rfl⟩
      cases hfree.symm.trans ha
    | @moved a next hactive hid =>
      refine ⟨none, .of_kept rfl fun b hb => ⟨next, rfl, ?_⟩, rfl⟩
      cases hactive.symm.trans hb
      exact hid
    | @ended a status message hactive hheard hunfailed =>
      rw [Slot.finish_of_active hactive]
      refine ⟨none, .nothing (.inl rfl) fun b hb => .inr ?_, rfl⟩
      cases hactive.symm.trans hb
      exact ⟨status, hunfailed, .inr ⟨message, hheard⟩, rfl⟩
    | failed hactive =>
      rw [Slot.fail_of_active hactive]
      exact ⟨some _, .failed hactive rfl rfl rfl, rfl⟩
    | cancelled hactive hasked =>
      rw [Slot.finish_of_active hactive]
      exact ⟨some _, .cancelled hasked hactive rfl rfl, rfl⟩

/-- What an operation ends can be said, unless the store has found fault with an upload. -/
theorem SlotChange.sayable_or_storage {slot : Slot}
    (h : SlotChange op service direction slot after ended)
    (hupload : direction = .upload → ∀ a, slot.active = some a → a.IsUpload service.limits)
    (hlimit : service.limits.maxFileSize < UInt64.size)
    (hdata : ∀ id data, op = .handle (.uploadData id data) → data.length < UInt64.size) :
    ∀ state ∈ ended, state.IsSayable ∨
      ∃ fault : StorageError, state.failure = some (.storage fault.message) := by
  cases h with
  | kept | begun | moved | ended => exact List.forall_mem_nil _
  | @failed a message error reason hactive hdirection hheard hwhy hfault =>
    refine List.forall_mem_singleton.mpr ?_
    have hmessage (id : UInt32) (data : Bytes) (h : message = .uploadData id data) :
        data.length < UInt64.size := hdata id data (by rw [hheard, h])
    rcases hfault.storage_or_sayable hwhy (hupload hdirection a hactive) hlimit hmessage with
      ⟨fault, rfl⟩ | hsayable
    · exact .inr ⟨fault, rfl⟩
    · refine .inl ?_
      rw [TransferState.IsSayable, farewell_of_failure rfl rfl (ne_timeout_of_reason hwhy)]
      exact hsayable
  | cancelled =>
    refine List.forall_mem_singleton.mpr (.inl ?_)
    show "Cancelled by host".utf8ByteSize ≤ 255
    decide

theorem Ending.exists_active {state : TransferState}
    (h : Ending op direction slot after (some state)) : ∃ a, slot.active = some a := by
  cases h with
  | failed hactive => exact ⟨_, hactive⟩
  | cancelled _ hactive => exact ⟨_, hactive⟩

theorem Ending.last_eq {state : TransferState}
    (h : Ending op direction slot after (some state)) : after.last = some state := by
  cases h with
  | failed _ _ hlast => exact hlast
  | cancelled _ _ _ hlast => exact hlast

-- ---------------------------------------------------------------------------
-- What is said
-- ---------------------------------------------------------------------------

/-- The notices that an operation sends are those about the transfers that the server has ended in it, as
far as they can be said. -/
structure Noticed (op : Operation) (before after : Connection)
    (ended : Direction → Option TransferState) : Prop where
  endings : ∀ direction, Ending op direction (before.transfers.slot direction)
    (after.transfers.slot direction) (ended direction)
  told : (Notice.among (before.newChunks after)).Perm
    ((((ended .download).toList ++ (ended .upload).toList).filter (·.IsSayable)).map (·.notice))

/-- An operation that ends nothing on behalf of the server and queues nothing. -/
theorem Noticed.of_quiet {final : Connection}
    (hendings : ∀ direction, Ending op direction (c.transfers.slot direction)
      (final.transfers.slot direction) none)
    (hqueue : final.pacer.queue.length ≤ c.pacer.queue.length) :
    Noticed op c final fun _ => none := by
  refine ⟨hendings, ?_⟩
  rw [Connection.newChunks, List.drop_of_length_le hqueue]
  exact .nil

/-- The notices about what has expired come first, and those about what has been ended after that. -/
theorem noticed_of_sweeps (hop : op.sweeps = true) (service : TransferService) (now : Nat)
    (hopen : c.pacer.closed = false)
    (hroom : c.IsBusy → Script.FitsFrames service.limits.framePayload) :
    ∃ ended, Noticed op c (op.run service c now).2.1 ended ∧
      ((∀ a, c.transfers.upload.active = some a → a.IsUpload service.limits) →
        service.limits.maxFileSize < UInt64.size →
        (∀ id data, op = .handle (.uploadData id data) → data.length < UInt64.size) →
        ∀ direction state, ended direction = some state → state.IsSayable ∨
          ∃ fault : StorageError, state.failure = some (.storage fault.message)) := by
  obtain ⟨later, ds, heffect⟩ := Operation.effect hop service c now
  have hslots (direction : Direction) := heffect.slots direction
  simp only [Connection.slot_sweep] at hslots
  choose ended hending hended using fun direction => (hslots direction).exists_ending
  let expired (direction : Direction) : List TransferState :=
    ((c.transfers.slot direction).expire now service.limits.timeout).2.toList
  refine ⟨ended, ⟨hending, ?_⟩, ?_⟩
  · have hsaid := ((c.dispatched_sweep service.limits now).trans heffect.dispatched).notices_eq hopen
    have hswept : (c.sweep service.limits now).2 = expired .download ++ expired .upload := rfl
    rw [List.filterMap_append, ← filterMap_filter_isNotice ds, heffect.notices,
      ← List.filterMap_append, ← List.flatMap_append, hswept] at hsaid
    have horder : ((expired .download ++ expired .upload) ++ (later .download ++ later .upload)).Perm
        ((ended .download).toList ++ (ended .upload).toList) := by
      rw [hended, hended, List.append_assoc, List.append_assoc]
      exact (List.perm_append_comm_assoc _ _ _).append_left _
    rw [hsaid]
    by_cases hbusy : c.IsBusy
    · rw [filterMap_notices (hroom hbusy)]
      exact (horder.filter _).map _
    · -- with nothing under way there is nothing to end
      have hnone (direction : Direction) : ended direction = none := by
        cases hstate : ended direction with
        | none => rfl
        | some state =>
          have hsome := hending direction
          rw [hstate] at hsome
          obtain ⟨a, ha⟩ := hsome.exists_active
          exact absurd (.of_active ha) hbusy
      rw [hnone, hnone] at horder ⊢
      rw [List.Perm.eq_nil horder]
      exact .nil
  · intro hupload hlimit hdata direction state hstate
    have hmem : state ∈ expired direction ++ later direction := by
      rw [← hended direction, hstate]
      exact List.mem_singleton.mpr rfl
    rcases List.mem_append.mp hmem with hexpired | hlater
    · refine .inl ?_
      rw [TransferState.IsSayable, Connection.farewell_of_mem_expire now hexpired]
      decide
    · refine (heffect.slots direction).sayable_or_storage ?_ hlimit hdata state hlater
      rintro rfl a ha
      exact hupload a (Connection.active_of_sweep ha).1

/-- A burst ends nothing. -/
theorem ending_flush (c : Connection) (now : Nat) (direction : Direction) :
    Ending .flush direction (c.transfers.slot direction) ((c.flush now).1.transfers.slot direction)
      none := by
  rcases c.transfers_flush now with hsame | ⟨id, htouched⟩
  · rw [hsame]
    exact .refl _
  · rw [htouched]
    cases direction with
    | upload => exact .refl _
    | download =>
      show Ending .flush .download c.transfers.download (c.transfers.download.touch now id).1 none
      unfold Slot.touch
      split
      · next a ha =>
        split
        · refine .of_kept rfl fun b hb => ⟨_, rfl, ?_⟩
          cases ha.symm.trans hb
          rfl
        · exact .refl _
      · exact .refl _

/-- The other operations send no notices, and the server ends nothing in them. -/
theorem noticed_of_not_sweeps (hop : ¬op.sweeps = true) (hsend : ∀ chunks, op ≠ .send chunks)
    (service : TransferService) (c : Connection) (now : Nat) :
    Noticed op c (op.run service c now).2.1 fun _ => none := by
  cases op with
  | initiateDownload | initiateUpload | handle | cancel | sweep | report => exact absurd rfl hop
  | send chunks => exact absurd rfl (hsend chunks)
  | clearFailed =>
    refine .of_quiet (fun direction => .nothing (.inr rfl) fun a ha => .inl ⟨a, ?_, rfl⟩)
      (Nat.le_refl _)
    cases direction <;> exact ha
  | flush =>
    exact .of_quiet (ending_flush c now)
      (c.pacer.queue_drain_suffix c.outbound c.pacer.burst).length_le
  | close =>
    refine .of_quiet (fun direction => ?_) (Nat.le_refl _)
    have hslot : c.close.transfers.slot direction =
        ((c.transfers.slot direction).finish .cancelled).1 := by
      cases direction <;> rfl
    show Ending .close direction (c.transfers.slot direction) (c.close.transfers.slot direction) none
    rw [hslot]
    cases hactive : (c.transfers.slot direction).active with
    | none =>
      rw [Slot.finish, hactive]
      exact .refl _
    | some a =>
      rw [Slot.finish_of_active hactive]
      refine .nothing (.inl rfl) fun b hb => .inr ⟨.cancelled, by decide, .inl rfl, ?_⟩
      cases hactive.symm.trans hb
      rfl
  | receive count => exact .of_quiet (fun _ => .refl _) (Nat.le_refl _)
  | setRx seq => exact .of_quiet (fun _ => .refl _) (Nat.le_refl _)

-- ---------------------------------------------------------------------------
-- Every run
-- ---------------------------------------------------------------------------

/-- In every run, uploads under way are what they should be, and transfers are under way only if frames
have room for a header. -/
theorem World.keeps_underWay (links : LinkLimits) (limits : TransferLimits) (directory : Directory)
    (store : Store) (steps : List Step) :
    ((start links limits directory store).run steps).Keeps limits fun c =>
      (∀ a, c.transfers.upload.active = some a → a.IsUpload limits) ∧
        (c.IsBusy → Script.FitsFrames limits.framePayload) := by
  have hstart : (start links limits directory store).Keeps limits fun c =>
      (∀ a, c.transfers.upload.active = some a → a.IsUpload limits) ∧
        (c.IsBusy → Script.FitsFrames limits.framePayload) := ⟨rfl, fun _ hc => nomatch hc⟩
  refine hstart.run ?_ ?_ steps
  · intro id screenName profile outbound burst
    refine ⟨fun a ha => (nomatch ha), ?_⟩
    rintro ⟨direction, id, a, ha, -⟩
    cases direction <;> cases ha
  · rintro op service c now rfl ⟨hupload, hroom⟩
    have hframes (a : ActiveTransfer) (ha : c.transfers.upload.active = some a) :
        Script.FitsFrames service.limits.framePayload := hroom ⟨.upload, a.state.id, a, ha, rfl⟩
    exact ⟨(op.uploadChange service c now hframes).isUpload hupload,
      fun hbusy => (op.isBusy_run hbusy).elim hroom fun hfits => hfits⟩

/-- In every state that a run can lead to, for every operation on an open connection, other than queueing
chunks from elsewhere: the notices that it sends are those about the transfers that the server has ended
in it, one for each and with the id of the transfer, as far as they can be said.  With sizes of 64 bits
everything can be said but what the store finds wrong with an upload. -/
theorem ended_transfers_noticed (links : LinkLimits) (limits : TransferLimits) (directory : Directory)
    (store : Store) (steps : List Step) (i : Nat) (c : Connection)
    (hc : ((World.start links limits directory store).run steps).server.connections[i]? = some c)
    (hopen : c.pacer.closed = false) (op : Operation) (hop : ∀ chunks, op ≠ .send chunks) :
    let w := (World.start links limits directory store).run steps
    let final := (op.run w.server.transfers c w.now).2.1
    ∃ ended : Direction → Option TransferState,
      (∀ direction, Ending op direction (c.transfers.slot direction) (final.transfers.slot direction)
        (ended direction)) ∧
      (Notice.among (c.newChunks final)).Perm
        ((((ended .download).toList ++ (ended .upload).toList).filter fun state =>
            state.farewell.utf8ByteSize ≤ 255).map fun state => ⟨state.id, state.farewell⟩) ∧
      (limits.maxFileSize < UInt64.size →
        (∀ id data, op = .handle (.uploadData id data) → data.length < UInt64.size) →
        ∀ direction state, ended direction = some state → 255 < state.farewell.utf8ByteSize →
          ∃ fault : StorageError, state.failure = some (.storage fault.message)) := by
  intro w final
  have hkeeps := World.keeps_underWay links limits directory store steps
  have hlimits : w.server.transfers.limits = limits := hkeeps.limitsKept
  obtain ⟨hupload, hroom⟩ := hkeeps.connections c (List.mem_of_getElem? hc)
  rw [← hlimits] at hupload hroom ⊢
  by_cases hsweeps : op.sweeps = true
  · obtain ⟨ended, hnoticed, hsayable⟩ := noticed_of_sweeps hsweeps _ w.now hopen hroom
    refine ⟨ended, hnoticed.endings, hnoticed.told, fun hlimit hdata direction state hstate hlong => ?_⟩
    exact (hsayable hupload hlimit hdata direction state hstate).resolve_left (Nat.not_le_of_lt hlong)
  · have hnoticed := noticed_of_not_sweeps hsweeps hop w.server.transfers c w.now
    exact ⟨_, hnoticed.endings, hnoticed.told, nofun⟩

/-- A client tells a size beyond the limit: its upload fails, and it is told so. -/
theorem ended_transfers_noticed_too_large :
    let limits : TransferLimits := ⟨100, 1000, 256⟩
    let op : Operation := .handle (.uploadStats 1 101)
    let w := (World.start ⟨4, 8⟩ limits (.ofNames []) (.memory .empty)).run
      [.connect "Ann" ⟨.mac, 1, true⟩ (.new 8) 4, .operate 0 .initiateUpload,
        .operate 0 (.handle (.uploadPicked 1 "a.txt"))]
    ∃ c, w.server.connections[0]? = some c ∧ c.pacer.closed = false ∧
      (∀ chunks, op ≠ .send chunks) ∧
      Notice.among (c.newChunks (op.run w.server.transfers c w.now).2.1) =
        [⟨1, "Upload failed: 101 bytes exceeds the 100 byte limit"⟩] := by
  intro limits op w
  let failure : TransferState :=
    ⟨1, .upload, "a.txt", 0, 0, .failed, some (.sizeLimitExceeded 100 101), 0⟩
  have hstate : w.server.connections[0]?.any (fun c => !c.pacer.closed &&
      c.transfers.download.active.isNone && c.transfers.upload.failed.isEmpty &&
      (op.run w.server.transfers c w.now).2.1.transfers.upload =
        ⟨none, some failure, [failure]⟩) = true := by
    decide +kernel
  obtain ⟨c, hc, hstate⟩ := (Option.any_eq_true _ _).mp hstate
  simp only [Bool.and_eq_true, decide_eq_true_eq, Bool.not_eq_true', Option.isNone_iff_eq_none,
    List.isEmpty_iff] at hstate
  obtain ⟨⟨⟨hopen, hdownload⟩, hbefore⟩, hafter⟩ := hstate
  have hop : ∀ chunks, op ≠ .send chunks := nofun
  obtain ⟨ended, hendings, htold, -⟩ := ended_transfers_noticed ⟨4, 8⟩ limits (.ofNames [])
    (.memory .empty) _ 0 c hc hopen op hop
  have hnothing : ended .download = none := by
    have hending := hendings .download
    cases hended : ended .download with
    | none => rfl
    | some state =>
      rw [hended] at hending
      obtain ⟨a, ha⟩ := hending.exists_active
      cases hdownload.symm.trans ha
  have hfailure : ended .upload = some failure := by
    have hending := hendings .upload
    change Ending op .upload c.transfers.upload
      (op.run w.server.transfers c w.now).2.1.transfers.upload (ended .upload) at hending
    rw [hafter] at hending
    cases hended : ended .upload with
    | none =>
      -- a failure is remembered that was not there before
      rw [hended] at hending
      cases hending with
      | nothing hfailed =>
        rw [hbefore] at hfailed
        rcases hfailed with hsame | hclear
        · cases hsame
        · exact absurd hclear (show Operation.handle (.uploadStats 1 101) ≠ .clearFailed from nofun)
    | some state =>
      rw [hended] at hending
      exact hending.last_eq.symm
  rw [hnothing, hfailure] at htold
  have hsaid : (([failure].filter fun state => state.farewell.utf8ByteSize ≤ 255).map fun state =>
      (⟨state.id, state.farewell⟩ : Notice)) =
      [⟨1, "Upload failed: 101 bytes exceeds the 100 byte limit"⟩] := by
    decide +kernel
  exact ⟨c, hc, hopen, hop, List.perm_singleton.mp (htold.trans (.of_eq hsaid))⟩

/-- A notice that does not fit an operand is not queued. -/
theorem pacer_abort_of_long {reason : String} (hlong : 255 < reason.utf8ByteSize) (c : Connection)
    (limit : Nat) (id : UInt32) : (c.abort limit id reason).pacer = c.pacer := by
  have hsilent := c.dispatched_abort limit id reason
  rw [Dispatch.notices, if_neg fun h => Nat.not_le_of_lt hlong h.2] at hsilent
  obtain ⟨batches, hbatches, hpacer⟩ := hsilent
  cases hbatches
  rw [hpacer, List.flatten_nil, Pacer.enqueue_nil]

/-- A name that is too long fails the upload. -/
theorem decidePicked_of_long {slot : Slot} {a : ActiveTransfer} {path : String}
    (hactive : slot.active = some a) (hstatus : a.state.status = .awaitingFilePick)
    (hlong : maxNameLength < (baseName path).utf8ByteSize) (now : Nat) :
    slot.decidePicked now a.state.id path =
      let error := StorageError.invalidName (baseName path)
      .fail (.storage error.message) (.storage error) := by
  have hnamed : ¬(baseName path).isEmpty = true := by
    intro hempty
    rw [String.isEmpty_iff.mp hempty] at hlong
    exact absurd hlong (by decide)
  rw [Slot.decidePicked, Slot.expect_eq_ok_iff.mpr ⟨hactive, rfl, hstatus⟩]
  dsimp only
  rw [if_neg hnamed, checkName_of_long hlong]

/-- No name that is refused for its length is told of: the upload fails, and nothing is queued. -/
theorem uploadPicked_of_long {service : TransferService} {c : Connection} {now : Nat}
    {a : ActiveTransfer} {path : String} (hidle : ∀ id, ¬c.HasIdle service.limits now id)
    (hactive : c.transfers.upload.active = some a) (hstatus : a.state.status = .awaitingFilePick)
    (hlong : maxNameLength < (baseName path).utf8ByteSize) :
    let final := ((Operation.handle (.uploadPicked a.state.id path)).run service c now).2.1
    final.transfers = { c.transfers with upload := (c.transfers.upload.fail
      (.storage (StorageError.invalidName (baseName path)).message)).1 } ∧ c.newChunks final = [] := by
  intro final
  let error := StorageError.invalidName (baseName path)
  let failed := c.setSlot .upload (c.transfers.upload.fail (.storage error.message)).1
  let limit := service.limits.framePayload
  let text := "Upload failed: " ++ (FailureReason.storage error.message).message
  have hfinal : final = failed.abort limit a.state.id text := by
    have hpicked : c.uploadPicked service.limits now a.state.id path =
        (failed.abort limit a.state.id text, .error (.storage error)) := by
      rw [Connection.uploadPicked, decidePicked_of_long hactive hstatus hlong, Connection.settle,
        Connection.failUpload_of_active hactive]
    have happly : service.apply (c.sweep service.limits now).1 now (.uploadPicked a.state.id path) =
        some (service, failed.abort limit a.state.id text, .error (.storage error)) := by
      rw [Connection.sweep_of_not_idle hidle, TransferService.apply, hpicked]
    show (service.handle c now (.uploadPicked a.state.id path)).2.1 = _
    rw [service.handle_of_apply c now happly]
  -- the text quotes the name
  have htext : 255 < text.utf8ByteSize := by
    have hquoted := Text.utf8ByteSize_le_quoted (baseName path)
    have hmessage : error.message = "invalid file name " ++ Text.quoted (baseName path) := rfl
    have hmost : maxNameLength = 255 := rfl
    simp only [text, FailureReason.message, hmessage, String.utf8ByteSize_append]
    omega
  rw [hfinal]
  refine ⟨?_, ?_⟩
  · rw [(failed.notified_abort limit a.state.id text).told.transfers]
    rfl
  · rw [Connection.newChunks, pacer_abort_of_long htext]
    exact List.drop_length

/-- A client picks a file with a name that is too long: its upload fails, and it is not told. -/
theorem misnamed_upload_unnoticed :
    let w := (World.start ⟨4, 8⟩ ⟨100, 1000, 256⟩ (.ofNames []) (.memory .empty)).run
      [.connect "Ann" ⟨.mac, 1, true⟩ (.new 8) 4, .operate 0 .initiateUpload]
    let name := String.ofList (List.replicate 256 'a')
    ∃ c, w.server.connections[0]? = some c ∧ c.pacer.closed = false ∧
      let final := ((Operation.handle (.uploadPicked 1 name)).run w.server.transfers c w.now).2.1
      c.transfers.active .upload ≠ none ∧ final.transfers.active .upload = none ∧
        (final.transfers.failed.map fun state => (state.id, state.status)) = [(1, .failed)] ∧
        c.newChunks final = [] := by
  intro w name
  let a : ActiveTransfer := ⟨⟨1, .upload, "", 0, 0, .awaitingFilePick, none, 0⟩, .incoming []⟩
  have hstate : w.server.connections[0]?.any (fun c => !c.pacer.closed &&
      c.transfers = ⟨⟨none, none, []⟩, ⟨some a, none, []⟩⟩) = true := by
    decide +kernel
  obtain ⟨c, hc, hstate⟩ := (Option.any_eq_true _ _).mp hstate
  simp only [Bool.and_eq_true, decide_eq_true_eq, Bool.not_eq_true'] at hstate
  obtain ⟨hopen, htransfers⟩ := hstate
  have hactive : c.transfers.upload.active = some a := by rw [htransfers]
  have hidle (id : UInt32) : ¬c.HasIdle w.server.transfers.limits w.now id := by
    rintro ⟨direction, b, hb, -, hlate⟩
    rw [htransfers] at hb
    cases direction with
    | download => cases hb
    | upload =>
      cases hb
      exact absurd hlate (by decide +kernel)
  have hname : baseName name = name := by
    rw [baseName, String.toList_ofList]
    exact congrArg String.ofList (by decide +kernel)
  have hlong : maxNameLength < (baseName name).utf8ByteSize := by
    rw [hname]
    decide +kernel
  obtain ⟨hafter, hsilent⟩ := uploadPicked_of_long hidle hactive rfl hlong
  refine ⟨c, hc, hopen, ?_, ?_, ?_, hsilent⟩
  · rw [htransfers]
    decide
  · rw [hafter, htransfers]
    rfl
  · rw [hafter, htransfers]
    rfl

end Transfers

end Switchboard
