import Switchboard.Proofs.Dispatch.Basic
import Switchboard.Proofs.Transfer.Closed

/-!
# What operations say and do

Most operations on a connection first let expire what is idle.  What they do then, to each of the two
slots and to the queue, is `Effect`: every transfer that the server ends is taken leave of in a notice
of its own, if that can be said, and no other notice is sent.

Main results:

* `Connection.dispatched_sweep`: a sweep sends notices about the transfers that it fails.
* `Operation.effect`: what an operation does after the sweep.
* `Operation.isBusy_run`: transfers begin only if frames have room for a header.
-/

namespace Switchboard

/-- What a client is told about a transfer that the server has ended. -/
def TransferState.farewell (state : TransferState) : String :=
  match state.status, state.failure with
  | .failed, some .timeout => "Transfer timed out"
  | .failed, some reason => "Upload failed: " ++ reason.message
  | _, _ => "Cancelled by host"

/-- The notice about a transfer that the server has ended, if it can be said. -/
def TransferState.notices (limit : Nat) (state : TransferState) : List Dispatch :=
  Dispatch.notices limit state.id state.farewell

theorem farewell_of_failure {state : TransferState} {reason : FailureReason}
    (hstatus : state.status = .failed) (hfailure : state.failure = some reason)
    (hreason : reason ≠ .timeout) : state.farewell = "Upload failed: " ++ reason.message := by
  rw [TransferState.farewell, hstatus, hfailure]
  cases reason with
  | timeout => exact absurd rfl hreason
  | sizeLimitExceeded | shortUpload | storage => rfl

namespace Dispatch

/-- A file is served from the slot for downloads. -/
def IsServed (c : Connection) : Dispatch → Prop
  | file id data => ∃ a, c.transfers.download.active = some a ∧ a.state.id = id ∧
      a.cargo = .outgoing data
  | _ => True

theorem IsServed.of_isScene {c : Connection} {d : Dispatch} (h : d.isScene = true) :
    d.IsServed c := by
  cases d with
  | file => cases h
  | _ => trivial

theorem isServed_of_mem_notices {c : Connection} {limit : Nat} {id : UInt32} {reason : String} :
    ∀ d ∈ notices limit id reason, d.IsServed c := by
  rw [notices]
  split
  · exact List.forall_mem_singleton.mpr trivial
  · exact List.forall_mem_nil _

theorem filter_notices (limit : Nat) (id : UInt32) (reason : String) :
    (notices limit id reason).filter isNotice = notices limit id reason := by
  rw [notices]
  split <;> rfl

end Dispatch

-- ---------------------------------------------------------------------------
-- Sweeping
-- ---------------------------------------------------------------------------

namespace Connection

/-- Whether a transfer is under way. -/
def IsBusy (c : Connection) : Prop :=
  ∃ direction id, c.Holds direction id

theorem IsBusy.of_active {c : Connection} {direction : Direction} {a : ActiveTransfer}
    (h : (c.transfers.slot direction).active = some a) : c.IsBusy :=
  ⟨direction, a.state.id, a, h, rfl⟩

variable (c : Connection) (limits : TransferLimits) (now : Nat)

theorem dispatched_abortAll (limit : Nat) {text : String} {states : List TransferState}
    (h : ∀ state ∈ states, state.farewell = text) :
    Dispatched limit (states.flatMap (·.notices limit)) c
      (states.foldl (fun c state => c.abort limit state.id text) c) := by
  -- one notice after the other, each to the connection that the last one left
  induction states generalizing c with
  | nil => exact .of_pacer_eq rfl
  | cons state rest ih =>
    obtain ⟨hfirst, hrest⟩ := List.forall_mem_cons.mp h
    rw [List.flatMap_cons, TransferState.notices, hfirst]
    exact (c.dispatched_abort limit state.id text).trans (ih _ hrest)

/-- What a slot has expired has failed with a timeout. -/
theorem farewell_of_mem_expire {slot : Slot} {timeout : Nat} {state : TransferState}
    (h : state ∈ (slot.expire now timeout).2.toList) : state.farewell = "Transfer timed out" := by
  unfold Slot.expire at h
  split at h
  · next hidle =>
    obtain ⟨a, hactive, -⟩ := Slot.isIdle_iff.mp hidle
    rw [Slot.fail_of_active hactive] at h
    rw [List.mem_singleton.mp h]
    rfl
  · cases h

/-- A sweep sends notices about the transfers that it fails. -/
theorem dispatched_sweep :
    Dispatched limits.framePayload ((c.sweep limits now).2.flatMap (·.notices limits.framePayload)) c
      (c.sweep limits now).1 := by
  refine dispatched_abortAll { c with transfers := (c.transfers.expire now limits.timeout).1 }
    limits.framePayload fun state hstate => ?_
  rcases List.mem_append.mp hstate with hdownload | hupload
  · exact farewell_of_mem_expire now hdownload
  · exact farewell_of_mem_expire now hupload

/-- The scenes that follow a message about an upload are no notices. -/
theorem dispatched_follow {limit : Nat} {scene : Scene} {state : TransferState}
    (hscene : scene = .uploadStat ∨ scene = .uploadAuthorize) :
    ∃ ds, Dispatched limit ds c (c.follow limit scene state).1 ∧ ds.filter (·.isNotice) = [] ∧
      ∀ d ∈ ds, d.isScene = true := by
  unfold follow
  split
  · next after chunks heq =>
    rcases hscene with rfl | rfl
    · exact ⟨[.statRequest state.id], c.dispatched_of_sceneChunks limit _ heq fun h => h, rfl,
        List.forall_mem_singleton.mpr rfl⟩
    · exact ⟨[.authorization state.id], c.dispatched_of_sceneChunks limit _ heq fun h => h, rfl,
        List.forall_mem_singleton.mpr rfl⟩
  · next after error heq =>
    have hqueued := c.queued_sceneChunks limit scene state.id []
    rw [heq] at hqueued
    exact ⟨[], .of_queued hqueued, rfl, List.forall_mem_nil _⟩

end Connection

namespace Transfers

-- ---------------------------------------------------------------------------
-- Slots
-- ---------------------------------------------------------------------------

/-- What an operation does to the slot for a direction when nothing in it is idle, and the transfer
there that the server has ended, if it has ended one. -/
inductive SlotChange (op : Operation) (service : TransferService) (direction : Direction) :
    Slot → Slot → List TransferState → Prop where
  | kept (slot : Slot) : SlotChange op service direction slot slot []
  | begun {slot : Slot} {a : ActiveTransfer} (initiation : op.isInitiation = true)
      (free : slot.active = none) (issued : a.state.id = service.nextId)
      (frames : Script.FitsFrames service.limits.framePayload) :
      SlotChange op service direction slot { slot with active := some a } []
  | moved {slot : Slot} {a next : ActiveTransfer} (active : slot.active = some a)
      (id_eq : next.state.id = a.state.id) :
      SlotChange op service direction slot { slot with active := some next } []
  /-- The client has confirmed the transfer, called it off or sent all of it. -/
  | ended {slot : Slot} {a : ActiveTransfer} {status : TransferStatus} {message : ClientMessage}
      (active : slot.active = some a) (heard : op = .handle message) (unfailed : status ≠ .failed) :
      SlotChange op service direction slot (slot.finish status).1 []
  /-- A message, or the store, has shown a fault in an upload. -/
  | failed {slot : Slot} {a : ActiveTransfer} {message : ClientMessage} {error : TransferError}
      {reason : FailureReason} (active : slot.active = some a) (upload : direction = .upload)
      (heard : op = .handle message) (why : error.reason? = some reason)
      (fault : UploadFault service.limits a message error) :
      SlotChange op service direction slot (slot.fail reason).1
        [{ a.state with status := .failed, failure := some reason }]
  | cancelled {slot : Slot} {a : ActiveTransfer} (active : slot.active = some a)
      (asked : op = .cancel direction) :
      SlotChange op service direction slot (slot.finish .cancelled).1
        [{ a.state with status := .cancelled }]

/-- A free slot stays so, or a transfer begins in it. -/
theorem SlotChange.of_free {op : Operation} {service : TransferService} {direction : Direction}
    {before after : Slot} {ended : List TransferState}
    (h : SlotChange op service direction before after ended) (hfree : before.active = none) :
    { after with active := none } = before ∧ ended = [] ∧ ∀ b, after.active = some b →
      op.isInitiation = true ∧ b.state.id = service.nextId := by
  cases h with
  | kept =>
    refine ⟨by rw [← hfree], rfl, fun b hb => ?_⟩
    cases hfree.symm.trans hb
  | begun hop _ hissued =>
    refine ⟨by rw [← hfree], rfl, ?_⟩
    rintro b ⟨⟩
    exact ⟨hop, hissued⟩
  | moved hactive | ended hactive | failed hactive | cancelled hactive =>
    cases hfree.symm.trans hactive

/-- A transfer begins only if frames have room for a header. -/
theorem SlotChange.of_active {op : Operation} {service : TransferService} {direction : Direction}
    {before after : Slot} {ended : List TransferState} {a : ActiveTransfer}
    (h : SlotChange op service direction before after ended) (ha : after.active = some a) :
    (∃ b, before.active = some b) ∨ Script.FitsFrames service.limits.framePayload := by
  cases h with
  | kept => exact .inl ⟨a, ha⟩
  | begun _ _ _ hframes => exact .inr hframes
  | moved hactive => exact .inl ⟨_, hactive⟩
  | ended hactive | failed hactive | cancelled hactive => exact .inl ⟨_, hactive⟩

/-- What an operation does to a connection when nothing in it is idle: one change of each slot, and a
notice about each transfer that the server has ended.  If a file is sent, then it is the download. -/
structure Effect (op : Operation) (service : TransferService) (before after : Connection)
    (ended : Direction → List TransferState) (ds : List Dispatch) : Prop where
  slots : ∀ direction, SlotChange op service direction (before.transfers.slot direction)
    (after.transfers.slot direction) (ended direction)
  dispatched : Connection.Dispatched service.limits.framePayload ds before after
  notices : ds.filter (·.isNotice) =
    (ended .download ++ ended .upload).flatMap (·.notices service.limits.framePayload)
  served : ∀ d ∈ ds, d.IsServed before

/-- An operation has some effect. -/
def HasEffect (op : Operation) (service : TransferService) (before after : Connection) : Prop :=
  ∃ ended ds, Effect op service before after ended ds

section Effects

variable {op : Operation} {service after : TransferService} {c before final : Connection} {now : Nat}
  {message : ClientMessage} {result : Except TransferError TransferState} {ds : List Dispatch}

/-- Nothing is said, and the slots are left as they were. -/
theorem HasEffect.of_queued (h : Connection.Queued [] before final) :
    HasEffect op service before final := by
  refine ⟨fun _ => [], [], fun direction => ?_, .of_queued h, rfl, List.forall_mem_nil _⟩
  rw [h.told.transfers]
  exact .kept _

/-- One slot has changed, and the notices sent are those about the transfer in it. -/
theorem HasEffect.of_setSlot {direction : Direction} {slot : Slot} {ended : List TransferState}
    (hchange : SlotChange op service direction (before.transfers.slot direction) slot ended)
    (hds : Connection.Dispatched service.limits.framePayload ds (before.setSlot direction slot) final)
    (htransfers : final.transfers = (before.setSlot direction slot).transfers)
    (hnotices : ds.filter (·.isNotice) = ended.flatMap (·.notices service.limits.framePayload))
    (hserved : ∀ d ∈ ds, d.IsServed before) : HasEffect op service before final := by
  refine ⟨fun other => if other = direction then ended else [], ds, fun other => ?_, hds, ?_,
    hserved⟩
  · rw [htransfers]
    cases direction <;> cases other
    · exact hchange
    · exact .kept _
    · exact .kept _
    · exact hchange
  · rw [hnotices]
    cases direction
    · exact congrArg _ (List.append_nil ended).symm
    · rfl

theorem ne_timeout_of_reason {error : TransferError} {reason : FailureReason}
    (h : error.reason? = some reason) : reason ≠ .timeout := by
  rintro rfl
  cases error <;> cases h

/-- The statuses in which clients end transfers are not those of failures. -/
theorem ne_failed_of_transition {direction : Direction} {from_ to_ : TransferStatus}
    (h : Transition message direction from_ to_) : to_ ≠ .failed := by
  cases h <;> exact fun heq => nomatch heq

theorem followUp?_cases {scene : Scene} (h : followUp? message = some scene) :
    scene = .uploadStat ∨ scene = .uploadAuthorize := by
  cases message with
  | uploadPicked => exact .inl (Option.some.inj h).symm
  | uploadStats => exact .inr (Option.some.inj h).symm
  | _ => cases h

/-- What a reply does and says. -/
theorem Reply.effect (h : Reply service c now message after final result) :
    HasEffect (.handle message) service c final := by
  cases h with
  | unknown => exact .of_queued (.refl c)
  | unexpected => exact .of_queued (.refl c)
  | @failed a reason error store _ htarget hwhy _ hnotified hsaid hfault =>
    have hreason := ne_timeout_of_reason hwhy
    have hds := (c.setSlot .upload (c.transfers.upload.fail reason).1).dispatched_abort
      service.limits.framePayload a.state.id ("Upload failed: " ++ reason.message)
    rw [← hsaid] at hds
    refine .of_setSlot (.failed htarget.active rfl rfl hwhy hfault) hds hnotified.told.transfers ?_ ?_
    · rw [Dispatch.filter_notices, List.flatMap_singleton, TransferState.notices,
        farewell_of_failure rfl rfl hreason]
    · exact Dispatch.isServed_of_mem_notices
  | ended htarget htransition =>
    exact .of_setSlot (.ended htarget.active rfl (ne_failed_of_transition htransition))
      (.of_pacer_eq rfl) rfl rfl (List.forall_mem_nil _)
  | @moved a next _ htarget hmove hnotified hsaid =>
    have hchange : SlotChange (.handle message) service .upload c.transfers.upload
        { c.transfers.upload with active := some next } [] := .moved htarget.active hmove.id_eq
    cases hfollow : followUp? message with
    | none =>
      rw [hfollow] at hsaid
      exact .of_setSlot hchange (.of_pacer_eq (congrArg Connection.pacer hsaid))
        hnotified.told.transfers rfl (List.forall_mem_nil _)
    | some scene =>
      rw [hfollow] at hsaid
      obtain ⟨ds, hds, hquiet, hscenes⟩ := Connection.dispatched_follow _ (followUp?_cases hfollow)
      rw [← hsaid] at hds
      exact .of_setSlot hchange hds hnotified.told.transfers hquiet
        fun d hd => .of_isScene (hscenes d hd)
  | unsaid _ htarget hmove hnotified _ hsilent =>
    exact .of_setSlot (.moved htarget.active hmove.id_eq) (.of_queued hsilent)
      hnotified.told.transfers rfl (List.forall_mem_nil _)
  | @accepted a data streamId _ htarget hmessage hstatus hcargo hqueued =>
    have hcarried : (Dispatch.file a.state.id data).CarriedBy service.limits.framePayload
        (downloadChunks service.limits.framePayload streamId a.state.id data) := ⟨streamId, rfl⟩
    have hchange : SlotChange (.handle message) service .download c.transfers.download
        { c.transfers.download with active := some { a with state := { a.state with
          status := .streaming, offset := a.state.size, lastActivity := now } } } [] :=
      .moved htarget.active rfl
    exact .of_setSlot hchange (.single hcarried hqueued.pacer_eq) hqueued.told.transfers rfl
      (List.forall_mem_singleton.mpr ⟨a, htarget.active, rfl, hcargo⟩)

/-- A new transfer is refused, or it takes the free slot and its scene is sent. -/
theorem effect_start {direction : Direction} {status : TransferStatus} {scene : Scene}
    {params : List (String × String)} {filename : String} {size : Nat} {cargo : Cargo}
    (hop : op.isInitiation = true) (d : Dispatch) (hquiet : d.isNotice = false)
    (hsaid : d.isScene = true)
    (hd : ∀ chunks, scene.CarriedBy service.limits.framePayload service.nextId params chunks →
      d.CarriedBy service.limits.framePayload chunks) :
    HasEffect op service c
      (service.start c now direction status scene params filename size cargo).2.1 := by
  unfold TransferService.start
  split
  · exact .of_queued (.refl c)
  · next hfree =>
    have hqueued := c.queued_sceneChunks service.limits.framePayload scene service.nextId params
    dsimp only [TransferService.takeId]
    cases hscene : c.sceneChunks service.limits.framePayload scene service.nextId params with
    | mk mid scened =>
      rw [hscene] at hqueued
      cases scened with
      | error error => exact .of_queued hqueued
      | ok chunks =>
        have hframes := Connection.fitsFrames_of_sceneChunks hscene
        have hsent := c.dispatched_of_sceneChunks service.limits.framePayload service.nextId hscene
          (hd chunks)
        let state := { TransferState.new service.nextId direction filename size now with status }
        have hchange : SlotChange op service direction (c.transfers.slot direction)
            { c.transfers.slot direction with active := some ⟨state, cargo⟩ } [] :=
          .begun hop hfree rfl hframes
        have htransfers := hqueued.told.transfers
        dsimp only
        rw [htransfers]
        refine .of_setSlot hchange hsent ?_ ?_ (List.forall_mem_singleton.mpr (.of_isScene hsaid))
        · show mid.transfers.setSlot direction _ = c.transfers.setSlot direction _
          rw [htransfers]
        · rw [List.filter_singleton, hquiet]
          rfl

theorem effect_initiateDownload (filename : String) (data : Bytes) :
    HasEffect (.initiateDownload filename data) service (c.sweep service.limits now).1
      (service.initiateDownload c now filename data).2.1 := by
  unfold TransferService.initiateDownload
  dsimp only
  split
  · exact .of_queued (.refl _)
  · split
    · exact .of_queued (.refl _)
    · next hfits =>
      -- the size can be told, since it has been held to what the scene can count
      have hsize : (UInt32.ofNat data.length).toNat = data.length := by
        refine UInt32.toNat_ofNat_of_lt' ?_
        have hle := Nat.le_trans (Nat.le_of_not_lt hfits) (Nat.min_le_right ..)
        exact Nat.lt_of_le_pred (by decide) hle
      refine effect_start rfl
        (.announcement service.nextId filename (UInt32.ofNat data.length)) rfl rfl fun chunks h => ?_
      rw [Dispatch.CarriedBy, hsize]
      exact h

/-- Cancelling ends what is in one slot, and tells the client. -/
theorem effect_cancelTransfer (direction : Direction) :
    HasEffect (.cancel direction) service (c.sweep service.limits now).1
      (c.cancelTransfer service.limits now direction).1 := by
  unfold Connection.cancelTransfer
  dsimp only
  generalize (c.sweep service.limits now).1 = swept
  cases hactive : (swept.transfers.slot direction).active with
  | none =>
    rw [Slot.finish, hactive]
    exact .of_queued (.refl swept)
  | some a =>
    have hds := (swept.setSlot direction
      ((swept.transfers.slot direction).finish .cancelled).1).dispatched_abort
        service.limits.framePayload a.state.id "Cancelled by host"
    have htransfers := (Connection.notified_abort (swept.setSlot direction
      ((swept.transfers.slot direction).finish .cancelled).1) service.limits.framePayload a.state.id
        "Cancelled by host").told.transfers
    have hnotices : (Dispatch.notices service.limits.framePayload a.state.id
        "Cancelled by host").filter (·.isNotice) =
        [{ a.state with status := .cancelled }].flatMap
          (·.notices service.limits.framePayload) := by
      rw [Dispatch.filter_notices, List.flatMap_singleton]
      rfl
    have heffect : HasEffect (.cancel direction) service swept _ :=
      .of_setSlot (.cancelled hactive rfl) hds htransfers hnotices Dispatch.isServed_of_mem_notices
    rw [Slot.finish_of_active hactive] at heffect ⊢
    exact heffect

namespace Operation

/-- Whether the operation begins by failing what is idle. -/
def sweeps : Operation → Bool
  | initiateDownload .. | initiateUpload | handle _ | cancel _ | sweep | report => true
  | clearFailed | flush | close | send _ | receive _ | setRx _ => false

/-- What an operation that sweeps first does and says after the sweep. -/
theorem effect {op : Operation} (hop : op.sweeps = true) (service : TransferService) (c : Connection)
    (now : Nat) :
    HasEffect op service (c.sweep service.limits now).1 (op.run service c now).2.1 := by
  cases op with
  | initiateDownload filename data => exact effect_initiateDownload filename data
  | initiateUpload => exact effect_start rfl (.picker service.nextId) rfl rfl fun _ h => h
  | handle message =>
    rw [run]
    rcases service.handle_cases c now message with ⟨-, heq⟩ | ⟨after, final, result, hreply, heq⟩
    · rw [heq]
      exact .of_queued (.refl _)
    · rw [heq]
      exact hreply.effect
  | cancel direction => exact effect_cancelTransfer direction
  | sweep => exact .of_queued (.refl _)
  | report => exact .of_queued (.refl _)
  | clearFailed | flush | close | send | receive | setRx => cases hop

/-- A connection has a transfer under way after an operation only if it had one before, or if frames
have room for a header. -/
theorem isBusy_run (op : Operation) {service : TransferService} {c : Connection} {now : Nat}
    (h : (op.run service c now).2.1.IsBusy) :
    c.IsBusy ∨ Script.FitsFrames service.limits.framePayload := by
  obtain ⟨direction, id, hholds⟩ := h
  rcases op.holds_run service c now hholds with hbefore | ⟨hop, -⟩
  · exact .inl ⟨direction, id, hbefore⟩
  · -- a transfer that begins is announced
    have hsweeps : op.sweeps = true := by
      cases op <;> first | rfl | cases hop
    obtain ⟨ended, ds, heffect⟩ := effect hsweeps service c now
    obtain ⟨a, ha, -⟩ := hholds
    rcases (heffect.slots direction).of_active ha with ⟨b, hb⟩ | hframes
    · exact .inl (.of_active (Connection.active_of_sweep hb).1)
    · exact .inr hframes

end Operation

end Effects

end Transfers

end Switchboard
