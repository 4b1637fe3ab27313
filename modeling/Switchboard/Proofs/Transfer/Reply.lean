import Switchboard.Proofs.Scene
import Switchboard.Proofs.Transfer.Slot

/-!
# Replies to messages about transfers

A message about a transfer is refused, or it fails an upload, ends a transfer or moves it on.
`Reply` says for each of these what becomes of the connection and of what all connections share, and
how the message is answered.

Main results:

* `TransferService.reply_apply`: every message about a transfer gets one of these replies.
* `TransferService.handle_cases`: a message is taken by sweeping first and then replying, and only the
  error for a transfer that is not there may be worded in another way.
-/

namespace Switchboard

-- ---------------------------------------------------------------------------
-- Scenes that follow a message
-- ---------------------------------------------------------------------------

namespace Connection

/-- A scene that can be built and compiled is given chunks. -/
theorem sceneChunks_eq_ok {c : Connection} {framePayload : Nat} {scene : Scene} {id : UInt32}
    {params : List (String × String)} {script : Script}
    (hscript : scene.script ⟨c.screenName, params ++ [("xfer_id", Text.number id.toNat)]⟩ =
      .ok script)
    (hcompile : ∀ streamId label, Succeeds (script.compile framePayload streamId label)) :
    ∃ chunks, (c.sceneChunks framePayload scene id params).2 = .ok chunks := by
  unfold sceneChunks
  dsimp only
  rw [hscript]
  exact hcompile c.takeStreamId.2 scene.id

/-- A scene is given chunks only if frames have room for a header. -/
theorem fitsFrames_of_sceneChunks {c after : Connection} {framePayload : Nat} {scene : Scene}
    {id : UInt32} {params : List (String × String)} {chunks : List Chunk}
    (h : c.sceneChunks framePayload scene id params = (after, .ok chunks)) :
    Script.FitsFrames framePayload := by
  unfold sceneChunks at h
  dsimp only at h
  split at h
  · cases h
  · exact Script.fitsFrames_of_compile (congrArg Prod.snd h)

/-- The scenes that follow the messages about an upload can be sent if frames have room for a header. -/
theorem follow_eq_ok (c : Connection) {framePayload : Nat} {scene : Scene} (state : TransferState)
    (hscene : scene = .uploadStat ∨ scene = .uploadAuthorize)
    (hframes : Script.FitsFrames framePayload) :
    (c.follow framePayload scene state).2 = .ok state := by
  -- the scenes look up the id of the transfer, which stands among the parameters
  have hid : SceneContext.number ⟨c.screenName, [] ++ [("xfer_id", Text.number state.id.toNat)]⟩
      "xfer_id" = .ok state.id := SceneContext.number_of_lookup rfl
  have hchunks : ∃ chunks, (c.sceneChunks framePayload scene state.id []).2 = .ok chunks := by
    rcases hscene with rfl | rfl
    · obtain ⟨script, hscript, hcompile⟩ := Scene.succeeds_uploadStat hid hframes
      exact sceneChunks_eq_ok hscript hcompile
    · obtain ⟨script, hscript, hcompile⟩ := Scene.succeeds_uploadAuthorize hid hframes
      exact sceneChunks_eq_ok hscript hcompile
  obtain ⟨chunks, hchunks⟩ := hchunks
  unfold follow
  split
  · rfl
  · next after error heq =>
    rw [heq] at hchunks
    cases hchunks

/-- If the scene that follows cannot be sent, nothing is queued. -/
theorem queued_of_follow {c after : Connection} {framePayload : Nat} {scene : Scene}
    {state : TransferState} {error : TransferError}
    (h : c.follow framePayload scene state = (after, .error error)) : Queued [] c after := by
  unfold follow at h
  have hscene := c.queued_sceneChunks framePayload scene state.id []
  split at h
  · cases h
  · next heq =>
    cases h
    rw [heq] at hscene
    exact hscene

/-- A failed upload is taken out of its slot, and a notice is sent. -/
theorem failUpload_of_active {c : Connection} {a : ActiveTransfer}
    (h : c.transfers.upload.active = some a) (framePayload : Nat) (id : UInt32)
    (reason : FailureReason) :
    c.failUpload framePayload id reason =
      (c.setSlot .upload (c.transfers.upload.fail reason).1).abort framePayload id
        ("Upload failed: " ++ reason.message) := by
  rw [failUpload, Slot.fail_of_active h]

end Connection

-- ---------------------------------------------------------------------------
-- Replies
-- ---------------------------------------------------------------------------

namespace Transfers

/-- The message is about the transfer in the slot for a direction. -/
structure Targets (message : ClientMessage) (c : Connection) (direction : Direction)
    (a : ActiveTransfer) : Prop where
  subject : message.subject? = some a.state.id
  addressed : message.addresses direction = true
  active : (c.transfers.slot direction).active = some a

/-- The scene that follows a message about an upload which has moved it on. -/
def followUp? : ClientMessage → Option Scene
  | .uploadPicked .. => some .uploadStat
  | .uploadStats .. => some .uploadAuthorize
  | _ => none

/-- What becomes of the connection and of what all connections share when the message is applied, and
the answer. -/
inductive Reply (service : TransferService) (c : Connection) (now : Nat) (message : ClientMessage) :
    TransferService → Connection → Except TransferError TransferState → Prop where
  | unknown {id : UInt32} (subject : message.subject? = some id)
      (absent : ∀ direction a, ¬Targets message c direction a) :
      Reply service c now message service c (.error (.unknownTransfer id))
  | unexpected {direction : Direction} {a : ActiveTransfer}
      (target : Targets message c direction a) :
      Reply service c now message service c (.error (.unexpectedState a.state.id a.state.status))
  | failed {a : ActiveTransfer} {reason : FailureReason} {error : TransferError} {store : Store}
      {after : Connection} (target : Targets message c .upload a)
      (why : error.reason? = some reason)
      (kept : (∃ id, message = .uploadEnd id) ∨ store = service.store)
      (notified : Connection.Notified
        (c.setSlot .upload (c.transfers.upload.fail reason).1) after)
      (said : after = (c.setSlot .upload (c.transfers.upload.fail reason).1).abort
        service.limits.framePayload a.state.id ("Upload failed: " ++ reason.message))
      (fault : UploadFault service.limits a message error) :
      Reply service c now message { service with store } after (.error error)
  | ended {direction : Direction} {a : ActiveTransfer} {status : TransferStatus} {store : Store}
      (target : Targets message c direction a)
      (transition : Transition message direction a.state.status status)
      (terminal : status.isTerminal = true)
      (kept : (∃ id, message = .uploadEnd id) ∨ store = service.store) :
      Reply service c now message { service with store }
        (c.setSlot direction ((c.transfers.slot direction).finish status).1)
        (.ok { a.state with status })
  | moved {a next : ActiveTransfer} {after : Connection} (target : Targets message c .upload a)
      (move : UploadMove service.limits now message a next)
      (notified : Connection.Notified
        (c.setSlot .upload { c.transfers.upload with active := some next }) after)
      (said : match followUp? message with
        | none => after = c.setSlot .upload { c.transfers.upload with active := some next }
        | some scene => after = ((c.setSlot .upload { c.transfers.upload with
            active := some next }).follow service.limits.framePayload scene next.state).1) :
      Reply service c now message service after (.ok next.state)
  /-- The upload has moved on, but frames have no room for the scene that follows. -/
  | unsaid {a next : ActiveTransfer} {after : Connection} (error : CompileError)
      (target : Targets message c .upload a) (move : UploadMove service.limits now message a next)
      (notified : Connection.Notified
        (c.setSlot .upload { c.transfers.upload with active := some next }) after)
      (frames : ¬Script.FitsFrames service.limits.framePayload)
      (silent : Connection.Queued []
        (c.setSlot .upload { c.transfers.upload with active := some next }) after) :
      Reply service c now message service after (.error (.scene error))
  | accepted {a : ActiveTransfer} {data : Bytes} {streamId : UInt16} {after : Connection}
      (target : Targets message c .download a) (message_eq : message = .downloadAck a.state.id)
      (status : a.state.status = .awaitingAck) (cargo : a.cargo = .outgoing data)
      (queued : Connection.Queued
        (downloadChunks service.limits.framePayload streamId a.state.id data)
        (c.setSlot .download { c.transfers.download with active := some { a with
          state := { a.state with
            status := .streaming, offset := a.state.size, lastActivity := now } } }) after) :
      Reply service c now message service after
        (.ok { a.state with status := .streaming, offset := a.state.size, lastActivity := now })

variable {service : TransferService} {c : Connection} {now : Nat} {message : ClientMessage}
  {id : UInt32} {error : TransferError}

/-- A slot refuses a message that is about transfers in its direction only. -/
theorem Reply.of_refuses (direction : Direction)
    (h : (c.transfers.slot direction).Refuses id error)
    (hsubject : message.subject? = some id)
    (haddressed : ∀ other, message.addresses other = true ↔ other = direction) :
    Reply service c now message service c (.error error) := by
  cases h with
  | unknown habsent =>
    refine .unknown hsubject fun other a htarget => ?_
    obtain rfl := (haddressed other).mp htarget.addressed
    exact habsent a htarget.active (Option.some.inj (htarget.subject.symm.trans hsubject))
  | unexpected hactive hnamed =>
    subst hnamed
    exact .unexpected ⟨hsubject, (haddressed direction).mpr rfl, hactive⟩

-- ---------------------------------------------------------------------------
-- Messages about downloads
-- ---------------------------------------------------------------------------

theorem reply_downloadAck (service : TransferService) (c : Connection) (now : Nat) (id : UInt32) :
    Reply service c now (.downloadAck id) service (c.downloadAck service.limits now id).1
      (c.downloadAck service.limits now id).2 := by
  unfold Connection.downloadAck
  cases hexpect : c.transfers.download.expect id .awaitingAck with
  | error error =>
    exact .of_refuses .download (Slot.refuses_of_expect hexpect) rfl fun _ => decide_eq_true_iff
  | ok a =>
    obtain ⟨hactive, rfl, hstatus⟩ := Slot.expect_eq_ok_iff.mp hexpect
    have htarget : Targets (.downloadAck a.state.id) c .download a := ⟨rfl, rfl, hactive⟩
    dsimp only
    split
    · exact .unexpected htarget
    · next data hcargo =>
      exact @Reply.accepted service c now _ a data c.takeStreamId.2 _ htarget rfl hstatus hcargo
        (Connection.queued_takeStreamId_send (c.setSlot .download _) _)

theorem reply_downloadConfirm (service : TransferService) (c : Connection) (now : Nat)
    (id : UInt32) :
    Reply service c now (.downloadConfirm id) service (c.downloadConfirm id).1
      (c.downloadConfirm id).2 := by
  unfold Connection.downloadConfirm
  cases hexpect : c.transfers.download.expect id .streaming with
  | error error =>
    exact .of_refuses .download (Slot.refuses_of_expect hexpect) rfl fun _ => decide_eq_true_iff
  | ok a =>
    obtain ⟨hactive, rfl, hstatus⟩ := Slot.expect_eq_ok_iff.mp hexpect
    have htarget : Targets (.downloadConfirm a.state.id) c .download a := ⟨rfl, rfl, hactive⟩
    have htransition : Transition (.downloadConfirm a.state.id) .download a.state.status
        .completed := by
      rw [hstatus]
      exact .confirmed _
    have hended : Reply service c now (.downloadConfirm a.state.id) service _ _ :=
      .ended htarget htransition rfl (.inr rfl)
    rw [TransferSlots.slot, Slot.finish_of_active hactive] at hended
    dsimp only
    rw [Slot.finish_of_active hactive]
    exact hended

-- ---------------------------------------------------------------------------
-- Messages about uploads
-- ---------------------------------------------------------------------------

/-- Carrying out a decision about an upload that leads to no scene. -/
theorem Reply.of_outcome {decision : UploadDecision}
    (h : decision.Outcome service.limits now c.transfers.upload message)
    (haddressed : ∀ other, message.addresses other = true ↔ other = .upload)
    (hsubject : message.subject? = some id)
    (hquiet : followUp? message = none ∨
      ∀ slot state, decision = .proceed slot state → state.status.isTerminal = true) :
    Reply service c now message service (c.settle service.limits.framePayload id decision).1
      (c.settle service.limits.framePayload id decision).2 := by
  have hupload := (haddressed .upload).mpr rfl
  cases h with
  | refused hsubject hwhy => exact .of_refuses .upload hwhy hsubject haddressed
  | failed hnamed hactive hwhy hfault =>
    obtain rfl := Option.some.inj (hsubject.symm.trans hnamed)
    exact .failed ⟨hnamed, hupload, hactive⟩ hwhy (.inr rfl) (c.notified_failUpload _ _ _)
      (Connection.failUpload_of_active hactive _ _ _) hfault
  | ended hsubject hactive htransition hterminal =>
    exact .ended ⟨hsubject, hupload, hactive⟩ htransition hterminal (.inr rfl)
  | moved hactive hmove =>
    have hnone : followUp? message = none := by
      refine hquiet.resolve_right fun hterminal => ?_
      cases hmove.isTerminal_eq.symm.trans (hterminal _ _ rfl)
    refine .moved ⟨hmove.subject_eq, hupload, hactive⟩ hmove (.refl _) ?_
    rw [hnone]
    rfl

/-- An upload that has moved on, and the scene that follows. -/
theorem Reply.of_move {a next : ActiveTransfer} (htarget : Targets message c .upload a)
    (hmove : UploadMove service.limits now message a next) {scene : Scene}
    (hfollow : followUp? message = some scene)
    (hscene : scene = .uploadStat ∨ scene = .uploadAuthorize) :
    Reply service c now message service
      ((c.setSlot .upload { c.transfers.upload with active := some next }).follow
        service.limits.framePayload scene next.state).1
      ((c.setSlot .upload { c.transfers.upload with active := some next }).follow
        service.limits.framePayload scene next.state).2 := by
  obtain ⟨after, hnotified, h | ⟨error, h⟩⟩ :=
    (c.setSlot .upload { c.transfers.upload with active := some next }).follow_cases
      service.limits.framePayload scene next.state
  · rw [h]
    refine .moved htarget hmove hnotified ?_
    rw [hfollow]
    exact (congrArg Prod.fst h).symm
  · rw [h]
    refine .unsaid error htarget hmove hnotified (fun hframes => ?_)
      (Connection.queued_of_follow h)
    -- with room in the frames the scene would have been sent
    have hsaid := Connection.follow_eq_ok
      (c.setSlot .upload { c.transfers.upload with active := some next }) next.state hscene hframes
    rw [h] at hsaid
    cases hsaid

theorem reply_uploadPicked (service : TransferService) (c : Connection) (now : Nat) (id : UInt32)
    (path : String) :
    Reply service c now (.uploadPicked id path) service
      (c.uploadPicked service.limits now id path).1
      (c.uploadPicked service.limits now id path).2 := by
  have houtcome := c.transfers.upload.outcome_decidePicked service.limits now id path
  have hsettled := Reply.of_outcome houtcome (fun _ => decide_eq_true_iff) rfl
  unfold Connection.uploadPicked
  generalize c.transfers.upload.decidePicked now id path = decision at houtcome hsettled ⊢
  cases houtcome with
  | refused => exact hsettled (.inr fun _ _ h => nomatch h)
  | failed => exact hsettled (.inr fun _ _ h => nomatch h)
  | ended _ _ _ hterminal =>
    -- no scene follows when the upload has been called off
    dsimp only [Connection.settle]
    rw [if_pos hterminal]
    refine hsettled (.inr ?_)
    rintro _ _ ⟨⟩
    exact hterminal
  | moved hactive hmove =>
    dsimp only [Connection.settle]
    rw [if_neg (Bool.eq_false_iff.mp hmove.isTerminal_eq)]
    exact .of_move ⟨hmove.subject_eq, rfl, hactive⟩ hmove rfl (.inl rfl)

theorem reply_uploadStats (service : TransferService) (c : Connection) (now : Nat)
    (id size : UInt32) :
    Reply service c now (.uploadStats id size) service
      (c.uploadStats service.limits now id size.toNat).1
      (c.uploadStats service.limits now id size.toNat).2 := by
  have houtcome := c.transfers.upload.outcome_decideStats service.limits now id size
  have hsettled := Reply.of_outcome houtcome (fun _ => decide_eq_true_iff) rfl
  unfold Connection.uploadStats
  generalize c.transfers.upload.decideStats service.limits now id size.toNat = decision
    at houtcome hsettled ⊢
  cases houtcome with
  | refused => exact hsettled (.inr fun _ _ h => nomatch h)
  | failed => exact hsettled (.inr fun _ _ h => nomatch h)
  | @ended a status _ _ htransition hterminal =>
    -- a size that is told ends no upload
    generalize a.state.status = before at htransition
    cases htransition
    cases hterminal
  | moved hactive hmove => exact .of_move ⟨hmove.subject_eq, rfl, hactive⟩ hmove rfl (.inr rfl)

theorem reply_uploadData (service : TransferService) (c : Connection) (now : Nat) (id : UInt32)
    (data : Bytes) :
    Reply service c now (.uploadData id data) service (c.uploadData service.limits now id data).1
      (c.uploadData service.limits now id data).2 :=
  .of_outcome (c.transfers.upload.outcome_decideData service.limits now id data)
    (fun _ => decide_eq_true_iff) rfl (.inl rfl)

theorem reply_uploadEnd (service : TransferService) (c : Connection) (now : Nat) (id : UInt32) :
    Reply service c now (.uploadEnd id)
      { service with store := (c.uploadEnd service.limits service.store id).1 }
      (c.uploadEnd service.limits service.store id).2.1
      (c.uploadEnd service.limits service.store id).2.2 := by
  unfold Connection.uploadEnd
  dsimp only
  rcases c.transfers.upload.decideEnd_cases service.limits id service.store c.identity with
    ⟨error, hwhy, h⟩ | ⟨a, reason, error, after, hactive, rfl, hwhy, hfault, h⟩ |
    ⟨a, latest, after, hactive, rfl, hstatus, -, -, -, h⟩
  · rw [h]
    exact .of_refuses .upload hwhy rfl fun _ => decide_eq_true_iff
  · rw [h]
    exact .failed ⟨rfl, rfl, hactive⟩ hwhy (.inl ⟨_, rfl⟩) (c.notified_failUpload _ _ _)
      (Connection.failUpload_of_active hactive _ _ _) hfault
  · rw [h]
    have htransition : Transition (.uploadEnd a.state.id) .upload a.state.status .completed := by
      rw [hstatus]
      exact .stored _
    exact .ended ⟨rfl, rfl, hactive⟩ htransition rfl (.inl ⟨_, rfl⟩)

-- ---------------------------------------------------------------------------
-- Messages about either
-- ---------------------------------------------------------------------------

theorem any_id_iff {active : Option ActiveTransfer} {id : UInt32} :
    active.any (·.state.id = id) = true ↔ ∃ a, active = some a ∧ a.state.id = id := by
  rw [Option.any_eq_true]
  simp only [decide_eq_true_eq]

theorem reply_cancel (service : TransferService) (c : Connection) (now : Nat) (id : UInt32) :
    Reply service c now (.cancel id) service (c.clientCancel id).1 (c.clientCancel id).2 := by
  -- a transfer with the id leaves its slot
  have hended {direction : Direction} {a : ActiveTransfer}
      (hactive : (c.transfers.slot direction).active = some a) (hid : a.state.id = id) :
      Reply service c now (.cancel id) service
        (c.setSlot direction ((c.transfers.slot direction).finish .cancelled).1)
        (.ok { a.state with status := .cancelled }) := by
    subst hid
    exact .ended ⟨rfl, rfl, hactive⟩ (.cancelled _ _ _) rfl (.inr rfl)
  unfold Connection.clientCancel
  dsimp only
  split
  · next hdownload =>
    obtain ⟨a, hactive, hid⟩ := any_id_iff.mp hdownload
    have hreply := hended hactive hid
    rw [Slot.finish_of_active hactive] at hreply ⊢
    exact hreply
  · next hdownload =>
    split
    · next hupload =>
      obtain ⟨a, hactive, hid⟩ := any_id_iff.mp hupload
      have hreply := hended hactive hid
      rw [Slot.finish_of_active hactive] at hreply ⊢
      exact hreply
    · next hupload =>
      refine .unknown rfl fun direction a htarget => ?_
      have hid : a.state.id = id := Option.some.inj htarget.subject.symm
      cases direction with
      | download => exact hdownload (any_id_iff.mpr ⟨a, htarget.active, hid⟩)
      | upload => exact hupload (any_id_iff.mpr ⟨a, htarget.active, hid⟩)

end Transfers

-- ---------------------------------------------------------------------------
-- Every message
-- ---------------------------------------------------------------------------

namespace TransferService

open Transfers

variable {service after : TransferService} {c : Connection} {now : Nat} {message : ClientMessage}
  {applied : Connection × Except TransferError TransferState}

/-- A message about a transfer gets one of the replies. -/
theorem reply_apply (h : service.apply c now message = some (after, applied)) :
    Reply service c now message after applied.1 applied.2 := by
  cases message with
  | downloadAck id =>
    cases h
    exact reply_downloadAck service c now id
  | downloadConfirm id =>
    cases h
    exact reply_downloadConfirm service c now id
  | cancel id =>
    cases h
    exact reply_cancel service c now id
  | uploadPicked id path =>
    cases h
    exact reply_uploadPicked service c now id path
  | uploadStats id size =>
    cases h
    exact reply_uploadStats service c now id size
  | uploadData id data =>
    cases h
    exact reply_uploadData service c now id data
  | uploadEnd id =>
    cases h
    exact reply_uploadEnd service c now id
  | signOn screenName => cases h
  | other token data => cases h

/-- Only messages about transfers are applied. -/
theorem apply_eq_none_iff :
    service.apply c now message = none ↔ message.subject? = none := by
  cases message <;> simp [apply, ClientMessage.subject?]

end TransferService

/-- How an error is worded after the given transfers have expired: what has just expired is told apart
from what is not there. -/
def TransferError.reword (expired : List TransferState) : TransferError → TransferError
  | .unknownTransfer id =>
    if expired.any (·.id = id) then .timeout id else .unknownTransfer id
  | error => error

namespace TransferService

variable (service : TransferService) (c : Connection) (now : Nat)

/-- A message about a transfer is applied after the sweep; only its error may be worded in another
way. -/
theorem handle_of_apply {message : ClientMessage} {after : TransferService}
    {applied : Connection × Except TransferError TransferState}
    (h : service.apply (c.sweep service.limits now).1 now message = some (after, applied)) :
    service.handle c now message = (after, applied.1,
      (applied.2.mapError (·.reword (c.sweep service.limits now).2)).map some) := by
  obtain ⟨final, result⟩ := applied
  rw [handle]
  dsimp only
  rw [h]
  cases result with
  | ok state => rfl
  | error error =>
    cases error with
    | unknownTransfer id =>
      -- the transfer may have expired in the sweep
      dsimp only [Except.mapError, Except.map, TransferError.reword]
      split <;> rfl
    | _ => rfl

/-- A message is taken by sweeping first.  If it is about a transfer it is replied to then, and only
the error for a transfer that is not there may be worded in another way. -/
theorem handle_cases (message : ClientMessage) :
    (message.subject? = none ∧ service.handle c now message =
      (service, (c.sweep service.limits now).1, .ok none)) ∨
    ∃ after final result,
      Transfers.Reply service (c.sweep service.limits now).1 now message after final result ∧
      service.handle c now message = (after, final,
        (result.mapError (·.reword (c.sweep service.limits now).2)).map some) := by
  cases happly : service.apply (c.sweep service.limits now).1 now message with
  | none =>
    refine .inl ⟨apply_eq_none_iff.mp happly, ?_⟩
    rw [handle]
    dsimp only
    rw [happly]
  | some applied =>
    exact .inr ⟨_, _, _, reply_apply happly, service.handle_of_apply c now happly⟩

end TransferService

end Switchboard
