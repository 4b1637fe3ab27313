import Switchboard.Proofs.Transfer.Closed

/-!
# Uploads that fail in two moments

A step that finds a fault in an upload decides so while it looks at the slot, and fails the upload
when it comes to the slot again.  Other operations on the connection may be carried out in between.
A schedule is a list of such moments, in any order that the lock on the slot allows.

Main results:

* `Shared.step_sections`: with nothing in between, the moments of a step make up the whole
  operation.
* `upload_fails_for_cause`: in every schedule an upload fails, other than by a timeout, because of a
  message about it; or it was begun between the two moments of a step about another upload.
* `upload_fails_for_another`: the latter happens.
-/

namespace Switchboard

namespace Slot

/-- The transfer in a slot fails for the given reason. -/
structure Fails (before after : Slot) (a : ActiveTransfer) (reason : FailureReason) : Prop where
  active : before.active = some a
  gone : ∀ next, after.active = some next → next.state.id ≠ a.state.id
  last : after.last = some { a.state with status := .failed, failure := some reason }

/-- A slot whose transfer has not failed other than by a timeout: it is still there, or it is the
last to have ended and says so. -/
inductive Passes (before after : Slot) : Prop where
  | kept (last : after.last = before.last)
      (active : ∀ a, before.active = some a → ∃ next, after.active = some next ∧
        next.state.id = a.state.id)
  | ended {state : TransferState} (last : after.last = some state)
      (harmless : state.status = .failed → state.failure = some .timeout)

namespace Passes

variable {before mid after slot : Slot} {a : ActiveTransfer} {reason : FailureReason}

theorem refl (slot : Slot) : Passes slot slot :=
  .kept rfl fun a ha => ⟨a, ha, rfl⟩

theorem trans (h : Passes before mid) (h' : Passes mid after) : Passes before after := by
  cases h' with
  | ended hlast hharmless => exact .ended hlast hharmless
  | kept hlast' hactive' =>
    cases h with
    | ended hlast hharmless => exact .ended (hlast'.trans hlast) hharmless
    | kept hlast hactive =>
      refine .kept (hlast'.trans hlast) fun a ha => ?_
      obtain ⟨next, hnext, hid⟩ := hactive a ha
      obtain ⟨final, hfinal, hid'⟩ := hactive' next hnext
      exact ⟨final, hfinal, hid'.trans hid⟩

/-- If a slot passes, only a timeout fails its transfer. -/
theorem reason_eq (h : Passes before after) (hfails : Fails before after a reason) :
    reason = .timeout := by
  cases h with
  | kept _ hactive =>
    obtain ⟨next, hnext, hid⟩ := hactive a hfails.active
    exact absurd hid (hfails.gone next hnext)
  | ended hlast hharmless =>
    cases hlast.symm.trans hfails.last
    exact Option.some.inj (hharmless rfl)

theorem of_finish (slot : Slot) {status : TransferStatus} (hstatus : status ≠ .failed) :
    Passes slot (slot.finish status).1 := by
  unfold finish
  split
  · exact .refl slot
  · exact .ended rfl fun h => absurd h hstatus

theorem of_expire (slot : Slot) (now timeout : Nat) : Passes slot (slot.expire now timeout).1 := by
  unfold expire
  split
  · unfold fail
    split
    · exact .refl slot
    · exact .ended rfl fun _ => rfl
  · exact .refl slot

end Passes

end Slot

/-- A transfer begins only in a free slot. -/
theorem TransferService.active_of_start {service after : TransferService} {c final : Connection}
    {now : Nat} {direction : Direction} {status : TransferStatus} {scene : Scene}
    {params : List (String × String)} {filename : String} {size : Nat} {cargo : Cargo}
    {state : TransferState}
    (h : service.start c now direction status scene params filename size cargo =
      (after, final, .ok state)) : (c.transfers.slot direction).active = none := by
  unfold start at h
  split at h
  · cases h
  · next hfree => exact hfree

/-- There is nothing to fail in a free slot. -/
theorem Connection.failUpload_of_free {c : Connection} (h : c.transfers.upload.active = none)
    (framePayload : Nat) (id : UInt32) (reason : FailureReason) :
    c.failUpload framePayload id reason = c := by
  rw [failUpload, Slot.fail, h]

namespace Transfers

-- ---------------------------------------------------------------------------
-- Whole operations
-- ---------------------------------------------------------------------------

variable {service after : TransferService} {c final : Connection} {now : Nat}
  {message : ClientMessage} {result : Except TransferError TransferState} {id : UInt32}

/-- A reply leaves the upload, or the message is about it. -/
theorem Reply.passes_or_targets (h : Reply service c now message after final result) :
    c.transfers.upload.Passes final.transfers.upload ∨ ∃ a, Targets message c .upload a := by
  cases h with
  | unknown => exact .inl (.refl _)
  | unexpected => exact .inl (.refl _)
  | failed htarget => exact .inr ⟨_, htarget⟩
  | @ended direction _ _ _ htarget =>
    cases direction with
    | download => exact .inl (.refl _)
    | upload => exact .inr ⟨_, htarget⟩
  | moved htarget => exact .inr ⟨_, htarget⟩
  | unsaid _ htarget => exact .inr ⟨_, htarget⟩
  | accepted _ _ _ _ hqueued =>
    rw [hqueued.told.transfers]
    exact .inl (.refl _)

theorem passes_sweep (c : Connection) (limits : TransferLimits) (now : Nat) :
    c.transfers.upload.Passes (c.sweep limits now).1.transfers.upload := by
  have hslot : (c.sweep limits now).1.transfers.upload = _ := c.slot_sweep limits now .upload
  rw [hslot]
  exact .of_expire _ now limits.timeout

/-- An upload that begins takes a free slot. -/
theorem passes_initiateUpload (service : TransferService) (c : Connection) (now : Nat) :
    c.transfers.upload.Passes (service.initiateUpload c now).2.1.transfers.upload := by
  refine (passes_sweep c service.limits now).trans ?_
  show Slot.Passes _ (service.start (c.sweep service.limits now).1 now .upload .awaitingFilePick
    .uploadPicker [] "" 0 (.incoming [])).2.1.transfers.upload
  rcases service.start_cases (c.sweep service.limits now).1 now .upload .awaitingFilePick
    .uploadPicker [] "" 0 (.incoming []) with
    ⟨after, final, error, h, -, hqueued⟩ | ⟨final, state, h, -, hnotified, -⟩
  · rw [h, hqueued.told.transfers]
    exact .refl _
  · rw [h, hnotified.told.transfers]
    refine .kept rfl fun a ha => ?_
    cases (TransferService.active_of_start h).symm.trans ha

/-- An operation leaves the upload, or it takes a message about it. -/
theorem Operation.passes_or_subject (op : Operation) (service : TransferService) (c : Connection)
    (now : Nat) :
    c.transfers.upload.Passes (op.run service c now).2.1.transfers.upload ∨
      ∃ message a, op = .handle message ∧ c.transfers.upload.active = some a ∧
        message.subject? = some a.state.id := by
  have hswept := passes_sweep c service.limits now
  cases op with
  | initiateDownload filename data =>
    have hmoved := service.movedIn_initiateDownload c now filename data
    rw [← hmoved.upload] at hswept
    exact .inl hswept
  | initiateUpload => exact .inl (passes_initiateUpload service c now)
  | handle message =>
    rw [run]
    rcases service.handle_cases c now message with ⟨-, heq⟩ | ⟨after, final, result, hreply, heq⟩
    · rw [heq]
      exact .inl hswept
    · rw [heq]
      rcases hreply.passes_or_targets with hpasses | ⟨a, htarget⟩
      · exact .inl (hswept.trans hpasses)
      · exact .inr ⟨message, a, rfl, (Connection.active_of_sweep htarget.active).1,
          htarget.subject⟩
  | cancel direction =>
    refine .inl (hswept.trans ?_)
    show Slot.Passes _ (c.cancelTransfer service.limits now direction).1.transfers.upload
    rw [(c.notified_cancelTransfer service.limits now direction).told.transfers]
    cases direction with
    | download => exact .refl _
    | upload => exact .of_finish _ (by decide)
  | sweep => exact .inl hswept
  | report => exact .inl hswept
  | clearFailed => exact .inl (.kept rfl fun a ha => ⟨a, ha, rfl⟩)
  | flush =>
    refine .inl ?_
    show Slot.Passes _ (c.flush now).1.transfers.upload
    rcases c.transfers_flush now with hsame | ⟨id, htouched⟩
    · rw [hsame]
      exact .refl _
    · rw [htouched]
      exact .refl _
  | close => exact .inl (.of_finish _ (by decide))
  | send chunks => exact .inl (.refl _)
  | receive count => exact .inl (.refl _)
  | setRx seq => exact .inl (.refl _)

-- ---------------------------------------------------------------------------
-- Moments
-- ---------------------------------------------------------------------------

/-- What an upload step decides about a message, with the id in the message and the store
afterwards; nothing for messages about other things. -/
def decision? (service : TransferService) (c : Connection) (now : Nat) :
    ClientMessage → Option (UInt32 × Store × UploadDecision)
  | .uploadPicked id picked =>
    some (id, service.store, c.transfers.upload.decidePicked now id picked)
  | .uploadStats id size =>
    some (id, service.store, c.transfers.upload.decideStats service.limits now id size.toNat)
  | .uploadData id data => some (id, service.store, c.transfers.upload.decideData now id data)
  | .uploadEnd id => some (id, c.transfers.upload.decideEnd service.store c.identity id)
  | _ => none

/-- A decision to fail an upload is about the one in the slot, which is the one in the message; to
apply the message at once is to fail it at once. -/
theorem failing_decision {store : Store} {reason : FailureReason} {error : TransferError}
    (h : decision? service c now message = some (id, store, .fail reason error)) :
    message.subject? = some id ∧ c.Holds .upload id ∧
      service.apply c now message = some ({ service with store },
        c.failUpload service.limits.framePayload id reason, .error error) := by
  cases message with
  | uploadPicked id picked =>
    obtain ⟨rfl, rfl, hdecision⟩ : _ ∧ _ ∧ c.transfers.upload.decidePicked now id picked = _ := by
      simpa [decision?] using h
    have houtcome := c.transfers.upload.outcome_decidePicked service.limits now id picked
    rw [hdecision] at houtcome
    cases houtcome with
    | @failed a _ _ hsubject hactive =>
      refine ⟨rfl, ⟨a, hactive, Option.some.inj hsubject.symm⟩, ?_⟩
      rw [TransferService.apply, Connection.uploadPicked, hdecision]
      rfl
  | uploadStats id size =>
    obtain ⟨rfl, rfl, hdecision⟩ :
        _ ∧ _ ∧ c.transfers.upload.decideStats service.limits now id size.toNat = _ := by
      simpa [decision?] using h
    have houtcome := c.transfers.upload.outcome_decideStats service.limits now id size
    rw [hdecision] at houtcome
    cases houtcome with
    | @failed a _ _ hsubject hactive =>
      refine ⟨rfl, ⟨a, hactive, Option.some.inj hsubject.symm⟩, ?_⟩
      rw [TransferService.apply, Connection.uploadStats, hdecision]
      rfl
  | uploadData id data =>
    obtain ⟨rfl, rfl, hdecision⟩ : _ ∧ _ ∧ c.transfers.upload.decideData now id data = _ := by
      simpa [decision?] using h
    have houtcome := c.transfers.upload.outcome_decideData service.limits now id data
    rw [hdecision] at houtcome
    cases houtcome with
    | @failed a _ _ hsubject hactive =>
      refine ⟨rfl, ⟨a, hactive, Option.some.inj hsubject.symm⟩, ?_⟩
      rw [TransferService.apply, Connection.uploadData, hdecision]
      rfl
  | uploadEnd id =>
    obtain ⟨rfl, hdecision⟩ :
        _ ∧ c.transfers.upload.decideEnd service.store c.identity id = _ := by
      simpa [decision?] using h
    rcases c.transfers.upload.decideEnd_cases service.limits id service.store c.identity with
      ⟨_, -, hrefused⟩ | ⟨a, _, _, _, hactive, hid, -⟩ | ⟨a, _, _, -, -, -, -, -, -, hdone⟩
    · cases hrefused.symm.trans hdecision
    · refine ⟨rfl, ⟨a, hactive, hid⟩, ?_⟩
      rw [TransferService.apply, Connection.uploadEnd, hdecision]
      rfl
    · cases hdone.symm.trans hdecision
  | _ => cases h

/-- A step that has found a fault in an upload and has yet to fail it. -/
structure Fault where
  /-- The number of the moment in which it was decided. -/
  decided : Nat
  /-- The id in the message. -/
  id : UInt32
  reason : FailureReason
  deriving DecidableEq

/-- What the threads that operate on one connection share, with the steps that are between their two
moments. -/
structure Shared where
  service : TransferService
  connection : Connection
  now : Nat
  /-- How many moments there have been. -/
  past : Nat
  faults : List Fault

/-- What happens while one thread holds the lock on the slots. -/
inductive Moment where
  /-- A whole operation. -/
  | operate (op : Operation)
  /-- A message is looked at.  If its upload is to fail, that is left for another moment; any other
  message is applied. -/
  | decide (message : ClientMessage)
  /-- The step that has decided so in the given moment fails the upload. -/
  | fail (decided : Nat)
  | advance (milliseconds : Nat)

namespace Shared

/-- The step that has decided in the given moment to fail the upload. -/
def fault? (s : Shared) (decided : Nat) : Option Fault :=
  s.faults.find? (·.decided = decided)

/-- Applies a message without sweeping first. -/
def apply (s : Shared) (message : ClientMessage) : Shared :=
  match s.service.apply s.connection s.now message with
  | none => s
  | some (service, connection, _) => { s with service, connection }

/-- What happens in a moment. -/
def act (s : Shared) : Moment → Shared
  | .operate op =>
    let (service, connection, _) := op.run s.service s.connection s.now
    { s with service, connection }
  | .decide message =>
    match decision? s.service s.connection s.now message with
    | some (id, store, .fail reason _) =>
      { s with service := { s.service with store }, faults := s.faults ++ [⟨s.past, id, reason⟩] }
    | _ => s.apply message
  | .fail decided =>
    match s.fault? decided with
    | none => s
    | some fault =>
      { s with
        connection :=
          s.connection.failUpload s.service.limits.framePayload fault.id fault.reason
        faults := s.faults.filter (·.decided ≠ decided) }
  | .advance milliseconds => { s with now := s.now + milliseconds }

/-- A moment passes. -/
def step (s : Shared) (moment : Moment) : Shared :=
  { s.act moment with past := s.past + 1 }

/-- Moments pass in order. -/
def run (s : Shared) (schedule : List Moment) : Shared :=
  schedule.foldl step s

/-- No step is between its two moments. -/
def start (service : TransferService) (c : Connection) (now : Nat) : Shared :=
  ⟨service, c, now, 0, []⟩

-- ---------------------------------------------------------------------------
-- One moment
-- ---------------------------------------------------------------------------

section Moments

variable {s : Shared} {message : ClientMessage} {direction : Direction} {id : UInt32}

theorem mem_of_fault? {decided : Nat} {f : Fault} (h : s.fault? decided = some f) :
    f ∈ s.faults ∧ f.decided = decided := by
  refine ⟨List.mem_of_find?_eq_some h, ?_⟩
  exact of_decide_eq_true (List.find?_some (p := fun f : Fault => f.decided = decided) h)

/-- A decision leaves the connection and what all connections share to a later moment, up to the
store; or the message is applied. -/
theorem act_decide_cases (s : Shared) (message : ClientMessage) :
    (∃ id store reason error,
      decision? s.service s.connection s.now message = some (id, store, .fail reason error) ∧
      s.act (.decide message) = { s with
        service := { s.service with store }
        faults := s.faults ++ [⟨s.past, id, reason⟩] }) ∨
    s.act (.decide message) = s.apply message := by
  unfold act
  dsimp only
  split
  · next id store reason error h => exact .inl ⟨id, store, reason, error, h, rfl⟩
  · exact .inr rfl

theorem apply_cases (s : Shared) (message : ClientMessage) :
    s.apply message = s ∨ ∃ service connection result,
      Reply s.service s.connection s.now message service connection result ∧
      s.apply message = { s with service, connection } := by
  unfold apply
  split
  · exact .inl rfl
  · next service connection result h =>
    exact .inr ⟨service, connection, result, TransferService.reply_apply h, rfl⟩

/-- A transfer in a slot after a moment was there before, or the moment is an initiation that has
just begun it. -/
theorem holds_step {m : Moment} (h : (s.step m).connection.Holds direction id) :
    s.connection.Holds direction id ∨ ∃ op, m = .operate op ∧ op.isInitiation = true ∧
      Answers (op.run s.service s.connection s.now).2.2 direction id := by
  change (s.act m).connection.Holds direction id at h
  cases m with
  | operate op =>
    refine (op.holds_run s.service s.connection s.now h).imp_right ?_
    exact fun ⟨hop, hanswer⟩ => ⟨op, rfl, hop, hanswer⟩
  | decide message =>
    refine .inl ?_
    rcases s.act_decide_cases message with ⟨_, _, _, _, -, heq⟩ | heq
    · rw [heq] at h
      exact h
    · rw [heq] at h
      rcases s.apply_cases message with hsame | ⟨_, _, _, hreply, happly⟩
      · rw [hsame] at h
        exact h
      · rw [happly] at h
        exact hreply.holds h
  | fail decided =>
    refine .inl ?_
    rw [act] at h
    split at h
    · exact h
    · next fault _ =>
      have hfailed := s.connection.notified_failUpload s.service.limits.framePayload fault.id
        fault.reason
      refine Connection.holds_of_setSlot (fun a ha => ?_) (Connection.holds_of_told hfailed.told h)
      rw [Slot.active_fail] at ha
      cases ha
  | advance milliseconds => exact .inl h

/-- The second moment of a step changes something only if there is an upload to fail. -/
theorem of_step_fail_ne {decided : Nat}
    (h : (s.step (.fail decided)).connection ≠ s.connection) :
    ∃ f ∈ s.faults, f.decided = decided ∧ ∃ a, s.connection.transfers.upload.active = some a := by
  change (s.act (.fail decided)).connection ≠ _ at h
  rw [act] at h
  split at h
  · exact absurd rfl h
  · next fault hfault =>
    obtain ⟨hmem, hdecided⟩ := mem_of_fault? hfault
    cases hactive : s.connection.transfers.upload.active with
    | none => exact absurd (Connection.failUpload_of_free hactive _ _ _) h
    | some a => exact ⟨fault, hmem, hdecided, a, rfl⟩

/-- A step that is between its two moments was so before, or it has just decided about the upload
that is in the slot. -/
theorem mem_faults_step {m : Moment} {f : Fault} (h : f ∈ (s.step m).faults) :
    f ∈ s.faults ∨ f.decided = s.past ∧ s.connection.Holds .upload f.id ∧
      (s.step m).connection = s.connection ∧
      ∃ message, m = .decide message ∧ message.subject? = some f.id := by
  change f ∈ (s.act m).faults at h
  cases m with
  | operate op => exact .inl h
  | decide message =>
    rcases s.act_decide_cases message with ⟨id, store, reason, error, hdecision, heq⟩ | heq
    · rw [heq] at h
      rcases List.mem_append.mp h with hold | hnew
      · exact .inl hold
      · cases List.mem_singleton.mp hnew
        obtain ⟨hsubject, hholds, -⟩ := failing_decision hdecision
        refine .inr ⟨rfl, hholds, ?_, message, rfl, hsubject⟩
        show (s.act (.decide message)).connection = _
        rw [heq]
    · rw [heq] at h
      rcases s.apply_cases message with hsame | ⟨_, _, _, -, happly⟩
      · rw [hsame] at h
        exact .inl h
      · rw [happly] at h
        exact .inl h
  | fail decided =>
    rw [act] at h
    split at h
    · exact .inl h
    · exact .inl (List.mem_filter.mp h).1
  | advance milliseconds => exact .inl h

/-- A moment leaves the upload, or it belongs to a step on a message about it, or it is the second
one of a step. -/
theorem passes_step (s : Shared) (m : Moment) :
    s.connection.transfers.upload.Passes (s.step m).connection.transfers.upload ∨
      ∃ a, s.connection.transfers.upload.active = some a ∧
        ((∃ message, (m = .operate (.handle message) ∨ m = .decide message) ∧
          message.subject? = some a.state.id) ∨
        ∃ fault, m = .fail fault.decided ∧ fault ∈ s.faults) := by
  show Slot.Passes _ (s.act m).connection.transfers.upload ∨ _
  cases m with
  | operate op =>
    refine (op.passes_or_subject s.service s.connection s.now).imp_right ?_
    rintro ⟨message, a, rfl, hactive, hsubject⟩
    exact ⟨a, hactive, .inl ⟨message, .inl rfl, hsubject⟩⟩
  | decide message =>
    rcases s.act_decide_cases message with ⟨_, _, _, _, -, heq⟩ | heq
    · rw [heq]
      exact .inl (.refl _)
    · rw [heq]
      rcases s.apply_cases message with hsame | ⟨_, _, _, hreply, happly⟩
      · rw [hsame]
        exact .inl (.refl _)
      · rw [happly]
        refine hreply.passes_or_targets.imp_right ?_
        rintro ⟨a, htarget⟩
        exact ⟨a, htarget.active, .inl ⟨message, .inr rfl, htarget.subject⟩⟩
  | fail decided =>
    by_cases hsame : (s.step (.fail decided)).connection = s.connection
    · change (s.act (.fail decided)).connection = _ at hsame
      rw [hsame]
      exact .inl (.refl _)
    · obtain ⟨fault, hmem, rfl, a, hactive⟩ := of_step_fail_ne hsame
      exact .inr ⟨a, hactive, .inr ⟨fault, rfl, hmem⟩⟩
  | advance milliseconds => exact .inl (.refl _)

-- With nothing in between, the moments of a step are the operation that handles its message.

theorem fault?_of_past (h : ∀ f ∈ s.faults, f.decided < s.past) : s.fault? s.past = none := by
  rw [fault?, List.find?_eq_none]
  intro f hf heq
  exact absurd (of_decide_eq_true heq) (Nat.ne_of_lt (h f hf))

theorem step_handle_of_apply {service : TransferService} {connection : Connection}
    {result : Except TransferError TransferState}
    (h : s.service.apply (s.connection.sweep s.service.limits s.now).1 s.now message =
      some (service, connection, result)) :
    s.step (.operate (.handle message)) = { s with service, connection, past := s.past + 1 } := by
  rw [step, act, Operation.run, s.service.handle_of_apply s.connection s.now h]

/-- What is found in one moment and failed in the next leaves no step between its moments. -/
theorem step_fail_last (h : ∀ f ∈ s.faults, f.decided < s.past) (id : UInt32)
    (reason : FailureReason) :
    ({ s with faults := s.faults ++ [⟨s.past, id, reason⟩] } : Shared).act (.fail s.past) =
      { s with connection :=
        s.connection.failUpload s.service.limits.framePayload id reason } := by
  have hfault : ({ s with faults := s.faults ++ [⟨s.past, id, reason⟩] } : Shared).fault? s.past =
      some ⟨s.past, id, reason⟩ := by
    show (s.faults ++ [_]).find? _ = _
    rw [List.find?_append, show s.faults.find? _ = none from fault?_of_past h]
    rw [Option.none_or, List.find?_cons_of_pos (by simp)]
  have hfaults : (s.faults ++ [(⟨s.past, id, reason⟩ : Fault)]).filter (·.decided ≠ s.past) =
      s.faults := by
    rw [List.filter_append, List.filter_cons_of_neg (by simp), List.filter_nil, List.append_nil]
    exact List.filter_eq_self.mpr fun f hf => decide_eq_true (Nat.ne_of_lt (h f hf))
  rw [act, hfault]
  dsimp only
  rw [hfaults]

/-- With nothing in between, a sweep, a decision and a failure make up the whole operation. -/
theorem step_sections (s : Shared) (h : ∀ f ∈ s.faults, f.decided < s.past)
    (message : ClientMessage) :
    ((s.step (.operate .sweep)).act (.decide message)).act (.fail (s.past + 1)) =
      s.step (.operate (.handle message)) := by
  obtain ⟨service, c, now, past, faults⟩ := s
  let swept : Shared := ⟨service, (c.sweep service.limits now).1, now, past + 1, faults⟩
  show (swept.act (.decide message)).act (.fail swept.past) = _
  have hpast : ∀ f ∈ swept.faults, f.decided < swept.past := fun f hf => Nat.lt_succ_of_lt (h f hf)
  rcases swept.act_decide_cases message with ⟨id, store, reason, error, hdecision, heq⟩ | heq
  · obtain ⟨-, -, happly⟩ := failing_decision hdecision
    rw [heq, step_handle_of_apply happly]
    exact step_fail_last (s := { swept with service := { service with store } }) hpast id reason
  · have hnothing (next : Shared) (hfaults : next.faults = swept.faults) :
        next.act (.fail swept.past) = next := by
      rw [act, fault?, hfaults, ← fault?, fault?_of_past hpast]
    rw [heq]
    cases happly : service.apply (c.sweep service.limits now).1 now message with
    | none =>
      have hsame : swept.apply message = swept := by
        rw [apply, happly]
      rw [hsame, hnothing swept rfl, step, act, Operation.run, TransferService.handle]
      dsimp only
      rw [happly]
    | some applied =>
      have hnext : swept.apply message =
          { swept with service := applied.1, connection := applied.2.1 } := by
        rw [apply, happly]
      rw [hnext, step_handle_of_apply happly]
      exact hnothing { swept with service := applied.1, connection := applied.2.1 } rfl

end Moments

-- ---------------------------------------------------------------------------
-- Schedules
-- ---------------------------------------------------------------------------

/-- The moment belongs to a step on a message that carries the given id, in a schedule that has come
to this moment. -/
inductive Carries (history : List Moment) : Moment → UInt32 → Prop where
  | whole {message : ClientMessage} {id : UInt32} (subject : message.subject? = some id) :
      Carries history (.operate (.handle message)) id
  | first {message : ClientMessage} {id : UInt32} (subject : message.subject? = some id) :
      Carries history (.decide message) id
  | second {decided : Nat} {message : ClientMessage} {id : UInt32}
      (decision : history[decided]? = some (.decide message))
      (subject : message.subject? = some id) : Carries history (.fail decided) id

/-- The schedule begins the upload with the given id after the given moment. -/
def Begins (s : Shared) (history : List Moment) (decided : Nat) (id : UInt32) : Prop :=
  ∃ before op later, history = before ++ .operate op :: later ∧ decided < before.length ∧
    op.isInitiation = true ∧
    Answers (op.run (s.run before).service (s.run before).connection (s.run before).now).2.2
      .upload id

theorem Begins.append {s : Shared} {history : List Moment} {decided : Nat} {id : UInt32}
    (h : s.Begins history decided id) (m : Moment) : s.Begins (history ++ [m]) decided id := by
  obtain ⟨before, op, later, rfl, hlt, hop, hanswer⟩ := h
  exact ⟨before, op, later ++ [m], by simp, hlt, hop, hanswer⟩

/-- What is known of a step that is between its two moments: which message it is about; and that the
slot is free, or holds the upload that the message is about, or one that has begun since. -/
structure Agrees (s : Shared) (history : List Moment) (f : Fault) : Prop where
  decided : ∃ message, history[f.decided]? = some (.decide message) ∧
    message.subject? = some f.id
  upload : ∀ id, (s.run history).connection.Holds .upload id →
    id = f.id ∨ s.Begins history f.decided id

/-- What the slot holds when the second moment of a step comes. -/
theorem Agrees.cause {s : Shared} {history : List Moment} {f : Fault} {id : UInt32}
    (h : s.Agrees history f) (hid : (s.run history).connection.Holds .upload id) :
    Carries history (.fail f.decided) id ∨ s.Begins history f.decided id := by
  obtain ⟨message, hdecision, hsubject⟩ := h.decided
  rcases h.upload id hid with rfl | hbegins
  · exact .inl (.second hdecision hsubject)
  · exact .inr hbegins

theorem run_append (s : Shared) (history : List Moment) (m : Moment) :
    s.run (history ++ [m]) = (s.run history).step m :=
  List.foldl_concat ..

theorem past_run (s : Shared) (history : List Moment) :
    (s.run history).past = s.past + history.length := by
  induction history using List.reverseRecOn with
  | nil => rfl
  | append_singleton history m ih =>
    rw [run_append, List.length_append, ← Nat.add_assoc, ← ih]
    rfl

/-- Every step that is between its moments agrees with the schedule. -/
theorem agrees_run (service : TransferService) (c : Connection) (now : Nat)
    (history : List Moment) :
    ∀ f ∈ ((start service c now).run history).faults, (start service c now).Agrees history f := by
  induction history using List.reverseRecOn with
  | nil => exact fun f hf => nomatch hf
  | append_singleton history m ih =>
    intro f hf
    rw [run_append] at hf
    rcases mem_faults_step hf with hold | ⟨hdecided, hholds, hconnection, message, rfl, hsubject⟩
    · obtain ⟨⟨message, hmessage, hsubject⟩, hupload⟩ := ih f hold
      have hlt : f.decided < history.length := (List.getElem?_eq_some_iff.mp hmessage).1
      refine ⟨⟨message, by rwa [List.getElem?_append_left hlt], hsubject⟩, fun id hid => ?_⟩
      rw [run_append] at hid
      rcases holds_step hid with hbefore | ⟨op, rfl, hop, hanswer⟩
      · exact (hupload id hbefore).imp_right fun hbegins => hbegins.append m
      · exact .inr ⟨history, op, [], rfl, hlt, hop, hanswer⟩
    · rw [past_run] at hdecided
      have hlast : f.decided = history.length := hdecided.trans (Nat.zero_add _)
      refine ⟨⟨message, by rw [hlast, List.getElem?_concat_length], hsubject⟩, fun id hid => ?_⟩
      rw [run_append, hconnection] at hid
      -- a slot holds one upload, and the decision was about it
      obtain ⟨a, ha, rfl⟩ := hid
      obtain ⟨b, hb, hid⟩ := hholds
      cases ha.symm.trans hb
      exact .inl hid

end Shared

/-- In every schedule, from any connection: an upload fails, other than by a timeout, in a moment of
a step on a message that carries its id, or in the second moment of a step and was begun after the
first. The second moment of a step changes nothing unless the slot holds the upload that the message
is about, or one that was begun since. -/
theorem upload_fails_for_cause (service : TransferService) (c : Connection) (now : Nat)
    (history : List Moment) (m : Moment) (s : Shared)
    (hs : (Shared.start service c now).run history = s) :
    (∀ a reason, s.connection.transfers.upload.Fails (s.step m).connection.transfers.upload a reason →
      reason ≠ .timeout →
      Shared.Carries history m a.state.id ∨ ∃ decided, m = .fail decided ∧
        (Shared.start service c now).Begins history decided a.state.id) ∧
    ∀ decided, m = .fail decided → (s.step m).connection ≠ s.connection →
      ∃ id, s.connection.Holds .upload id ∧
        (Shared.Carries history m id ∨ (Shared.start service c now).Begins history decided id) := by
  subst hs
  constructor
  · intro a reason hfails hreason
    rcases Shared.passes_step _ m with hpasses | ⟨b, hactive, hcause⟩
    · exact absurd (hpasses.reason_eq hfails) hreason
    · cases hactive.symm.trans hfails.active
      rcases hcause with ⟨message, rfl | rfl, hsubject⟩ | ⟨fault, rfl, hfault⟩
      · exact .inl (.whole hsubject)
      · exact .inl (.first hsubject)
      · have hagrees := Shared.agrees_run service c now history fault hfault
        exact (hagrees.cause ⟨a, hactive, rfl⟩).imp_right fun hbegins => ⟨_, rfl, hbegins⟩
  · rintro decided rfl hchanged
    obtain ⟨fault, hfault, rfl, a, hactive⟩ := Shared.of_step_fail_ne hchanged
    have hagrees := Shared.agrees_run service c now history fault hfault
    exact ⟨a.state.id, ⟨a, hactive, rfl⟩, hagrees.cause ⟨a, hactive, rfl⟩⟩

/-- A client sends more than it has told.  A sweep comes between the two moments, and the upload
fails because of that message. -/
theorem upload_fails_for_cause_swept :
    let service : TransferService := ⟨⟨100, 1000, 256⟩, .memory .empty, 1⟩
    let c := Connection.new 1 "Ann" ⟨.mac, 1, true⟩ (.new 8) 4
    let history : List Moment := [.operate .initiateUpload,
      .operate (.handle (.uploadPicked 1 "a.txt")), .operate (.handle (.uploadStats 1 2)),
      .decide (.uploadData 1 [1, 2, 3]), .operate .sweep]
    let start := Shared.start service c 0
    let s := start.run history
    let m : Moment := .fail 3
    ∃ a, s.connection.transfers.upload.Fails (s.step m).connection.transfers.upload a
        (.sizeLimitExceeded 2 3) ∧
      (Shared.Carries history m a.state.id ∨
        ∃ decided, m = .fail decided ∧ start.Begins history decided a.state.id) := by
  intro service c history start s m
  have hstate : s.connection.transfers.upload.active.any (fun a =>
      (s.step m).connection.transfers.upload.active = none ∧
      (s.step m).connection.transfers.upload.last = some { a.state with
        status := .failed, failure := some (.sizeLimitExceeded 2 3) }) = true := by
    decide +kernel
  obtain ⟨a, hactive, hfailed⟩ := (Option.any_eq_true _ _).mp hstate
  obtain ⟨hgone, hlast⟩ := of_decide_eq_true hfailed
  have hfails : s.connection.transfers.upload.Fails (s.step m).connection.transfers.upload a
      (.sizeLimitExceeded 2 3) := by
    refine ⟨hactive, fun next hnext => ?_, hlast⟩
    cases hgone.symm.trans hnext
  have hreason : FailureReason.sizeLimitExceeded 2 3 ≠ .timeout := by decide
  obtain ⟨hcause, -⟩ := upload_fails_for_cause service c 0 history m s rfl
  exact ⟨a, hfails, hcause a (.sizeLimitExceeded 2 3) hfails hreason⟩

/-- Upload 1 is decided to fail, the host calls it off and asks for another file, and then the step
on upload 1 fails upload 2, which no message has been about. -/
theorem upload_fails_for_another :
    let service : TransferService := ⟨⟨100, 1000, 256⟩, .memory .empty, 1⟩
    let c := Connection.new 1 "Ann" ⟨.mac, 1, true⟩ (.new 8) 4
    let history : List Moment := [.operate .initiateUpload,
      .operate (.handle (.uploadPicked 1 "a.txt")), .operate (.handle (.uploadStats 1 2)),
      .decide (.uploadData 1 [1, 2, 3]), .operate (.cancel .upload), .operate .initiateUpload]
    let s := (Shared.start service c 0).run history
    s.connection.transfers.active .upload =
        some { TransferState.new 2 .upload "" 0 0 with status := .awaitingFilePick } ∧
      (s.step (.fail 3)).connection.transfers.last .upload =
        some { TransferState.new 2 .upload "" 0 0 with
          status := .failed, failure := some (.sizeLimitExceeded 2 3) } ∧
      (s.step (.fail 3)).connection.transfers.active .upload = none ∧
      ¬Shared.Carries history (.fail 3) 2 := by
  intro service c history s
  refine ⟨by decide +kernel, by decide +kernel, by decide +kernel, ?_⟩
  rintro (_ | _ | ⟨hdecision, hsubject⟩)
  cases hdecision
  cases hsubject

end Transfers

end Switchboard
