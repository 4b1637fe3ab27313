import Switchboard.Proofs.Transfer.Message

/-!
# Connections that have been closed

Closing a connection cancels what is in its slots.  Other parts of the server may still hold the
connection and operate on it; of these operations only initiations put a transfer into a slot, and
they do so whether the connection is closed or not.

Main results:

* `Operation.holds_run`: a transfer in a slot was there before, or an initiation has just begun it.
* `held_after_close`: in every run a connection stays closed, and every transfer that it holds was
  begun by an initiation after it was closed.
* `download_begins_on_closed`: such an initiation is not refused.
-/

namespace Switchboard

namespace Connection

/-- The transfer with the given id is in the slot for a direction. -/
def Holds (c : Connection) (direction : Direction) (id : UInt32) : Prop :=
  ∃ a, (c.transfers.slot direction).active = some a ∧ a.state.id = id

/-- Neither slot holds a transfer. -/
def IsFree (c : Connection) : Prop :=
  ∀ direction, (c.transfers.slot direction).active = none

variable {c : Connection} {direction : Direction} {id : UInt32}

theorem not_holds_of_active (h : (c.transfers.slot direction).active = none) :
    ¬c.Holds direction id := by
  rintro ⟨a, ha, -⟩
  cases h.symm.trans ha

theorem isFree_of_not_holds (h : ∀ direction id, ¬c.Holds direction id) : c.IsFree := by
  intro direction
  rw [Option.eq_none_iff_forall_ne_some]
  exact fun a ha => h direction a.state.id ⟨a, ha, rfl⟩

/-- Closing a connection frees its slots. -/
theorem isFree_close (c : Connection) : c.close.IsFree := by
  intro direction
  cases direction with
  | download => exact c.transfers.download.active_finish .cancelled
  | upload => exact c.transfers.upload.active_finish .cancelled

/-- What is in a slot after it was replaced is in the new slot, or in the other slot as before. -/
theorem holds_of_setSlot {other : Direction} {slot : Slot}
    (hslot : ∀ a, slot.active = some a → c.Holds other a.state.id)
    (h : (c.setSlot other slot).Holds direction id) : c.Holds direction id := by
  obtain ⟨a, ha, rfl⟩ := h
  cases direction <;> cases other
  · exact hslot a ha
  · exact ⟨a, ha, rfl⟩
  · exact ⟨a, ha, rfl⟩
  · exact hslot a ha

theorem holds_of_told {after : Connection} (htold : Told c after) (h : after.Holds direction id) :
    c.Holds direction id := by
  rw [Holds, htold.transfers] at h
  exact h

/-- A slot that is as it was or free holds nothing new. -/
theorem holds_of_active_or {after : Connection}
    (hactive : (after.transfers.slot direction).active = (c.transfers.slot direction).active ∨
      (after.transfers.slot direction).active = none)
    (h : after.Holds direction id) : c.Holds direction id := by
  rcases hactive with hsame | hnone
  · rw [Holds, hsame] at h
    exact h
  · exact absurd h (not_holds_of_active hnone)

theorem holds_of_sweep {limits : TransferLimits} {now : Nat}
    (h : (c.sweep limits now).1.Holds direction id) : c.Holds direction id :=
  holds_of_active_or (c.active_sweep_or limits now direction) h

/-- A burst begins nothing. -/
theorem holds_of_flush {now : Nat} (h : (c.flush now).1.Holds direction id) :
    c.Holds direction id := by
  rcases c.transfers_flush now with hsame | ⟨touched, htouched⟩
  · rw [Holds, hsame] at h
    exact h
  · rw [Holds, htouched] at h
    -- activity is noted on the download, and its id stays
    refine holds_of_setSlot (fun a ha => ?_) h
    rcases (Slot.lingers_touch c.transfers.download touched).active with
      hsame | hnone | ⟨before, hbefore, -, hafter⟩
    · exact ⟨a, hsame.symm.trans ha, rfl⟩
    · cases hnone.symm.trans ha
    · cases hafter.symm.trans ha
      exact ⟨before, hbefore, rfl⟩

end Connection

namespace Transfers

variable {service after : TransferService} {c final : Connection} {now : Nat}
  {message : ClientMessage} {result : Except TransferError TransferState} {direction : Direction}
  {id : UInt32}

-- ---------------------------------------------------------------------------
-- Operations
-- ---------------------------------------------------------------------------

/-- A reply puts no transfer into a slot. -/
theorem Reply.holds (h : Reply service c now message after final result)
    (hholds : final.Holds direction id) : c.Holds direction id := by
  cases h with
  | unknown => exact hholds
  | unexpected => exact hholds
  | failed _ _ _ hnotified =>
    refine Connection.holds_of_setSlot (fun a ha => ?_)
      (Connection.holds_of_told hnotified.told hholds)
    rw [Slot.active_fail] at ha
    cases ha
  | ended =>
    refine Connection.holds_of_setSlot (fun a ha => ?_) hholds
    rw [Slot.active_finish] at ha
    cases ha
  | moved htarget hmove hnotified | unsaid _ htarget hmove hnotified =>
    refine Connection.holds_of_setSlot (fun a ha => ?_)
      (Connection.holds_of_told hnotified.told hholds)
    cases ha
    exact ⟨_, htarget.active, hmove.id_eq.symm⟩
  | accepted htarget _ _ _ hqueued =>
    refine Connection.holds_of_setSlot (fun a ha => ?_)
      (Connection.holds_of_told hqueued.told hholds)
    cases ha
    exact ⟨_, htarget.active, rfl⟩

/-- An answer that gives a transfer with an id in a direction. -/
def Answers (answer : Except TransferError (Option TransferState)) (direction : Direction)
    (id : UInt32) : Prop :=
  ∃ state, answer = .ok (some state) ∧ state.direction = direction ∧ state.id = id

/-- A new transfer that takes its slot is the one in the answer. -/
theorem holds_of_begun {state : TransferState} {cargo : Cargo} {slot : Slot}
    (hnotified : Connection.Notified
      (c.setSlot state.direction { slot with active := some ⟨state, cargo⟩ }) final)
    (h : final.Holds direction id) :
    c.Holds direction id ∨ Answers (.ok (some state)) direction id := by
  have hset := Connection.holds_of_told hnotified.told h
  by_cases hanswer : state.direction = direction ∧ state.id = id
  · exact .inr ⟨state, rfl, hanswer⟩
  · obtain ⟨a, ha, rfl⟩ := hset
    refine .inl ?_
    generalize state.direction = other at *
    cases direction <;> cases other
    · cases ha
      exact absurd ⟨rfl, rfl⟩ hanswer
    · exact ⟨a, ha, rfl⟩
    · exact ⟨a, ha, rfl⟩
    · cases ha
      exact absurd ⟨rfl, rfl⟩ hanswer

namespace Operation

/-- A transfer in a slot after an operation was there before, or the operation is an initiation that
has just begun it. -/
theorem holds_run (op : Operation) (service : TransferService) (c : Connection) (now : Nat)
    (h : (op.run service c now).2.1.Holds direction id) :
    c.Holds direction id ∨
      op.isInitiation = true ∧ Answers (op.run service c now).2.2 direction id := by
  cases op with
  | initiateDownload filename data =>
    rw [run] at h ⊢
    dsimp only at h ⊢
    rcases service.initiateDownload_cases c now filename data with
      ⟨after, final, error, heq, -, hqueued⟩ | ⟨final, state, heq, rfl, hnotified, -⟩
    · rw [heq] at h
      exact .inl (Connection.holds_of_sweep (Connection.holds_of_told hqueued.told h))
    · rw [heq] at h ⊢
      exact (holds_of_begun hnotified h).imp Connection.holds_of_sweep fun hanswer => ⟨rfl, hanswer⟩
  | initiateUpload =>
    rw [run, TransferService.initiateUpload] at h ⊢
    dsimp only at h ⊢
    rcases service.start_cases (c.sweep service.limits now).1 now .upload .awaitingFilePick
      .uploadPicker [] "" 0 (.incoming []) with
      ⟨after, final, error, heq, -, hqueued⟩ | ⟨final, state, heq, rfl, hnotified, -⟩
    · rw [heq] at h
      exact .inl (Connection.holds_of_sweep (Connection.holds_of_told hqueued.told h))
    · rw [heq] at h ⊢
      exact (holds_of_begun hnotified h).imp Connection.holds_of_sweep fun hanswer => ⟨rfl, hanswer⟩
  | handle message =>
    have hswept : (c.sweep service.limits now).1.Holds direction id := by
      rw [run] at h
      rcases service.handle_cases c now message with ⟨-, heq⟩ | ⟨after, final, result, hreply, heq⟩
      · rw [heq] at h
        exact h
      · rw [heq] at h
        exact hreply.holds h
    exact .inl (Connection.holds_of_sweep hswept)
  | cancel cancelled =>
    have hactive := c.active_cancelTransfer service.limits now cancelled direction
    exact .inl (Connection.holds_of_sweep (Connection.holds_of_active_or hactive h))
  | sweep => exact .inl (Connection.holds_of_sweep h)
  | report => exact .inl (Connection.holds_of_sweep h)
  | clearFailed =>
    refine .inl (Connection.holds_of_active_or (.inl ?_) h)
    cases direction <;> rfl
  | flush => exact .inl (Connection.holds_of_flush h)
  | close => exact absurd h (Connection.not_holds_of_active (c.isFree_close direction))
  | send chunks => exact .inl (Connection.holds_of_told (c.told_send chunks) h)
  | receive count => exact .inl h
  | setRx seq => exact .inl h

end Operation

-- ---------------------------------------------------------------------------
-- Runs
-- ---------------------------------------------------------------------------

namespace World

/-- Among the steps is an initiation on the connection at a position that begins the transfer with
the given id. -/
def Begins (w : World) (position : Nat) (direction : Direction) (id : UInt32) (steps : List Step) :
    Prop :=
  ∃ before op later c, steps = before ++ .operate position op :: later ∧ op.isInitiation = true ∧
    (w.run before).server.connections[position]? = some c ∧
    Answers (op.run (w.run before).server.transfers c (w.run before).now).2.2 direction id

variable {w : World} {position : Nat} {c : Connection} {direction : Direction} {id : UInt32}

theorem Begins.cons {s : Step} {steps : List Step}
    (h : (w.step s).Begins position direction id steps) :
    w.Begins position direction id (s :: steps) := by
  obtain ⟨before, op, later, c, rfl, hop, hc, hanswer⟩ := h
  exact ⟨s :: before, op, later, c, rfl, hop, hc, hanswer⟩

theorem connection_operate (hc : w.server.connections[position]? = some c) (op : Operation) :
    (w.operate position op).server.connections[position]? =
      some (op.run w.server.transfers c w.now).2.1 := by
  rw [connections_operate hc]
  exact List.getElem?_set_self (List.getElem?_eq_some_iff.mp hc).1

/-- A step leaves a connection at its position: as it was, or after an operation on it. -/
theorem connection_step (hc : w.server.connections[position]? = some c) (s : Step) :
    (w.step s).server.connections[position]? = some c ∨
      ∃ op, s = .operate position op ∧ (w.step s).server.connections[position]? =
        some (op.run w.server.transfers c w.now).2.1 := by
  cases s with
  | connect screenName profile outbound burst =>
    have hlt : position < w.server.connections.length := (List.getElem?_eq_some_iff.mp hc).1
    exact .inl ((List.getElem?_append_left hlt).trans hc)
  | advance milliseconds => exact .inl hc
  | operate other op =>
    by_cases heq : other = position
    · subst heq
      exact .inr ⟨op, rfl, connection_operate hc op⟩
    · refine .inl ?_
      show (w.operate other op).server.connections[position]? = _
      cases hother : w.server.connections[other]? with
      | none =>
        rw [operate_of_none hother]
        exact hc
      | some d =>
        rw [connections_operate hother, List.getElem?_set_ne heq]
        exact hc

/-- A step leaves a closed connection closed, and what it holds afterwards it held before or has
just begun. -/
theorem holds_step (hc : w.server.connections[position]? = some c) (s : Step) :
    ∃ next, (w.step s).server.connections[position]? = some next ∧
      (c.pacer.closed = true → next.pacer.closed = true) ∧
      ∀ direction id, next.Holds direction id →
        c.Holds direction id ∨ w.Begins position direction id [s] := by
  rcases connection_step hc s with hsame | ⟨op, rfl, hnext⟩
  · exact ⟨c, hsame, id, fun direction id h => .inl h⟩
  · refine ⟨_, hnext, op.closed_run w.server.transfers c w.now, fun direction id h => ?_⟩
    refine (op.holds_run w.server.transfers c w.now h).imp_right ?_
    rintro ⟨hop, hanswer⟩
    exact ⟨[], op, [], c, rfl, hop, hc, hanswer⟩

/-- So does a run. -/
theorem holds_run (hc : w.server.connections[position]? = some c) (steps : List Step) :
    ∃ final, (w.run steps).server.connections[position]? = some final ∧
      (c.pacer.closed = true → final.pacer.closed = true) ∧
      ∀ direction id, final.Holds direction id →
        c.Holds direction id ∨ w.Begins position direction id steps := by
  induction steps generalizing w c with
  | nil => exact ⟨c, hc, id, fun direction id h => .inl h⟩
  | cons s rest ih =>
    obtain ⟨next, hnext, hclosed, hstep⟩ := holds_step hc s
    obtain ⟨final, hfinal, hclosed', hrest⟩ := ih hnext
    refine ⟨final, hfinal, hclosed' ∘ hclosed, fun direction id h => ?_⟩
    rcases hrest direction id h with hnext | hbegins
    · refine (hstep direction id hnext).imp_right ?_
      rintro ⟨before, op, later, d, hsplit, hop, hd, hanswer⟩
      exact ⟨before, op, later ++ rest, d, by rw [← List.singleton_append, hsplit]; simp, hop, hd,
        hanswer⟩
    · exact .inr hbegins.cons

end World

/-- From when it is closed a connection stays closed, whatever happens to it and to others.  Every
transfer that it holds later was begun by an initiation on it after it was closed; without one its
slots stay free. -/
theorem held_after_close (w : World) (position : Nat) (c : Connection)
    (hc : w.server.connections[position]? = some c) (steps : List Step) :
    ∃ final, ((w.step (.operate position .close)).run steps).server.connections[position]? =
        some final ∧
      final.isClosed = true ∧
      (∀ direction id, final.Holds direction id →
        (w.step (.operate position .close)).Begins position direction id steps) ∧
      ((∀ op, .operate position op ∈ steps → op.isInitiation = false) → final.IsFree) := by
  obtain ⟨final, hfinal, hclosed, hholds⟩ :=
    World.holds_run (World.connection_operate hc .close) steps
  have hbegins (direction : Direction) (id : UInt32) (h : final.Holds direction id) :
      (w.step (.operate position .close)).Begins position direction id steps := by
    refine (hholds direction id h).resolve_left ?_
    exact Connection.not_holds_of_active (c.isFree_close direction)
  refine ⟨final, hfinal, ?_, hbegins, fun hquiet => Connection.isFree_of_not_holds ?_⟩
  · rw [Connection.isClosed, hclosed rfl]
    rfl
  · rintro direction id h
    obtain ⟨before, op, later, d, rfl, hop, -⟩ := hbegins direction id h
    have hquiet := hquiet op (List.mem_append_right _ List.mem_cons_self)
    rw [hop] at hquiet
    cases hquiet

/-- A client hangs up while it is asked for a file.  Its slots are free when it has been heard and
swept once more; then the host announces a download, and no other transfer is there. -/
theorem held_after_close_asked :
    let w := (World.start ⟨4, 8⟩ ⟨100, 1000, 256⟩ (.ofNames []) (.memory .empty)).run
      [.connect "Ann" ⟨.mac, 1, true⟩ (.new 8) 4, .operate 0 .initiateUpload]
    let quiet : List Step := [.operate 0 (.handle (.uploadPicked 1 "a.txt")), .operate 0 .sweep]
    let busy : List Step := quiet ++ [.operate 0 (.initiateDownload "b.txt" [1])]
    ∃ c, w.server.connections[0]? = some c ∧ c.Holds .upload 1 ∧
      (∃ final, ((w.step (.operate 0 .close)).run quiet).server.connections[0]? = some final ∧
        final.IsFree) ∧
      ∃ final, ((w.step (.operate 0 .close)).run busy).server.connections[0]? = some final ∧
        final.Holds .download 2 ∧
        ∀ direction id, final.Holds direction id →
          (w.step (.operate 0 .close)).Begins 0 direction id busy := by
  intro w quiet busy
  have hasked : ∃ c, w.server.connections[0]? = some c ∧
      c.transfers.upload.active.any (·.state.id = 1) = true := by
    decide +kernel
  have hannounced : ∃ c, ((w.step (.operate 0 .close)).run busy).server.connections[0]? = some c ∧
      c.transfers.download.active.any (·.state.id = 2) = true := by
    decide +kernel
  clear_value w
  obtain ⟨c, hc, hupload⟩ := hasked
  obtain ⟨announced, hannounced, hdownload⟩ := hannounced
  obtain ⟨free, hfree, -, -, hquiet⟩ := held_after_close w 0 c hc quiet
  obtain ⟨final, hfinal, -, hbegins, -⟩ := held_after_close w 0 c hc busy
  cases hannounced.symm.trans hfinal
  refine ⟨c, hc, any_id_iff.mp hupload, ⟨free, hfree, hquiet ?_⟩, announced, hannounced,
    any_id_iff.mp hdownload, hbegins⟩
  intro op hop
  rcases List.mem_pair.mp hop with h | h <;> cases h <;> rfl

/-- An initiation is not refused because the connection is closed: the slots do not stay free. -/
theorem download_begins_on_closed :
    let steps : List Step := [.connect "Ann" ⟨.mac, 1, true⟩ (.new 8) 4, .operate 0 .close,
      .operate 0 (.initiateDownload "a.txt" [104, 101, 108, 108, 111])]
    let w := (World.start ⟨4, 8⟩ ⟨100, 1000, 256⟩ (.ofNames []) (.memory .empty)).run steps
    ∃ c, w.server.connections[0]? = some c ∧ c.closing = true ∧ c.isClosed = true ∧
      c.transfers.active .download = some { TransferState.new 1 .download "a.txt" 5 0 with
        status := .awaitingAck } := by
  decide +kernel

end Transfers

end Switchboard
