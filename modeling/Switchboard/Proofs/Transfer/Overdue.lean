import Switchboard.Proofs.Dispatch.Operation
import Switchboard.Proofs.Transfer.Closed

/-!
# Overdue transfers

Nothing happens to a transfer by itself when it has been idle for too long: it stays in its slot as it
is, until something is done on its connection.  Whatever that is, the transfer does not move on.  It
fails with a timeout, or is cancelled because the connection is closed.  There is one exception: a
burst looks at no clock, and a segment of an overdue download that leaves in it counts as activity.

Main results:

* `Operation.overdue_run`: what an operation can do to an overdue transfer.
* `overdue_unchanged_until_ended`: an overdue transfer is left as it is by every step of a run until
  one of these operations.
* `overdue_download_completes`: the exception is real.
-/

namespace Switchboard.Transfers

-- ---------------------------------------------------------------------------
-- One operation
-- ---------------------------------------------------------------------------

/-- What an operation can do to an overdue transfer, if it does not leave it as it is. -/
inductive OverdueChange (op : Operation) (service : TransferService) (now : Nat)
    (before after : Connection) (direction : Direction) (a : ActiveTransfer) : Prop where
  /-- The transfer has failed and left the slot, which a new one may have taken. -/
  | timedOut (swept : op.sweeps = true)
      (failed : { after.transfers.slot direction with active := none } =
        let failed := { a.state with status := .failed, failure := some .timeout }
        ⟨none, some failed, Slot.remember (before.transfers.slot direction).failed failed⟩)
      (replaced : ∀ b, (after.transfers.slot direction).active = some b →
        op.isInitiation = true ∧ b.state.id = service.nextId)
  | cancelled (closed : op = .close)
      (slot : after.transfers.slot direction = { before.transfers.slot direction with
        active := none, last := some { a.state with status := .cancelled } })
  /-- One of its segments was the last to leave in a burst. -/
  | touched (flushed : op = .flush) (download : direction = .download)
      (status : a.state.status = .streaming)
      (left : Connection.lastSegmentId?
        (before.pacer.drain before.outbound before.pacer.burst).2.2 = some a.state.id)
      (slot : after.transfers.slot direction = { before.transfers.slot direction with
        active := some { a with state := { a.state with lastActivity := now } } })

variable {service : TransferService} {c : Connection} {now : Nat} {direction : Direction}
  {a : ActiveTransfer}

/-- A burst leaves a transfer as it is, or it notes activity on it. -/
theorem overdue_flush (hactive : (c.transfers.slot direction).active = some a) :
    ((c.flush now).1.transfers.slot direction).active = some a ∨
      OverdueChange .flush service now c (c.flush now).1 direction a := by
  cases hleft : Connection.lastSegmentId? (c.pacer.drain c.outbound c.pacer.burst).2.2 with
  | none =>
    have hflush : (c.flush now).1.transfers = c.transfers := by
      unfold Connection.flush
      dsimp only
      rw [hleft]
    rw [hflush]
    exact .inl hactive
  | some id =>
    have hflush : (c.flush now).1.transfers = (c.transfers.touch now .download id).1 := by
      unfold Connection.flush
      dsimp only
      rw [hleft]
    cases direction with
    | upload =>
      rw [hflush]
      exact .inl hactive
    | download =>
      have hslot : (c.flush now).1.transfers.slot .download =
          (c.transfers.download.touch now id).1 := by
        rw [hflush]
        rfl
      have hdownload : c.transfers.download.active = some a := hactive
      rw [Slot.touch, hdownload] at hslot
      dsimp only at hslot
      split at hslot
      · next hstreaming =>
        obtain ⟨rfl, hstatus⟩ := hstreaming
        exact .inr (.touched rfl rfl hstatus hleft hslot)
      · rw [hslot]
        exact .inl hactive

/-- An operation leaves an overdue transfer as it is, or makes one of the changes. -/
theorem Operation.overdue_run (op : Operation)
    (hactive : (c.transfers.slot direction).active = some a)
    (hoverdue : service.limits.timeout ≤ now - a.state.lastActivity) :
    ((op.run service c now).2.1.transfers.slot direction).active = some a ∨
      OverdueChange op service now c (op.run service c now).2.1 direction a := by
  by_cases hop : op.sweeps = true
  · refine .inr ?_
    -- the sweep fails the transfer, and whatever follows finds a free slot
    have hswept := (c.expired_sweep service.limits now).idle direction a hactive hoverdue
    rw [Slot.fail_of_active hactive] at hswept
    obtain ⟨ended, ds, heffect⟩ := Operation.effect hop service c now
    obtain ⟨hslot, -, hreplaced⟩ := (heffect.slots direction).of_free (by rw [hswept])
    exact .timedOut hop (hslot.trans hswept) hreplaced
  · cases op with
    | initiateDownload | initiateUpload | handle | cancel | sweep | report => exact absurd rfl hop
    | clearFailed =>
      refine .inl ?_
      cases direction <;> exact hactive
    | flush => exact overdue_flush hactive
    | close =>
      refine .inr (.cancelled rfl ?_)
      have hslot : c.close.transfers.slot direction =
          ((c.transfers.slot direction).finish .cancelled).1 := by
        cases direction <;> rfl
      rw [Slot.finish_of_active hactive] at hslot
      exact hslot
    | send chunks =>
      refine .inl ?_
      show ((c.send chunks).transfers.slot direction).active = _
      rw [(c.told_send chunks).transfers]
      exact hactive
    | receive count => exact .inl hactive
    | setRx seq => exact .inl hactive

-- ---------------------------------------------------------------------------
-- Runs
-- ---------------------------------------------------------------------------

namespace World

variable {w : World} {position : Nat}

/-- The transfer is in the slot for a direction of the connection at a position. -/
def Has (w : World) (position : Nat) (direction : Direction) (a : ActiveTransfer) : Prop :=
  ∃ c, w.server.connections[position]? = some c ∧ (c.transfers.slot direction).active = some a

/-- The transfer has been idle for too long. -/
def IsOverdue (w : World) (a : ActiveTransfer) : Prop :=
  w.server.transfers.limits.timeout ≤ w.now - a.state.lastActivity

/-- What is overdue stays so: time does not go back, and the limits stay. -/
theorem IsOverdue.step (h : w.IsOverdue a) (s : Step) : (w.step s).IsOverdue a := by
  cases s with
  | connect screenName profile outbound burst => exact h
  | advance milliseconds => exact Nat.le_trans h (Nat.sub_le_sub_right (Nat.le_add_right ..) _)
  | operate position op =>
    show (w.operate position op).IsOverdue a
    cases hposition : w.server.connections[position]? with
    | none =>
      rw [operate_of_none hposition]
      exact h
    | some c =>
      rw [operate_of_some hposition, IsOverdue]
      show (op.run w.server.transfers c w.now).1.limits.timeout ≤ _
      rw [op.limits_run]
      exact h

end World

/-- In whatever state a transfer is overdue, and whatever happens from then on: it is in its slot, the
same in every field and in its bytes, until an operation on its connection fails it with a timeout,
closes the connection and cancels it with that, or is a burst whose last segment to leave belongs to
it. -/
theorem overdue_unchanged_until_ended (w : World) (position : Nat) (direction : Direction)
    (a : ActiveTransfer) (hhas : w.Has position direction a) (hoverdue : w.IsOverdue a)
    (steps : List Step) :
    (∀ earlier, earlier <+: steps → (w.run earlier).Has position direction a) ∨
    ∃ earlier op later c, steps = earlier ++ .operate position op :: later ∧
      (∀ before, before <+: earlier → (w.run before).Has position direction a) ∧
      (w.run earlier).server.connections[position]? = some c ∧
      OverdueChange op (w.run earlier).server.transfers (w.run earlier).now c
        (op.run (w.run earlier).server.transfers c (w.run earlier).now).2.1 direction a := by
  induction steps generalizing w with
  | nil =>
    refine .inl fun earlier hearlier => ?_
    rw [List.prefix_nil.mp hearlier]
    exact hhas
  | cons s rest ih =>
    have hnil (earlier : List Step) (hearlier : earlier <+: []) :
        (w.run earlier).Has position direction a := by
      rw [List.prefix_nil.mp hearlier]
      exact hhas
    obtain ⟨c, hc, hactive⟩ := hhas
    -- the step leaves the transfer, and the rest of the run follows; or it ends the waiting
    have hnext : (w.step s).Has position direction a ∨
        ∃ op, s = .operate position op ∧ OverdueChange op w.server.transfers w.now c
          (op.run w.server.transfers c w.now).2.1 direction a := by
      rcases World.connection_step hc s with hsame | ⟨op, rfl, hnext⟩
      · exact .inl ⟨c, hsame, hactive⟩
      · rcases op.overdue_run hactive hoverdue with hkept | hchange
        · exact .inl ⟨_, hnext, hkept⟩
        · exact .inr ⟨op, rfl, hchange⟩
    have hcons {steps : List Step} (h : ∀ earlier, earlier <+: steps →
        ((w.step s).run earlier).Has position direction a) (earlier : List Step)
        (hearlier : earlier <+: s :: steps) : (w.run earlier).Has position direction a := by
      cases earlier with
      | nil => exact hnil [] (List.prefix_refl [])
      | cons s' earlier =>
        obtain ⟨rfl, hrest⟩ := List.cons_prefix_cons.mp hearlier
        exact h earlier hrest
    rcases hnext with hhas | ⟨op, rfl, hchange⟩
    · rcases ih (w.step s) hhas (hoverdue.step s) with hall | ⟨earlier, op, later, d, rfl, hbefore, h⟩
      · exact .inl (hcons hall)
      · exact .inr ⟨s :: earlier, op, later, d, rfl, hcons hbefore, h⟩
    · exact .inr ⟨[], op, rest, c, rfl, hnil, hc, hchange⟩

/-- A client is asked for a file and picks one too late: the upload is as it was until then, and fails. -/
theorem overdue_unchanged_until_ended_asked :
    let w := (World.start ⟨4, 8⟩ ⟨100, 1000, 256⟩ (.ofNames []) (.memory .empty)).run
      [.connect "Ann" ⟨.mac, 1, true⟩ (.new 8) 4, .operate 0 .initiateUpload, .advance 1000]
    let steps : List Step := [.operate 0 .flush, .advance 5,
      .operate 0 (.handle (.uploadPicked 1 "a.txt")), .operate 0 .sweep]
    ∃ a, w.Has 0 .upload a ∧ w.IsOverdue a ∧ ¬(w.run steps).Has 0 .upload a ∧
      ∃ earlier op later c, steps = earlier ++ .operate 0 op :: later ∧
        (∀ before, before <+: earlier → (w.run before).Has 0 .upload a) ∧
        (w.run earlier).server.connections[0]? = some c ∧
        OverdueChange op (w.run earlier).server.transfers (w.run earlier).now c
          (op.run (w.run earlier).server.transfers c (w.run earlier).now).2.1 .upload a := by
  intro w steps
  let a : ActiveTransfer := ⟨⟨1, .upload, "", 0, 0, .awaitingFilePick, none, 0⟩, .incoming []⟩
  have hhas : w.Has 0 .upload a := by
    unfold World.Has
    decide +kernel
  have hoverdue : w.IsOverdue a := by
    unfold World.IsOverdue
    decide +kernel
  have hgone : ¬(w.run steps).Has 0 .upload a := by
    unfold World.Has
    decide +kernel
  refine ⟨a, hhas, hoverdue, hgone, ?_⟩
  exact (overdue_unchanged_until_ended w 0 .upload a hhas hoverdue steps).resolve_left fun hall =>
    hgone (hall steps (List.prefix_refl steps))

/-- The exception is real: a download that is overdue goes on when its segments leave in a burst, and is
completed. -/
theorem overdue_download_completes :
    let w := (World.start ⟨4, 8⟩ ⟨100, 1000, 256⟩ (.ofNames []) (.memory .empty)).run
      [.connect "Ann" ⟨.mac, 1, true⟩ (.new 8) 4, .operate 0 (.initiateDownload "a.txt" [1, 2, 3]),
        .operate 0 (.handle (.downloadAck 1)), .advance 1000]
    let a : ActiveTransfer :=
      ⟨⟨1, .download, "a.txt", 3, 3, .streaming, none, 0⟩, .outgoing [1, 2, 3]⟩
    let flushed := w.run [.operate 0 .flush]
    let revived := { a.state with lastActivity := 1000 }
    let confirmed := flushed.run [.operate 0 (.handle (.downloadConfirm 1))]
    w.Has 0 .download a ∧ w.IsOverdue a ∧ flushed.Has 0 .download { a with state := revived } ∧
      ∃ c, confirmed.server.connections[0]? = some c ∧
        c.transfers.last .download = some { revived with status := .completed } := by
  unfold World.Has World.IsOverdue
  decide +kernel

end Switchboard.Transfers
