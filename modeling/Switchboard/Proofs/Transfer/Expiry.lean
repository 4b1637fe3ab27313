import Switchboard.Proofs.Transfer.Slot

/-!
# What sweeping does

A sweep fails the transfers that have been idle for too long, and tells the client about each of them.

Main results:

* `Connection.any_expired_iff`: what a sweep fails are the idle transfers.
* `Connection.expired_sweep`: all that a sweep does to a connection.
-/

namespace Switchboard

namespace Slot

variable {slot : Slot} {now timeout : Nat}

theorem isIdle_iff :
    slot.isIdle now timeout = true ↔
      ∃ a, slot.active = some a ∧ timeout ≤ now - a.state.lastActivity := by
  rw [isIdle, Option.any_eq_true]
  simp only [decide_eq_true_eq]

theorem any_expire {id : UInt32} :
    (slot.expire now timeout).2.toList.any (·.id = id) = true ↔
      ∃ a, slot.active = some a ∧ a.state.id = id ∧ timeout ≤ now - a.state.lastActivity := by
  unfold expire
  split
  · next hidle =>
    obtain ⟨a, hactive, htimeout⟩ := isIdle_iff.mp hidle
    simp [fail_of_active hactive, hactive, htimeout]
  · next hbusy =>
    refine iff_of_false (by simp) ?_
    rintro ⟨a, hactive, -, htimeout⟩
    exact hbusy (isIdle_iff.mpr ⟨a, hactive, htimeout⟩)

end Slot

namespace Connection

variable {c : Connection} {limits : TransferLimits} {now : Nat} {direction : Direction}
  {a : ActiveTransfer} {id : UInt32}

/-- Whether a transfer with the given id has been idle for too long. -/
def HasIdle (c : Connection) (limits : TransferLimits) (now : Nat) (id : UInt32) : Prop :=
  ∃ direction a, (c.transfers.slot direction).active = some a ∧ a.state.id = id ∧
    limits.timeout ≤ now - a.state.lastActivity

/-- A connection after what was idle has expired: idle transfers have failed, the client is told, and
nothing else has happened. -/
structure Expired (limits : TransferLimits) (now : Nat) (before after : Connection) : Prop where
  idle : ∀ direction a, (before.transfers.slot direction).active = some a →
    limits.timeout ≤ now - a.state.lastActivity →
    after.transfers.slot direction = ((before.transfers.slot direction).fail .timeout).1
  busy : ∀ direction, (∀ a, (before.transfers.slot direction).active = some a →
    now - a.state.lastActivity < limits.timeout) →
    after.transfers.slot direction = before.transfers.slot direction
  notified : Notified { before with transfers := after.transfers } after
  unchanged : (∀ id, ¬before.HasIdle limits now id) → after = before

theorem slot_sweep (c : Connection) (limits : TransferLimits) (now : Nat) (direction : Direction) :
    (c.sweep limits now).1.transfers.slot direction =
      ((c.transfers.slot direction).expire now limits.timeout).1 := by
  rw [transfers_sweep]
  cases direction <;> rfl

/-- What a sweep has expired is what was idle before. -/
theorem any_expired_iff :
    (c.sweep limits now).2.any (·.id = id) = true ↔ c.HasIdle limits now id := by
  show ((c.transfers.download.expire now limits.timeout).2.toList ++
    (c.transfers.upload.expire now limits.timeout).2.toList).any _ = true ↔ _
  rw [List.any_append, Bool.or_eq_true, Slot.any_expire, Slot.any_expire]
  constructor
  · rintro (⟨a, h⟩ | ⟨a, h⟩)
    · exact ⟨.download, a, h⟩
    · exact ⟨.upload, a, h⟩
  · rintro ⟨direction, a, h⟩
    cases direction with
    | download => exact .inl ⟨a, h⟩
    | upload => exact .inr ⟨a, h⟩

/-- A transfer that a sweep has left was there, and was not idle. -/
theorem active_of_sweep
    (h : ((c.sweep limits now).1.transfers.slot direction).active = some a) :
    (c.transfers.slot direction).active = some a ∧ now - a.state.lastActivity < limits.timeout := by
  rw [slot_sweep, Slot.active_expire] at h
  split at h
  · cases h
  · next hbusy =>
    refine ⟨h, Nat.lt_of_not_le fun htimeout => ?_⟩
    exact hbusy (Slot.isIdle_iff.mpr ⟨a, h, htimeout⟩)

theorem sweep_of_not_idle (h : ∀ id, ¬c.HasIdle limits now id) : (c.sweep limits now).1 = c := by
  have hslot (direction : Direction) :
      (c.transfers.slot direction).expire now limits.timeout =
        (c.transfers.slot direction, none) := by
    rw [Slot.expire, if_neg]
    intro hidle
    obtain ⟨a, hactive, htimeout⟩ := Slot.isIdle_iff.mp hidle
    exact h a.state.id ⟨direction, a, hactive, rfl, htimeout⟩
  have hdownload : c.transfers.download.expire now limits.timeout = _ := hslot .download
  have hupload : c.transfers.upload.expire now limits.timeout = _ := hslot .upload
  unfold sweep TransferSlots.expire
  rw [hdownload, hupload]
  rfl

/-- Sweeping expires what is idle. -/
theorem expired_sweep (c : Connection) (limits : TransferLimits) (now : Nat) :
    c.Expired limits now (c.sweep limits now).1 := by
  refine ⟨?_, ?_, ?_, sweep_of_not_idle⟩
  · intro direction a hactive htimeout
    rw [slot_sweep, Slot.expire, if_pos (Slot.isIdle_iff.mpr ⟨a, hactive, htimeout⟩)]
  · intro direction hbusy
    rw [slot_sweep, Slot.expire, if_neg]
    intro hidle
    obtain ⟨a, hactive, htimeout⟩ := Slot.isIdle_iff.mp hidle
    exact Nat.not_le_of_lt (hbusy a hactive) htimeout
  · rw [transfers_sweep]
    exact c.notified_sweep limits now

end Connection

end Switchboard
