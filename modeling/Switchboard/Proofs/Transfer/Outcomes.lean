import Switchboard.Proofs.Dispatch.Scene
import Switchboard.Proofs.Transfer.Message

/-!
# How transfers end

A transfer ends in one of several ways: it has been idle for too long, a message or the store has shown
a fault, the client confirms it, sends all of it or calls it off, the host cancels it, or the connection
is closed.  `Operation.outcome?` tells from what was in a slot before an operation, what is there
afterwards and how the operation was answered whether a transfer has ended and in which state.  It does
not look at what the slot remembers.

Main results:

* `Slot.remember_latest`: a slot keeps the latest of its failures.
* `Operation.fate_run`: an operation leaves the transfer in a slot where it is, or the slot remembers
  how it has ended.
-/

namespace Switchboard

-- ---------------------------------------------------------------------------
-- The latest of many
-- ---------------------------------------------------------------------------

namespace Slot

/-- The latest of some transfers, as many as a slot remembers. -/
def latest (states : List TransferState) : List TransferState :=
  states.drop (states.length - historyLimit)

/-- One more failure, and the oldest makes room for it. -/
theorem remember_latest (states : List TransferState) (state : TransferState) :
    remember (latest states) state = latest (states ++ [state]) := by
  have hlimit : 0 < historyLimit := by decide
  have hlength : (latest states).length = min historyLimit states.length := by
    rw [latest, List.length_drop]
    omega
  rw [remember, hlength, latest, latest, List.length_append, List.length_singleton]
  split
  · next hfull =>
    have hle : historyLimit ≤ states.length := by omega
    rw [List.drop_drop, ← Nat.sub_add_comm hle, List.drop_append_of_le_length (by omega)]
  · next hroom =>
    have hlt : states.length < historyLimit := by omega
    rw [Nat.sub_eq_zero_of_le (Nat.le_of_lt hlt), Nat.sub_eq_zero_of_le hlt]
    rfl

end Slot

namespace Transfers

-- ---------------------------------------------------------------------------
-- Outcomes
-- ---------------------------------------------------------------------------

namespace Operation

/-- The state in which a transfer has left its slot after an operation with the given answer, if it was
not idle before. -/
def parting (op : Operation) (answer : Except TransferError (Option TransferState))
    (state : TransferState) : Option TransferState :=
  match op, answer with
  | handle _, .ok found => found
  | handle _, .error error => some { state with status := .failed, failure := error.reason? }
  | _, _ => some { state with status := .cancelled }

/-- The transfer in the slot for a direction that an operation ends, in the state in which it ends. -/
def outcome? (op : Operation) (service : TransferService) (c : Connection) (now : Nat)
    (direction : Direction) : Option TransferState := do
  let a ← (c.transfers.slot direction).active
  let (_, after, answer) := op.run service c now
  if op.sweeps ∧ service.limits.timeout ≤ now - a.state.lastActivity then
    some { a.state with status := .failed, failure := some .timeout }
  else if (after.transfers.slot direction).active.isSome then none
  else op.parting answer a.state

end Operation

end Transfers

namespace Slot

/-- A slot that remembers nothing new, and whose transfer is still there, if there is one. -/
structure Stays (before after : Slot) : Prop where
  last : after.last = before.last
  failed : after.failed = before.failed
  active : ∀ a, before.active = some a → ∃ b, after.active = some b ∧ b.state.id = a.state.id

/-- A slot that remembers the end of its transfer, and that it has failed if it has. -/
structure Parts (a : ActiveTransfer) (state : TransferState) (before after : Slot) : Prop where
  active : before.active = some a
  state_eq : state = { a.state with status := state.status, failure := state.failure }
  terminal : state.status.isTerminal = true
  reason : state.status = .failed → state.failure.isSome = true
  last : after.last = some state
  failed : after.failed =
    if state.status = .failed then remember before.failed state else before.failed

variable {slot : Slot} {a next : ActiveTransfer} {status : TransferStatus}

theorem Stays.refl (slot : Slot) : Stays slot slot :=
  ⟨rfl, rfl, fun a ha => ⟨a, ha, rfl⟩⟩

/-- The transfer moves on. -/
theorem Stays.moved (ha : slot.active = some a) (hid : next.state.id = a.state.id) :
    Stays slot { slot with active := some next } := by
  refine ⟨rfl, rfl, fun b hb => ⟨next, rfl, ?_⟩⟩
  cases ha.symm.trans hb
  exact hid

theorem Stays.touch (slot : Slot) (now : Nat) (id : UInt32) : slot.Stays (slot.touch now id).1 := by
  unfold Slot.touch
  split
  · next a ha =>
    split
    · exact .moved ha rfl
    · exact .refl _
  · exact .refl _

theorem Parts.fail (ha : slot.active = some a) (reason : FailureReason) :
    Parts a { a.state with status := .failed, failure := some reason } slot
      (slot.fail reason).1 := by
  rw [fail_of_active ha]
  exact ⟨ha, rfl, rfl, fun _ => rfl, rfl, rfl⟩

theorem Parts.finish (ha : slot.active = some a) (hterminal : status.isTerminal = true)
    (hstatus : status ≠ .failed) : Parts a { a.state with status } slot (slot.finish status).1 := by
  rw [finish_of_active ha]
  exact ⟨ha, rfl, hterminal, fun h => absurd h hstatus, rfl, (if_neg hstatus).symm⟩

end Slot

namespace Transfers

/-- What becomes of the transfer in a slot by an operation, and what the slot remembers of it.  Where a
transfer has ended no other one is found, unless the operation has begun it. -/
inductive Fate (op : Operation) (service : TransferService) (before after : Slot) :
    Option TransferState → Prop where
  | stays (h : before.Stays after) : Fate op service before after none
  | ends {a : ActiveTransfer} {state : TransferState} (h : before.Parts a state after)
      (gone : ∀ b, after.active = some b → op.isInitiation = true ∧ b.state.id = service.nextId) :
      Fate op service before after (some state)

/-- What an operation has done to a slot in which nothing was idle agrees with its answer: the transfer
is still there, or it has left in the state that the answer tells. -/
inductive Accords (op : Operation) (answer : Except TransferError (Option TransferState))
    (before after : Slot) : Prop where
  | stays (h : before.Stays after) : Accords op answer before after
  | ends {a : ActiveTransfer} {state : TransferState} (h : before.Parts a state after)
      (free : after.active = none) (told : op.parting answer a.state = some state) :
      Accords op answer before after

section Fates

variable {op : Operation} {service : TransferService} {c : Connection} {now : Nat}
  {direction : Direction} {a : ActiveTransfer} {state : TransferState}

theorem outcome?_of_free (h : (c.transfers.slot direction).active = none) :
    op.outcome? service c now direction = none := by
  rw [Operation.outcome?, h]
  rfl

theorem outcome?_of_idle (ha : (c.transfers.slot direction).active = some a)
    (hop : op.sweeps = true) (hidle : service.limits.timeout ≤ now - a.state.lastActivity) :
    op.outcome? service c now direction =
      some { a.state with status := .failed, failure := some .timeout } := by
  rw [Operation.outcome?, ha]
  exact if_pos ⟨hop, hidle⟩

theorem outcome?_of_busy (ha : (c.transfers.slot direction).active = some a)
    (hbusy : ¬(op.sweeps = true ∧ service.limits.timeout ≤ now - a.state.lastActivity)) :
    op.outcome? service c now direction =
      if ((op.run service c now).2.1.transfers.slot direction).active.isSome then none
      else op.parting (op.run service c now).2.2 a.state := by
  rw [Operation.outcome?, ha]
  exact if_neg hbusy

/-- The fate of a transfer that has not expired, from what the operation leaves in the slot. -/
theorem fate_of_busy
    (hbusy : ∀ a, (c.transfers.slot direction).active = some a →
      ¬(op.sweeps = true ∧ service.limits.timeout ≤ now - a.state.lastActivity))
    (h : Accords op (op.run service c now).2.2 (c.transfers.slot direction)
      ((op.run service c now).2.1.transfers.slot direction)) :
    Fate op service (c.transfers.slot direction)
      ((op.run service c now).2.1.transfers.slot direction)
      (op.outcome? service c now direction) := by
  cases h with
  | stays hstays =>
    cases hactive : (c.transfers.slot direction).active with
    | none =>
      rw [outcome?_of_free hactive]
      exact .stays hstays
    | some a =>
      obtain ⟨b, hb, -⟩ := hstays.active a hactive
      rw [outcome?_of_busy hactive (hbusy a hactive), hb, if_pos Option.isSome_some]
      exact .stays hstays
  | ends hparts hfree htold =>
    rw [outcome?_of_busy hparts.active (hbusy _ hparts.active), hfree, if_neg (by decide), htold]
    refine .ends hparts fun b hb => ?_
    cases hfree.symm.trans hb

end Fates

-- ---------------------------------------------------------------------------
-- Replies
-- ---------------------------------------------------------------------------

/-- Where one slot was replaced, the other one is as it was. -/
theorem Accords.of_setSlot {op : Operation} {answer : Except TransferError (Option TransferState)}
    {c final : Connection} {changed : Direction} {slot : Slot}
    (htransfers : final.transfers = (c.setSlot changed slot).transfers)
    (h : Accords op answer (c.transfers.slot changed) slot) (direction : Direction) :
    Accords op answer (c.transfers.slot direction) (final.transfers.slot direction) := by
  rw [htransfers]
  cases changed <;> cases direction
  · exact h
  · exact .stays (.refl _)
  · exact .stays (.refl _)
  · exact h

/-- A reply leaves the transfer in a slot where it is, or tells of its end. -/
theorem Reply.accords {service after : TransferService} {c final : Connection} {now : Nat}
    {message : ClientMessage} {result : Except TransferError TransferState}
    (h : Reply service c now message after final result) (expired : List TransferState)
    (direction : Direction) :
    Accords (.handle message) ((result.mapError (·.reword expired)).map some)
      (c.transfers.slot direction) (final.transfers.slot direction) := by
  cases h with
  | unknown => exact .stays (.refl _)
  | unexpected => exact .stays (.refl _)
  | @failed a reason error _ _ htarget hwhy _ hnotified =>
    refine .of_setSlot hnotified.told.transfers ?_ direction
    refine .ends (.fail htarget.active reason) (Slot.active_fail _ reason) ?_
    show some { a.state with status := .failed, failure := (error.reword expired).reason? } = _
    rw [reason?_reword, hwhy]
  | ended htarget htransition hterminal =>
    refine .of_setSlot rfl ?_ direction
    exact .ends (.finish htarget.active hterminal (ne_failed_of_transition htransition))
      (Slot.active_finish ..) rfl
  | moved htarget hmove hnotified =>
    exact .of_setSlot hnotified.told.transfers (.stays (.moved htarget.active hmove.id_eq)) direction
  | unsaid _ htarget hmove hnotified =>
    exact .of_setSlot hnotified.told.transfers (.stays (.moved htarget.active hmove.id_eq)) direction
  | accepted htarget _ _ _ hqueued =>
    exact .of_setSlot hqueued.told.transfers (.stays (.moved htarget.active rfl)) direction

-- ---------------------------------------------------------------------------
-- Operations
-- ---------------------------------------------------------------------------

section Operations

variable {op : Operation} {service : TransferService} {c : Connection} {now : Nat}
  {direction : Direction} {a : ActiveTransfer}

/-- What was idle expires first, and the rest of the operation finds a free slot. -/
theorem fate_of_idle (hop : op.sweeps = true) (ha : (c.transfers.slot direction).active = some a)
    (hidle : service.limits.timeout ≤ now - a.state.lastActivity) :
    Fate op service (c.transfers.slot direction)
      ((op.run service c now).2.1.transfers.slot direction)
      (op.outcome? service c now direction) := by
  obtain ⟨ended, ds, heffect⟩ := Operation.effect hop service c now
  have hchange := heffect.slots direction
  rw [Connection.slot_sweep, Slot.expire, if_pos (Slot.isIdle_iff.mpr ⟨a, ha, hidle⟩)] at hchange
  obtain ⟨hslot, -, hbegun⟩ := hchange.of_free (Slot.active_fail _ .timeout)
  obtain ⟨-, hstate, hterminal, hreason, hlast, hfailed⟩ := Slot.Parts.fail ha .timeout
  rw [← hslot] at hlast hfailed
  rw [outcome?_of_idle ha hop hidle]
  exact .ends ⟨ha, hstate, hterminal, hreason, hlast, hfailed⟩ hbegun

/-- What is not idle is there after the sweep. -/
theorem slot_sweep_of_busy (hbusy : ∀ a, (c.transfers.slot direction).active = some a →
      ¬service.limits.timeout ≤ now - a.state.lastActivity) :
    (c.sweep service.limits now).1.transfers.slot direction = c.transfers.slot direction := by
  rw [Connection.slot_sweep, Slot.expire, if_neg]
  intro hidle
  obtain ⟨a, ha, htimeout⟩ := Slot.isIdle_iff.mp hidle
  exact hbusy a ha htimeout

namespace Operation

theorem accords_of_sweeps (hop : op.sweeps = true)
    (hbusy : ∀ a, (c.transfers.slot direction).active = some a →
      ¬service.limits.timeout ≤ now - a.state.lastActivity) :
    Accords op (op.run service c now).2.2 (c.transfers.slot direction)
      ((op.run service c now).2.1.transfers.slot direction) := by
  have hswept := slot_sweep_of_busy hbusy
  by_cases hmessage : ∃ message, op = .handle message
  · obtain ⟨message, rfl⟩ := hmessage
    rw [← hswept]
    rcases service.handle_cases c now message with ⟨-, heq⟩ | ⟨after, final, result, hreply, heq⟩
    · rw [run, heq]
      exact .stays (.refl _)
    · rw [run, heq]
      exact hreply.accords _ direction
  · obtain ⟨ended, ds, heffect⟩ := Operation.effect hop service c now
    have hchange := heffect.slots direction
    rw [hswept] at hchange
    generalize (op.run service c now).2.1.transfers.slot direction = after at hchange ⊢
    generalize ended direction = ends at hchange
    cases hchange with
    | kept => exact .stays (.refl _)
    | begun _ hfree =>
      refine .stays ⟨rfl, rfl, fun a ha => ?_⟩
      cases hfree.symm.trans ha
    | moved hactive hid => exact .stays (.moved hactive hid)
    | ended _ hheard => exact absurd ⟨_, hheard⟩ hmessage
    | failed _ _ hheard => exact absurd ⟨_, hheard⟩ hmessage
    | @cancelled a hactive hasked =>
      subst hasked
      exact .ends (.finish hactive rfl (by decide)) (Slot.active_finish _ _) rfl

/-- What becomes of the transfers in the slots, and what the slots remember, but for clearing. -/
theorem fate_run (op : Operation) (hop : op ≠ .clearFailed) (service : TransferService)
    (c : Connection) (now : Nat) (direction : Direction) :
    Fate op service (c.transfers.slot direction)
      ((op.run service c now).2.1.transfers.slot direction)
      (op.outcome? service c now direction) := by
  cases hsweeps : op.sweeps with
  | true =>
    by_cases hidle : ∃ a, (c.transfers.slot direction).active = some a ∧
        service.limits.timeout ≤ now - a.state.lastActivity
    · obtain ⟨a, ha, htimeout⟩ := hidle
      exact fate_of_idle hsweeps ha htimeout
    · have hbusy (a : ActiveTransfer) (ha : (c.transfers.slot direction).active = some a) :
          ¬service.limits.timeout ≤ now - a.state.lastActivity :=
        fun htimeout => hidle ⟨a, ha, htimeout⟩
      exact fate_of_busy (fun a ha h => hbusy a ha h.2) (accords_of_sweeps hsweeps hbusy)
  | false =>
    refine fate_of_busy (fun _ _ h => nomatch hsweeps.symm.trans h.1) ?_
    cases op with
    | initiateDownload | initiateUpload | handle | cancel | sweep | report => cases hsweeps
    | clearFailed => exact absurd rfl hop
    | send | receive | setRx => exact .stays (.refl _)
    | flush =>
      refine .stays ?_
      show (c.transfers.slot direction).Stays ((c.flush now).1.transfers.slot direction)
      rcases c.transfers_flush now with hsame | ⟨id, htouched⟩
      · rw [hsame]
        exact .refl _
      · rw [htouched]
        cases direction with
        | upload => exact .refl _
        | download => exact .touch _ now id
    | close =>
      have hslot : (close.run service c now).2.1.transfers.slot direction =
          ((c.transfers.slot direction).finish .cancelled).1 := by
        cases direction <;> rfl
      rw [hslot]
      cases hactive : (c.transfers.slot direction).active with
      | none =>
        rw [Slot.finish, hactive]
        exact .stays (.refl _)
      | some a => exact .ends (.finish hactive rfl (by decide)) (Slot.active_finish _ _) rfl

end Operation

end Operations

end Transfers

end Switchboard
