import Mathlib.Data.List.DropRight
import Switchboard.Proofs.Transfer.Closed
import Switchboard.Proofs.Transfer.Outcomes

/-!
# What slots remember

A slot remembers the last transfer that has ended in it, and the latest failures that nobody has cleared
since.  This is put in terms of everything that has happened to the transfers of a connection, which is
a list that only grows: endings, as `Operation.outcome?` tells of them, and clearing.

Main results:

* `remembers_operation`: the slots remember what happens in an operation.
* `World.Remembers.run`: the slots of a connection remember what happens in a run.
* `World.tells_step`: what has happened according to the list is what has become of the transfers.
* `outcomes_remembered`: what a connection shows of the transfers that have ended, in every run.
-/

namespace Switchboard.Transfers

-- ---------------------------------------------------------------------------
-- The past of a connection
-- ---------------------------------------------------------------------------

/-- What there is to remember about the transfers of a connection. -/
inductive Milestone where
  /-- A transfer has left its slot, in the given state. -/
  | ended (direction : Direction) (state : TransferState)
  /-- The failures were cleared. -/
  | cleared
  deriving DecidableEq

/-- The state in which a transfer in the given direction has ended, if this is what has happened. -/
def Milestone.ending? (direction : Direction) : Milestone → Option TransferState
  | ended other state => if other = direction then some state else none
  | cleared => none

/-- What happens to the transfers of a connection in an operation. -/
def Operation.milestones (op : Operation) (service : TransferService) (c : Connection) (now : Nat) :
    List Milestone :=
  match op with
  | clearFailed => [.cleared]
  | _ => [Direction.download, .upload].filterMap fun direction =>
      (op.outcome? service c now direction).map (.ended direction)

/-- The transfers in a direction that have ended, oldest first. -/
def endings (direction : Direction) (past : List Milestone) : List TransferState :=
  past.filterMap (·.ending? direction)

/-- What has happened since the failures were last cleared. -/
def sinceCleared (past : List Milestone) : List Milestone :=
  past.rtakeWhile (· ≠ .cleared)

/-- The transfers in a direction that have failed since the failures were last cleared, oldest
first. -/
def failures (direction : Direction) (past : List Milestone) : List TransferState :=
  (endings direction (sinceCleared past)).filter (·.status = .failed)

/-- A slot remembers the last transfer that has ended, and the latest of those that have failed since
the failures were last cleared. -/
structure Remembers (direction : Direction) (past : List Milestone) (slot : Slot) : Prop where
  last : slot.last = (endings direction past).getLast?
  failed : slot.failed = Slot.latest (failures direction past)

section Past

variable {direction : Direction} {past more : List Milestone} {before after : Slot}

theorem endings_append (direction : Direction) (past more : List Milestone) :
    endings direction (past ++ more) = endings direction past ++ endings direction more :=
  List.filterMap_append ..

theorem sinceCleared_cleared (past : List Milestone) : sinceCleared (past ++ [.cleared]) = [] :=
  List.rtakeWhile_concat_neg _ _ _ (by decide)

theorem sinceCleared_append (h : Milestone.cleared ∉ more) :
    sinceCleared (past ++ more) = sinceCleared past ++ more := by
  rw [sinceCleared, sinceCleared, List.rtakeWhile, List.reverse_append, List.takeWhile_append_of_pos,
    List.reverse_append, List.reverse_reverse, List.rtakeWhile]
  rintro milestone hmem
  refine decide_eq_true ?_
  rintro rfl
  exact h (List.mem_reverse.mp hmem)

theorem failures_append (h : Milestone.cleared ∉ more) :
    failures direction (past ++ more) =
      failures direction past ++ (endings direction more).filter (·.status = .failed) := by
  rw [failures, sinceCleared_append h, endings_append, List.filter_append]
  rfl

/-- A slot remembers what becomes of the transfer in it. -/
theorem Remembers.fate {op : Operation} {service : TransferService} {ending : Option TransferState}
    (h : Remembers direction past before) (hfate : Fate op service before after ending)
    (hmore : endings direction more = ending.toList) (hcleared : Milestone.cleared ∉ more) :
    Remembers direction (past ++ more) after := by
  refine ⟨?_, ?_⟩
  · rw [endings_append, hmore]
    cases hfate with
    | stays hstays =>
      rw [hstays.last, h.last]
      exact congrArg _ (List.append_nil _).symm
    | ends hparts =>
      rw [hparts.last]
      exact List.getLast?_concat.symm
  · rw [failures_append hcleared, hmore]
    cases hfate with
    | stays hstays =>
      rw [hstays.failed, h.failed]
      exact congrArg _ (List.append_nil _).symm
    | @ends a state hparts =>
      rw [hparts.failed, h.failed, Option.toList_some, List.filter_singleton]
      by_cases hstatus : state.status = .failed
      · rw [if_pos hstatus, decide_eq_true hstatus, Slot.remember_latest]
        rfl
      · rw [if_neg hstatus, decide_eq_false hstatus]
        exact congrArg _ (List.append_nil _).symm

end Past

-- ---------------------------------------------------------------------------
-- Milestones of operations
-- ---------------------------------------------------------------------------

/-- Clearing takes the failures out of a slot, and nothing else. -/
theorem slot_clearFailed (c : Connection) (direction : Direction) :
    c.clearFailed.1.transfers.slot direction = { c.transfers.slot direction with failed := [] } := by
  cases direction <;> rfl

section Milestones

variable {op : Operation} {service : TransferService} {c : Connection} {now : Nat}
  {direction : Direction} {state : TransferState} {past : List Milestone}

theorem milestones_of_ne (hop : op ≠ .clearFailed) :
    op.milestones service c now = [Direction.download, .upload].filterMap fun direction =>
      (op.outcome? service c now direction).map (.ended direction) := by
  cases op with
  | clearFailed => exact absurd rfl hop
  | _ => rfl

theorem ended_mem_milestones_iff (hop : op ≠ .clearFailed) :
    .ended direction state ∈ op.milestones service c now ↔
      op.outcome? service c now direction = some state := by
  rw [milestones_of_ne hop, List.mem_filterMap]
  constructor
  · rintro ⟨other, -, hended⟩
    obtain ⟨_, houtcome, heq⟩ := Option.map_eq_some_iff.mp hended
    cases heq
    exact houtcome
  · intro houtcome
    refine ⟨direction, by cases direction <;> decide, ?_⟩
    rw [houtcome]
    rfl

theorem cleared_mem_milestones_iff : .cleared ∈ op.milestones service c now ↔ op = .clearFailed := by
  constructor
  · intro hmem
    by_contra hop
    rw [milestones_of_ne hop, List.mem_filterMap] at hmem
    obtain ⟨_, -, hended⟩ := hmem
    obtain ⟨_, -, heq⟩ := Option.map_eq_some_iff.mp hended
    cases heq
  · rintro rfl
    exact List.mem_singleton_self _

theorem endings_milestones (hop : op ≠ .clearFailed) :
    endings direction (op.milestones service c now) =
      (op.outcome? service c now direction).toList := by
  rw [milestones_of_ne hop]
  cases hdownload : op.outcome? service c now .download <;>
    cases hupload : op.outcome? service c now .upload <;> cases direction <;>
    simp [endings, Milestone.ending?, hdownload, hupload]

/-- The slots remember what happens in an operation. -/
theorem remembers_operation (h : Remembers direction past (c.transfers.slot direction)) :
    Remembers direction (past ++ op.milestones service c now)
      ((op.run service c now).2.1.transfers.slot direction) := by
  by_cases hop : op = .clearFailed
  · subst hop
    show Remembers direction (past ++ [.cleared]) (c.clearFailed.1.transfers.slot direction)
    rw [slot_clearFailed]
    refine ⟨?_, ?_⟩
    · rw [endings_append]
      exact h.last.trans (congrArg _ (List.append_nil _).symm)
    · rw [failures, sinceCleared_cleared]
      rfl
  · exact h.fate (op.fate_run hop service c now direction) (endings_milestones hop)
      (mt cleared_mem_milestones_iff.mp hop)

end Milestones

-- ---------------------------------------------------------------------------
-- Every run
-- ---------------------------------------------------------------------------

namespace World

/-- What happens in a step to the transfers of the connection at a position. -/
def milestones (w : World) (position : Nat) : Step → List Milestone
  | .operate other op =>
    match w.server.connections[position]? with
    | some c => if other = position then op.milestones w.server.transfers c w.now else []
    | none => []
  | .connect .. | .advance _ => []

/-- What happens in a run to the transfers of the connection at a position, oldest first. -/
def past (w : World) (position : Nat) : List Step → List Milestone
  | [] => []
  | s :: rest => w.milestones position s ++ (w.step s).past position rest

/-- The connection at a position remembers the given past; before there is one, there is nothing to
remember. -/
structure Remembers (past : List Milestone) (position : Nat) (w : World) : Prop where
  slots : ∀ c, w.server.connections[position]? = some c →
    ∀ direction, Transfers.Remembers direction past (c.transfers.slot direction)
  unborn : w.server.connections[position]? = none → past = []

/-- What a step tells of the transfers of a connection is what it does to them: a transfer has ended
where one has left its slot, whose place none but a new one takes; where none has ended, the one in the
slot is still there. -/
structure Tells (w : World) (position : Nat) (s : Step) (before after : Connection) : Prop where
  ended : ∀ direction state, .ended direction state ∈ w.milestones position s →
    ∃ a, (before.transfers.slot direction).Parts a state (after.transfers.slot direction) ∧
      ∀ b, (after.transfers.slot direction).active = some b →
        s.isInitiation = true ∧ b.state.id = w.server.transfers.nextId
  stays : s ≠ .operate position .clearFailed → ∀ direction,
    (∀ state, .ended direction state ∉ w.milestones position s) →
    (before.transfers.slot direction).Stays (after.transfers.slot direction)
  cleared : .cleared ∈ w.milestones position s ↔ s = .operate position .clearFailed

variable {w : World} {position : Nat} {c : Connection} {past : List Milestone}

theorem milestones_operate (hc : w.server.connections[position]? = some c) (op : Operation) :
    w.milestones position (.operate position op) = op.milestones w.server.transfers c w.now := by
  rw [milestones, hc]
  exact if_pos rfl

theorem milestones_of_none (h : w.server.connections[position]? = none) (s : Step) :
    w.milestones position s = [] := by
  cases s with
  | operate other op => rw [milestones, h]
  | connect | advance => rfl

/-- A step leaves a connection as it was and tells of nothing, or carries out an operation on it. -/
theorem connection_step_or (hc : w.server.connections[position]? = some c) (s : Step) :
    ((w.step s).server.connections[position]? = some c ∧ w.milestones position s = [] ∧
        ∀ op, s ≠ .operate position op) ∨
      ∃ op, s = .operate position op := by
  by_cases hop : ∃ op, s = .operate position op
  · exact .inr hop
  · have hne (op : Operation) : s ≠ .operate position op := fun heq => hop ⟨op, heq⟩
    refine .inl ⟨?_, ?_, hne⟩
    · exact (connection_step hc s).resolve_right fun ⟨op, heq, _⟩ => hne op heq
    · cases s with
      | operate other op =>
        have hother : other ≠ position := by
          rintro rfl
          exact hne op rfl
        rw [milestones, hc]
        exact if_neg hother
      | connect | advance => rfl

/-- Only new connections come to a position, and nothing is in their slots. -/
theorem transfers_of_unborn (h : w.server.connections[position]? = none) (s : Step)
    (hc : (w.step s).server.connections[position]? = some c) : c.transfers = .empty := by
  have hlength : w.server.connections.length ≤ position := List.getElem?_eq_none_iff.mp h
  cases s with
  | connect screenName profile outbound burst =>
    have hmem := List.mem_of_getElem? ((List.getElem?_append_right hlength).symm.trans hc)
    rw [List.mem_singleton.mp hmem]
    rfl
  | advance => cases h.symm.trans hc
  | operate other op =>
    have hnone : (w.operate other op).server.connections[position]? = none := by
      cases hother : w.server.connections[other]? with
      | none => rwa [operate_of_none hother]
      | some d => rwa [connections_operate hother, List.getElem?_eq_none_iff, List.length_set]
    cases hnone.symm.trans hc

/-- A connection remembers what happens in a step. -/
theorem Remembers.step (h : w.Remembers past position) (s : Step) :
    (w.step s).Remembers (past ++ w.milestones position s) position := by
  cases hc : w.server.connections[position]? with
  | some c =>
    rcases connection_step_or hc s with ⟨hsame, hnothing, -⟩ | ⟨op, rfl⟩
    · rw [hnothing, List.append_nil]
      refine ⟨?_, fun hnone => nomatch hsame.symm.trans hnone⟩
      intro d hd
      cases hsame.symm.trans hd
      exact h.slots c hc
    · rw [milestones_operate hc]
      have hnext := connection_operate hc op
      refine ⟨?_, fun hnone => nomatch hnext.symm.trans hnone⟩
      intro d hd direction
      cases hnext.symm.trans hd
      exact remembers_operation (h.slots c hc direction)
  | none =>
    rw [milestones_of_none hc, List.append_nil, h.unborn hc]
    refine ⟨fun d hd direction => ?_, fun _ => rfl⟩
    rw [transfers_of_unborn hc s hd]
    cases direction <;> exact ⟨rfl, rfl⟩

/-- So it does with what happens in a run. -/
theorem Remembers.run (h : w.Remembers past position) (steps : List Step) :
    (w.run steps).Remembers (past ++ w.past position steps) position := by
  induction steps generalizing w past with
  | nil => rwa [World.past, List.append_nil]
  | cons s rest ih =>
    rw [World.past, ← List.append_assoc]
    exact ih (h.step s)

/-- What a step tells of a connection is what it does to it. -/
theorem tells_step {next : Connection} (hc : w.server.connections[position]? = some c) (s : Step)
    (hnext : (w.step s).server.connections[position]? = some next) : w.Tells position s c next := by
  rcases connection_step_or hc s with ⟨hsame, hnothing, hne⟩ | ⟨op, rfl⟩
  · cases hsame.symm.trans hnext
    refine ⟨?_, fun _ direction _ => .refl _, ?_⟩
    · intro direction state hmem
      rw [hnothing] at hmem
      cases hmem
    · rw [hnothing]
      exact iff_of_false List.not_mem_nil (hne .clearFailed)
  · cases (connection_operate hc op).symm.trans hnext
    have hfate (hop : op ≠ .clearFailed) := op.fate_run hop w.server.transfers c w.now
    refine ⟨?_, ?_, ?_⟩
    · intro direction state hmem
      rw [milestones_operate hc] at hmem
      have hop : op ≠ .clearFailed := by
        rintro rfl
        cases List.mem_singleton.mp hmem
      have hends := hfate hop direction
      rw [(ended_mem_milestones_iff hop).mp hmem] at hends
      cases hends with
      | ends hparts hgone => exact ⟨_, hparts, hgone⟩
    · intro hne direction hnone
      have hop : op ≠ .clearFailed := fun heq => hne (congrArg _ heq)
      have hstays := hfate hop direction
      cases houtcome : op.outcome? w.server.transfers c w.now direction with
      | none =>
        rw [houtcome] at hstays
        cases hstays with
        | stays h => exact h
      | some state =>
        refine absurd ?_ (hnone state)
        rw [milestones_operate hc]
        exact (ended_mem_milestones_iff hop).mpr houtcome
    · rw [milestones_operate hc, cleared_mem_milestones_iff]
      exact ⟨congrArg _, fun heq => (Step.operate.inj heq).2⟩

/-- What happens in a run happens in one of its steps. -/
theorem exists_of_mem_past {milestone : Milestone} {steps : List Step}
    (h : milestone ∈ w.past position steps) :
    ∃ before s later, steps = before ++ s :: later ∧
      milestone ∈ (w.run before).milestones position s := by
  induction steps generalizing w with
  | nil => cases h
  | cons s rest ih =>
    rcases List.mem_append.mp h with hnow | hlater
    · exact ⟨[], s, rest, rfl, hnow⟩
    · obtain ⟨before, t, later, rfl, hmem⟩ := ih hlater
      exact ⟨s :: before, t, later, rfl, hmem⟩

/-- Whatever has failed in a run has failed for a reason. -/
theorem reason_of_mem_past {direction : Direction} {state : TransferState} {steps : List Step}
    (h : .ended direction state ∈ w.past position steps) (hstatus : state.status = .failed) :
    state.failure.isSome = true := by
  obtain ⟨before, s, later, -, hmem⟩ := exists_of_mem_past h
  cases hc : (w.run before).server.connections[position]? with
  | none =>
    rw [milestones_of_none hc] at hmem
    cases hmem
  | some c =>
    obtain ⟨next, hnext, -⟩ := holds_step hc s
    obtain ⟨a, hparts, -⟩ := (tells_step hc s hnext).ended direction state hmem
    exact hparts.reason hstatus

end World

theorem mem_failures {direction : Direction} {past : List Milestone} {state : TransferState}
    (h : state ∈ failures direction past) :
    .ended direction state ∈ past ∧ state.status = .failed := by
  obtain ⟨hmem, hstatus⟩ := List.mem_filter.mp h
  obtain ⟨milestone, hpast, hending⟩ := List.mem_filterMap.mp hmem
  refine ⟨?_, of_decide_eq_true hstatus⟩
  cases milestone with
  | cleared => cases hending
  | ended other ended =>
    obtain ⟨rfl, heq⟩ := Option.ite_none_right_eq_some.mp hending
    cases heq
    exact (List.rtakeWhile_suffix _ _).mem hpast

/-- In every state that a run can lead to, a connection shows as failed what has failed on it since the
failures were last cleared: downloads first, oldest first, and in each direction the latest 32.  Each
entry has a reason, and is what was in the slot but for that and for its status.  The last transfer
shown for a direction is the last one that has ended there, however it has ended.  Clearing tells how
many entries there were and takes out these only.

Milestones tell which transfers have ended, and how: they are the same as what leaves the slots. -/
theorem outcomes_remembered (links : LinkLimits) (limits : TransferLimits) (directory : Directory)
    (store : Store) (steps : List Step) (position : Nat) (c : Connection)
    (hc : ((World.start links limits directory store).run steps).server.connections[position]? =
      some c) :
    let w := World.start links limits directory store
    let past := w.past position steps
    let cleared := c.clearFailed.1.transfers
    c.transfers.failed =
      Slot.latest (failures .download past) ++ Slot.latest (failures .upload past) ∧
    (∀ state ∈ c.transfers.failed, state.status = .failed ∧ state.failure.isSome = true) ∧
    (∀ direction, c.transfers.last direction = (endings direction past).getLast?) ∧
    (c.clearFailed.2 = c.transfers.failed.length ∧ cleared.failed = [] ∧
      ∀ direction, cleared.last direction = c.transfers.last direction ∧
        (cleared.slot direction).active = (c.transfers.slot direction).active) ∧
    ∀ before s later, steps = before ++ s :: later → ∀ mid next,
      (w.run before).server.connections[position]? = some mid →
      (w.run (before ++ [s])).server.connections[position]? = some next →
      (w.run before).Tells position s mid next := by
  intro w past cleared
  have hstart : w.Remembers [] position := ⟨fun _ hnone => absurd hnone nofun, fun _ => rfl⟩
  have hremembers := (hstart.run steps).slots c hc
  have hfailed : c.transfers.failed =
      Slot.latest (failures .download past) ++ Slot.latest (failures .upload past) := by
    rw [TransferSlots.failed]
    exact congrArg₂ _ (hremembers .download).failed (hremembers .upload).failed
  refine ⟨hfailed, ?_, fun direction => (hremembers direction).last, ⟨?_, rfl, ?_⟩, ?_⟩
  · intro state hstate
    obtain ⟨direction, hlatest⟩ : ∃ direction, state ∈ Slot.latest (failures direction past) := by
      rw [hfailed] at hstate
      exact (List.mem_append.mp hstate).elim (⟨.download, ·⟩) (⟨.upload, ·⟩)
    obtain ⟨hmem, hstatus⟩ := mem_failures (List.mem_of_mem_drop hlatest)
    exact ⟨hstatus, World.reason_of_mem_past hmem hstatus⟩
  · exact List.length_append.symm
  · intro direction
    show (c.clearFailed.1.transfers.slot direction).last = _ ∧
      (c.clearFailed.1.transfers.slot direction).active = _
    rw [slot_clearFailed]
    exact ⟨rfl, rfl⟩
  · intro before s later _ mid next hmid hnext
    rw [World.run, List.foldl_append] at hnext
    exact World.tells_step hmid s hnext

/-- One download is idle for too long, and another one is cancelled. -/
theorem outcomes_remembered_cancelled :
    let limits : TransferLimits := ⟨100, 1000, 256⟩
    let steps : List Step := [.connect "Ann" ⟨.mac, 1, true⟩ (.new 8) 4,
      .operate 0 (.initiateDownload "notes.txt" [1, 2, 3]), .advance 1000,
      .operate 0 (.initiateDownload "more.txt" [4]), .operate 0 (.cancel .download)]
    ∃ c, ((World.start ⟨4, 8⟩ limits (.ofNames []) (.memory .empty)).run
        steps).server.connections[0]? = some c ∧
      c.transfers.failed = [⟨1, .download, "notes.txt", 3, 0, .failed, some .timeout, 0⟩] ∧
      c.transfers.last .download =
        some ⟨2, .download, "more.txt", 1, 0, .cancelled, none, 1000⟩ := by
  intro limits steps
  have hpast : (World.start ⟨4, 8⟩ limits (.ofNames []) (.memory .empty)).past 0 steps =
      [.ended .download ⟨1, .download, "notes.txt", 3, 0, .failed, some .timeout, 0⟩,
        .ended .download ⟨2, .download, "more.txt", 1, 0, .cancelled, none, 1000⟩] := by
    decide +kernel
  have hthere : ((World.start ⟨4, 8⟩ limits (.ofNames []) (.memory .empty)).run
      steps).server.connections[0]?.isSome = true := by
    decide +kernel
  obtain ⟨c, hc⟩ := Option.isSome_iff_exists.mp hthere
  have hremembered := outcomes_remembered ⟨4, 8⟩ limits (.ofNames []) (.memory .empty) steps 0 c hc
  have hfailed := hremembered.1
  have hlast := hremembered.2.2.1 .download
  rw [hpast] at hfailed hlast
  exact ⟨c, hc, hfailed, hlast⟩

end Switchboard.Transfers
