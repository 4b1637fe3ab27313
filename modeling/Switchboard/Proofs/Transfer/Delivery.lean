import Switchboard.Proofs.Transfer.Sound

/-!
# Delivery of downloads

Everything that happens to a connection, as a list of events with the chunks that each of them has
queued.  `Course` says how far a download has come against these events: it has begun, then the client
has accepted it, and in the same event all of its segments were queued, then the client has confirmed
it.

Main results:

* `Course.step`: every event takes a download on by one stage, or leaves it where it is.
* `World.IsFollowed.run`: what every operation keeps holds in every run.
* `isKept_follows`: every operation keeps the slot for downloads in agreement with the events.
* `Transfers.download_integrity`: the segments of a download are queued at most once, as one batch with
  the whole file.
-/

namespace Switchboard

-- ---------------------------------------------------------------------------
-- Segments
-- ---------------------------------------------------------------------------

/-- Cutting a file loses nothing and keeps the order. -/
theorem flatten_pieces (size : Nat) (done : List Bytes) (data : Bytes) :
    (pieces size done data).flatten = done.reverse.flatten ++ data := by
  fun_induction pieces size done data with
  | case1 done => rw [List.append_nil]
  | case2 done byte rest ih =>
    -- the piece joins those before it, and what is left to cut follows
    rw [ih, List.reverse_cons, List.flatten_append, List.flatten_singleton, List.append_assoc,
      List.cons_append, List.take_append_drop]

theorem ne_nil_of_mem_pieces {size : Nat} {done : List Bytes} {data : Bytes}
    (hdone : ∀ piece ∈ done, piece ≠ []) : ∀ piece ∈ pieces size done data, piece ≠ [] := by
  fun_induction pieces size done data with
  | case1 done =>
    intro piece hmem
    exact hdone piece (List.mem_reverse.mp hmem)
  | case2 done byte rest ih =>
    exact ih (List.forall_mem_cons.mpr ⟨List.cons_ne_nil _ _, hdone⟩)

/-- The chunks in which a file is served: its pieces, and the size of the whole at the end. -/
def batch (streamId : UInt16) (id : UInt32) (pieces : List Bytes) : List Chunk :=
  pieces.map (fun piece =>
      .single .downloadData streamId (Bytes.ofUInt32 id ++ piece) "xfer_download") ++
    [.single .downloadEnd streamId
      (Bytes.ofUInt32 id ++ Bytes.ofUInt32 (UInt32.ofNat pieces.flatten.length)) "xfer_download"]

theorem downloadChunks_eq_batch (framePayload : Nat) (streamId : UInt16) (id : UInt32)
    (data : Bytes) :
    downloadChunks framePayload streamId id data =
      batch streamId id (pieces (segmentRoom framePayload) [] data) := by
  rw [downloadChunks, batch, flatten_pieces]
  rfl

/-- Whether a chunk carries a part of the download with the given id, or says that it ends. -/
def Chunk.Carries (chunk : Chunk) (id : UInt32) : Prop :=
  chunk.IsSegment ∧ segmentTransferId? chunk.body = some id

theorem segmentTransferId?_append (id : UInt32) (rest : Bytes) :
    segmentTransferId? (Bytes.ofUInt32 id ++ rest) = some id := by
  rw [segmentTransferId?, Bytes.uint32?_ofUInt32_append]
  rfl

/-- All chunks of a batch are about one download. -/
theorem segmentTransferId?_of_mem_batch {streamId : UInt16} {id : UInt32} {pieces : List Bytes}
    {chunk : Chunk} (hmem : chunk ∈ batch streamId id pieces) :
    segmentTransferId? chunk.body = some id := by
  rcases List.mem_append.mp hmem with hpiece | hend
  · obtain ⟨piece, -, rfl⟩ := List.mem_map.mp hpiece
    exact segmentTransferId?_append id piece
  · rw [List.mem_singleton.mp hend]
    exact segmentTransferId?_append id _

theorem id_of_carries_batch {streamId : UInt16} {id other : UInt32} {pieces : List Bytes}
    {chunk : Chunk} (hmem : chunk ∈ batch streamId id pieces) (h : chunk.Carries other) :
    other = id :=
  Option.some.inj (h.2.symm.trans (segmentTransferId?_of_mem_batch hmem))

namespace Transfers

-- ---------------------------------------------------------------------------
-- Events
-- ---------------------------------------------------------------------------

/-- What happened to a connection: an operation, its answer, and the chunks that it has queued. -/
structure Event where
  op : Operation
  answer : Except TransferError (Option TransferState)
  queued : List Chunk

/-- What the event tells of a download. -/
def Event.mark? (e : Event) : Option Mark :=
  e.op.mark? e.answer

/-- What an operation on a connection is as an event. -/
def Operation.event (op : Operation) (service : TransferService) (c : Connection) (now : Nat) :
    Event :=
  ⟨op, (op.run service c now).2.2, c.newChunks (op.run service c now).2.1⟩

/-- Whether a step leaves it to the transfers to queue parts of files. -/
def Step.IsPlain : Step → Prop
  | operate _ op => op.IsPlain
  | _ => True

namespace World

/-- What a step is for the connection at a position. -/
def events (w : World) (i : Nat) : Step → List Event
  | .operate position op =>
    if position = i then
      (w.server.connections[i]?.map fun c => op.event w.server.transfers c w.now).toList
    else []
  | .connect .. | .advance _ => []

/-- All that happens to the connection at a position in the course of some steps. -/
def history (w : World) (i : Nat) : List Step → List Event
  | [] => []
  | s :: rest => w.events i s ++ (w.step s).history i rest

end World

-- ---------------------------------------------------------------------------
-- The course of a download
-- ---------------------------------------------------------------------------

/-- How far a download has come. -/
inductive Stage where
  | unknown
  | begun (data : Bytes)
  | accepted (data : Bytes)
  | confirmed (data : Bytes)

/-- What has been told of a download at a stage. -/
def Stage.marks (id : UInt32) : Stage → List Mark
  | unknown => []
  | begun data => [.begun id data]
  | accepted data => [.begun id data, .accepted id]
  | confirmed data => [.begun id data, .accepted id, .confirmed id]

/-- How far the download with an id has come with some events.  Only the event in which the client
accepts it queues chunks that carry it, and that event queues all of them. -/
inductive Course (id : UInt32) : List Event → Stage → Prop where
  | start : Course id [] .unknown
  | other {events : List Event} {stage : Stage} {e : Event} (earlier : Course id events stage)
      (mark : ∀ mark, e.mark? = some mark → mark.id ≠ id)
      (plain : ∀ chunk ∈ e.queued, ¬chunk.Carries id) : Course id (events ++ [e]) stage
  | begun {events : List Event} {e : Event} {data : Bytes} (earlier : Course id events .unknown)
      (mark : e.mark? = some (.begun id data)) (counted : data.length < UInt32.size)
      (plain : ∀ chunk ∈ e.queued, ¬chunk.Carries id) : Course id (events ++ [e]) (.begun data)
  | accepted {events : List Event} {e : Event} {notices : List Chunk} {streamId : UInt16}
      {pieces : List Bytes} {data : Bytes} (earlier : Course id events (.begun data))
      (mark : e.mark? = some (.accepted id)) (queued : e.queued = notices ++ batch streamId id pieces)
      (whole : pieces.flatten = data) (filled : ∀ piece ∈ pieces, piece ≠ [])
      (plain : ∀ chunk ∈ notices, ¬chunk.Carries id) : Course id (events ++ [e]) (.accepted data)
  | confirmed {events : List Event} {e : Event} {data : Bytes}
      (earlier : Course id events (.accepted data)) (mark : e.mark? = some (.confirmed id))
      (plain : ∀ chunk ∈ e.queued, ¬chunk.Carries id) : Course id (events ++ [e]) (.confirmed data)

/-- A slot for downloads that agrees with how far the download with an id has come. -/
structure IsAt (id : UInt32) (stage : Stage) (slot : Slot) : Prop where
  active : ∀ a, slot.active = some a → a.state.id = id →
    (∃ data, stage = .begun data ∧ a.state.status = .awaitingAck ∧ a.cargo = .outgoing data) ∨
      ∃ data, stage = .accepted data ∧ a.state.status = .streaming
  last : ∀ state, slot.last = some state → state.id = id → state.status = .completed →
    ∃ data, stage = .confirmed data

section Steps

variable {id : UInt32} {events : List Event} {stage : Stage} {e : Event} {slot after : Slot}
  {service next : TransferService} {now : Nat}

theorem not_carries_of_plain {queued : List Chunk} (h : ∀ chunk ∈ queued, ¬chunk.IsSegment) :
    ∀ chunk ∈ queued, ¬chunk.Carries id :=
  fun chunk hmem hcarries => h chunk hmem hcarries.1

theorem IsAt.of_lingers (h : IsAt id stage slot) (hlingers : slot.Lingers now after) :
    IsAt id stage after := by
  refine ⟨fun a ha hid => ?_, fun state hlast hid hstatus => ?_⟩
  · rcases hlingers.active with hsame | hnone | ⟨before, hbefore, -, htouched⟩
    · exact h.active a (hsame ▸ ha) hid
    · cases hnone.symm.trans ha
    · cases htouched.symm.trans ha
      exact h.active before hbefore hid
  · exact h.last state (hlingers.last state hlast hstatus) hid hstatus

/-- A slot whose transfer has another id, and that remembers no other transfer as completed. -/
theorem IsAt.of_other {a : ActiveTransfer} (h : IsAt id stage slot)
    (hactive : after.active = some a) (hid : a.state.id ≠ id) (hlast : slot.KeepsLast after) :
    IsAt id stage after := by
  refine ⟨fun found hfound hfid => ?_, fun state hended hid hstatus => ?_⟩
  · cases hactive.symm.trans hfound
    exact absurd hfid hid
  · exact h.last state (hlast state hended hstatus) hid hstatus

theorem IsAt.of_free (hactive : after.active = none)
    (hlast : ∀ state, after.last = some state → state.id = id → state.status = .completed →
      ∃ data, stage = .confirmed data) : IsAt id stage after :=
  ⟨fun _ ha => absurd (hactive.symm.trans ha) nofun, hlast⟩

/-- What is not confirmed is not remembered as completed. -/
theorem IsAt.not_completed {state : TransferState} (h : IsAt id stage slot)
    (hstage : ∀ data, stage ≠ .confirmed data) (hlast : slot.KeepsLast after)
    (hended : after.last = some state) (hid : state.id = id) : state.status ≠ .completed := by
  intro hstatus
  obtain ⟨data, hconfirmed⟩ := h.last state (hlast state hended hstatus) hid hstatus
  exact hstage data hconfirmed

/-- A step that tells nothing of a download leaves it alone. -/
theorem DownloadStep.of_other {mark : Option Mark} {queued : List Chunk}
    (h : DownloadStep service next now slot after mark queued)
    (hother : ∀ found, mark = some found → found.id ≠ id) (hslot : IsAt id stage slot) :
    (∀ chunk ∈ queued, ¬chunk.Carries id) ∧ IsAt id stage after := by
  cases h with
  | quiet hplain hlingers => exact ⟨not_carries_of_plain hplain, hslot.of_lingers hlingers⟩
  | begun hplain _ _ _ hactive hlast =>
    exact ⟨not_carries_of_plain hplain, hslot.of_other hactive (hother _ rfl) hlast⟩
  | @accepted a data streamId notices hplain _ _ _ hactive hlast =>
    have hid : a.state.id ≠ id := hother _ rfl
    refine ⟨?_, hslot.of_other hactive hid hlast⟩
    rw [downloadChunks_eq_batch]
    refine List.forall_mem_append.mpr ⟨not_carries_of_plain hplain, fun chunk hmem hcarries => ?_⟩
    exact hid (id_of_carries_batch hmem hcarries).symm
  | @confirmed a _ hplain _ _ hactive hlast =>
    have hid : a.state.id ≠ id := hother _ rfl
    refine ⟨not_carries_of_plain hplain, .of_free hactive fun state hended hsame _ => ?_⟩
    cases hlast.symm.trans hended
    exact absurd hsame hid

/-- An event takes a download on by one stage or leaves it where it is, and the slot agrees.  A new
download is one of which nothing was known. -/
theorem Course.step (h : Course id events stage) (hslot : IsAt id stage slot)
    (hstep : DownloadStep service next now slot after e.mark? e.queued)
    (hfresh : next.nextId = service.nextId + 1 → service.nextId = id → stage = .unknown) :
    ∃ stage', Course id (events ++ [e]) stage' ∧ IsAt id stage' after ∧
      (stage' ≠ .unknown → stage ≠ .unknown ∨
        next.nextId = service.nextId + 1 ∧ service.nextId = id) := by
  by_cases hother : ∀ mark, e.mark? = some mark → mark.id ≠ id
  · obtain ⟨hcarries, hafter⟩ := hstep.of_other hother hslot
    exact ⟨stage, .other h hother hcarries, hafter, .inl⟩
  -- the event is about this download
  obtain ⟨mark, hmark, hid⟩ : ∃ mark, e.mark? = some mark ∧ mark.id = id := by
    simpa using hother
  generalize hqueued : e.queued = queued at hstep
  rw [hmark] at hstep
  cases hstep with
  | @begun filename data _ hplain hvalid hfits hissued hactive hlast =>
    obtain rfl : service.nextId = id := hid
    obtain rfl := hfresh hissued rfl
    have hcounted : data.length < UInt32.size := by
      have := Nat.le_trans hfits (Nat.min_le_right _ _)
      have : 0 < UInt32.size := by decide
      omega
    refine ⟨_, .begun h hmark hcounted ?_, ⟨fun a ha _ => ?_, fun state hended hsame => ?_⟩,
      fun _ => .inr ⟨hissued, rfl⟩⟩
    · rw [hqueued]
      exact not_carries_of_plain hplain
    · cases hactive.symm.trans ha
      exact .inl ⟨data, rfl, rfl, rfl⟩
    · exact fun hstatus => absurd hstatus (hslot.not_completed nofun hlast hended hsame)
  | @accepted a data streamId notices hplain hthere hstatus hcargo hactive hlast =>
    obtain rfl : a.state.id = id := hid
    rw [downloadChunks_eq_batch] at hqueued
    -- the transfer was waited for, so the download had begun, with the file in the slot
    obtain ⟨file, rfl, hfile⟩ : ∃ file, stage = .begun file ∧ a.cargo = .outgoing file := by
      rcases hslot.active a hthere rfl with ⟨file, hstage, -, hfile⟩ | ⟨file, -, hstreaming⟩
      · exact ⟨file, hstage, hfile⟩
      · cases hstatus.symm.trans hstreaming
    obtain rfl : data = file := Cargo.outgoing.inj (hcargo.symm.trans hfile)
    have hfilled : ∀ piece ∈ pieces (segmentRoom service.limits.framePayload) [] data, piece ≠ [] :=
      ne_nil_of_mem_pieces (List.forall_mem_nil _)
    refine ⟨_, .accepted h hmark hqueued (flatten_pieces _ [] data) hfilled
      (not_carries_of_plain hplain), ⟨fun found hfound _ => ?_, fun state hended hsame => ?_⟩,
      fun _ => .inl nofun⟩
    · cases hactive.symm.trans hfound
      exact .inr ⟨data, rfl, rfl⟩
    · exact fun hcompleted => absurd hcompleted (hslot.not_completed nofun hlast hended hsame)
  | @confirmed a _ hplain hthere hstatus hactive hlast =>
    obtain rfl : a.state.id = id := hid
    -- the transfer was streaming, so the client had accepted the download
    obtain ⟨data, rfl⟩ : ∃ data, stage = .accepted data := by
      rcases hslot.active a hthere rfl with ⟨data, -, hawaiting, -⟩ | ⟨data, hstage, -⟩
      · cases hstatus.symm.trans hawaiting
      · exact ⟨data, hstage⟩
    refine ⟨_, .confirmed h hmark ?_, .of_free hactive fun _ _ _ _ => ⟨data, rfl⟩,
      fun _ => .inl nofun⟩
    rw [hqueued]
    exact not_carries_of_plain hplain

end Steps

-- ---------------------------------------------------------------------------
-- What a course says
-- ---------------------------------------------------------------------------

/-- No chunk that carries the download was queued. -/
def Silent (id : UInt32) (events : List Event) : Prop :=
  ∀ e ∈ events, ∀ chunk ∈ e.queued, ¬chunk.Carries id

/-- The whole file was queued as one batch, in the event in which the client accepted the download, and
no other chunk that carries the download was queued. -/
def Delivered (id : UInt32) (data : Bytes) (events : List Event) : Prop :=
  ∃ earlier e later notices streamId pieces, events = earlier ++ e :: later ∧
    e.mark? = some (.accepted id) ∧ e.queued = notices ++ batch streamId id pieces ∧
    pieces.flatten = data ∧ (∀ piece ∈ pieces, piece ≠ []) ∧
    (∀ chunk ∈ notices, ¬chunk.Carries id) ∧ Silent id earlier ∧ Silent id later

section Readings

variable {id : UInt32} {events : List Event} {stage : Stage} {data : Bytes} {e : Event}

theorem Silent.concat (h : Silent id events) (he : ∀ chunk ∈ e.queued, ¬chunk.Carries id) :
    Silent id (events ++ [e]) :=
  List.forall_mem_append.mpr ⟨h, List.forall_mem_singleton.mpr he⟩

theorem Delivered.concat (h : Delivered id data events)
    (he : ∀ chunk ∈ e.queued, ¬chunk.Carries id) : Delivered id data (events ++ [e]) := by
  obtain ⟨earlier, accepting, later, notices, streamId, pieces, rfl, hmark, hqueued, hwhole,
    hfilled, hplain, hearlier, hlater⟩ := h
  refine ⟨earlier, accepting, later ++ [e], notices, streamId, pieces, ?_, hmark, hqueued, hwhole,
    hfilled, hplain, hearlier, hlater.concat he⟩
  rw [List.append_assoc, List.cons_append]

/-- The marks of a download, in order. -/
theorem Course.marks (h : Course id events stage) :
    (events.filterMap Event.mark?).filter (·.id = id) = stage.marks id := by
  -- what one more event adds to what has been told
  have hsnoc (events : List Event) (e : Event) :
      ((events ++ [e]).filterMap Event.mark?).filter (·.id = id) =
        (events.filterMap Event.mark?).filter (·.id = id) ++ e.mark?.toList.filter (·.id = id) := by
    rw [List.filterMap_append, List.filter_append, List.filterMap_cons, List.filterMap_nil]
    cases e.mark? <;> rfl
  induction h with
  | start => rfl
  | @other events stage e _ hother _ ih =>
    have hnone : e.mark?.toList.filter (·.id = id) = [] := by
      cases hmark : e.mark? with
      | none => rfl
      | some mark => exact List.filter_eq_nil_iff.mpr (by simpa using hother mark hmark)
    rw [hsnoc, ih, hnone, List.append_nil]
  | begun _ hmark _ _ ih | accepted _ hmark _ _ _ _ ih | confirmed _ hmark _ ih =>
    rw [hsnoc, ih, hmark]
    simp [Stage.marks, Mark.id]

/-- Before the client accepts a download, nothing of it is queued. -/
theorem Course.silent (h : Course id events stage)
    (hstage : stage = .unknown ∨ ∃ data, stage = .begun data) : Silent id events := by
  induction h with
  | start => exact List.forall_mem_nil _
  | other _ _ hplain ih => exact (ih hstage).concat hplain
  | begun _ _ _ hplain ih => exact (ih (.inl rfl)).concat hplain
  | accepted => simp at hstage
  | confirmed => simp at hstage

/-- From then on, all of it has been queued at once. -/
theorem Course.delivered (h : Course id events stage)
    (hstage : stage = .accepted data ∨ stage = .confirmed data) : Delivered id data events := by
  induction h with
  | start => simp at hstage
  | other _ _ hplain ih => exact (ih hstage).concat hplain
  | begun => simp at hstage
  | @accepted events e notices streamId pieces file earlier hmark hqueued hwhole hfilled hplain =>
    obtain rfl : file = data := by simpa using hstage
    exact ⟨events, e, [], notices, streamId, pieces, rfl, hmark, hqueued, hwhole, hfilled, hplain,
      earlier.silent (.inr ⟨file, rfl⟩), List.forall_mem_nil _⟩
  | @confirmed events e file _ _ hplain ih =>
    obtain rfl : file = data := by simpa using hstage
    exact (ih (.inl rfl)).concat hplain

/-- The size of a file that is served can be told in four bytes. -/
theorem Course.counted (h : Course id events stage)
    (hstage : stage = .begun data ∨ stage = .accepted data ∨ stage = .confirmed data) :
    data.length < UInt32.size := by
  induction h with
  | start => simp at hstage
  | other _ _ _ ih => exact ih hstage
  | begun _ _ hcounted =>
    obtain rfl := by simpa using hstage
    exact hcounted
  | accepted _ _ _ _ _ _ ih =>
    obtain rfl := by simpa using hstage
    exact ih (.inl rfl)
  | confirmed _ _ _ ih =>
    obtain rfl := by simpa using hstage
    exact ih (.inr (.inl rfl))

end Readings

-- ---------------------------------------------------------------------------
-- Runs
-- ---------------------------------------------------------------------------

/-- Something that holds of a new connection to which nothing has happened, and that every operation on
an open connection keeps.  It may be about what has happened, and about the ids given out, of which the
last is `issued`. -/
structure IsKept (P : Nat → List Event → Connection → Prop) : Prop where
  new (id : UInt64) (screenName : String) (profile : ClientProfile) (outbound : Channel) (burst : Nat) :
    P 0 [] (.new id screenName profile outbound burst)
  mono {issued issued' : Nat} {events : List Event} {c : Connection} (holds : P issued events c)
    (le : issued ≤ issued') : P issued' events c
  run {service : TransferService} {op : Operation} {issued issued' : Nat} {events : List Event}
    {c : Connection} (now : Nat) (holds : P issued events c) (plain : op.IsPlain)
    (isOpen : c.pacer.closed = false) (le : issued ≤ issued')
    (fresh : (op.run service c now).1.nextId = service.nextId + 1 →
      issued' = issued + 1 ∧ service.nextId.toNat = issued + 1) :
    P issued' (events ++ [op.event service c now]) (op.run service c now).2.1

/-- A connection that agrees with what has happened to it: the slot for downloads, whatever id is asked
for, and the queue, which holds what was queued last. -/
structure Follows (issued : Nat) (events : List Event) (c : Connection) : Prop where
  course : ∀ id, ∃ stage, Course id events stage ∧ IsAt id stage c.transfers.download ∧
    (stage ≠ .unknown → id.toNat ≤ issued)
  accounted : ∃ gone, events.flatMap (·.queued) = gone ++ c.pacer.queue

theorem Follows.mono {issued issued' : Nat} {events : List Event} {c : Connection}
    (h : Follows issued events c) (hle : issued ≤ issued') : Follows issued' events c := by
  refine ⟨fun id => ?_, h.accounted⟩
  obtain ⟨stage, hcourse, hslot, hknown⟩ := h.course id
  exact ⟨stage, hcourse, hslot, fun hstage => (hknown hstage).trans hle⟩

/-- An operation that leaves the connection open keeps the agreement. -/
theorem Follows.run {service : TransferService} {op : Operation} {issued issued' : Nat}
    {events : List Event} {c : Connection} (now : Nat) (h : Follows issued events c)
    (hplain : op.IsPlain) (hopen : c.pacer.closed = false) (hle : issued ≤ issued')
    (hfresh : (op.run service c now).1.nextId = service.nextId + 1 →
      issued' = issued + 1 ∧ service.nextId.toNat = issued + 1) :
    Follows issued' (events ++ [op.event service c now]) (op.run service c now).2.1 := by
  obtain ⟨queued, hstep, hqueue⟩ := op.downloadStep service c now hplain
  obtain ⟨hqueued, rest, hrest, hafter⟩ := hqueue hopen
  refine ⟨fun id => ?_, ?_⟩
  · obtain ⟨stage, hcourse, hslot, hknown⟩ := h.course id
    rw [← hqueued] at hstep
    -- an id that is taken now has not been seen before
    have hnew (hissued : (op.run service c now).1.nextId = service.nextId + 1)
        (hid : service.nextId = id) : stage = .unknown := by
      by_contra hstage
      have hold := hknown hstage
      rw [← hid, (hfresh hissued).2] at hold
      omega
    obtain ⟨stage', hcourse', hslot', hmoved⟩ :=
      hcourse.step (e := op.event service c now) hslot hstep hnew
    refine ⟨stage', hcourse', hslot', fun hstage => ?_⟩
    rcases hmoved hstage with hbefore | ⟨hissued, hid⟩
    · exact (hknown hbefore).trans hle
    · obtain ⟨rfl, hnumber⟩ := hfresh hissued
      rw [← hid, hnumber]
  -- what has left the queue is gone, and what is new stands at its end
  · obtain ⟨gone, hgone⟩ := h.accounted
    obtain ⟨left, hleft⟩ := hrest
    refine ⟨gone ++ left, ?_⟩
    rw [List.flatMap_append, hgone, hafter, ← hleft, List.flatMap_singleton]
    show _ ++ c.newChunks _ = _
    rw [hqueued]
    simp only [List.append_assoc]

theorem isKept_follows : IsKept Follows where
  new _ _ _ _ _ :=
    ⟨fun _ => ⟨.unknown, .start, ⟨nofun, nofun⟩, fun hstage => absurd rfl hstage⟩, [], rfl⟩
  mono := Follows.mono
  run := Follows.run

namespace World

/-- A world in which something holds of the connection at a position, while it is open, and of what has
happened to it. -/
structure IsFollowed (P : Nat → List Event → Connection → Prop) (issued i : Nat)
    (events : List Event) (w : World) : Prop where
  nextId : w.server.transfers.nextId.toNat = (issued + 1) % UInt32.size
  absent : w.server.connections[i]? = none → events = []
  present : ∀ c, w.server.connections[i]? = some c → c.pacer.closed = false → P issued events c

variable {P : Nat → List Event → Connection → Prop} {issued i : Nat} {events : List Event} {w : World}

theorem isFollowed_start (P : Nat → List Event → Connection → Prop) (links : LinkLimits)
    (limits : TransferLimits) (directory : Directory) (store : Store) (i : Nat) :
    (start links limits directory store).IsFollowed P 0 i [] :=
  ⟨rfl, fun _ => rfl, fun _ hc => nomatch hc⟩

/-- A step keeps what is kept by every operation, and counts the ids it takes. -/
theorem IsFollowed.step (hkept : IsKept P) (h : w.IsFollowed P issued i events) {s : Step}
    (hplain : ∀ op, s = .operate i op → op.IsPlain)
    (hroom : issued + [s].countP Step.isInitiation < UInt32.size) :
    ∃ issued', issued' ≤ issued + [s].countP Step.isInitiation ∧
      (w.step s).IsFollowed P issued' i (events ++ w.events i s) := by
  cases s with
  | connect screenName profile outbound burst =>
    rw [World.events, List.append_nil]
    refine ⟨issued, Nat.le_add_right _ _, h.nextId, fun hnone => ?_, fun c hc hopen => ?_⟩
    · have hlength := List.length_append ▸ List.getElem?_eq_none_iff.mp hnone
      exact h.absent (List.getElem?_eq_none ((Nat.le_add_right _ 1).trans hlength))
    · rcases Nat.lt_or_ge i w.server.connections.length with hlt | hge
      · refine h.present c ?_ hopen
        rw [← hc]
        exact (List.getElem?_append_left hlt).symm
      · -- nothing has happened to the new connection
        have hnew := List.mem_of_getElem? ((List.getElem?_append_right hge).symm.trans hc)
        obtain rfl := h.absent (List.getElem?_eq_none hge)
        rw [List.mem_singleton.mp hnew]
        exact hkept.mono (hkept.new _ screenName profile outbound burst) (Nat.zero_le issued)
  | advance milliseconds =>
    rw [World.events, List.append_nil]
    exact ⟨issued, Nat.le_add_right _ _, h.nextId, h.absent, h.present⟩
  | operate position op =>
    rw [countP_singleton_operate] at hroom ⊢
    show ∃ issued', _ ∧ (w.operate position op).IsFollowed P issued' i _
    rw [World.events]
    cases hposition : w.server.connections[position]? with
    | none =>
      have hnothing : (if position = i then ((w.server.connections[i]?).map fun c =>
          op.event w.server.transfers c w.now).toList else []) = [] := by
        split
        · next heq => rw [← heq, hposition]; rfl
        · rfl
      rw [hnothing, List.append_nil, operate_of_none hposition]
      exact ⟨issued, Nat.le_add_right _ _, h⟩
    | some c =>
      obtain ⟨issued', hle, hcount, hnext, hfresh⟩ := Operation.issued_run h.nextId hroom c w.now
      refine ⟨issued', hcount, ?_, fun hnone => ?_, fun after hafter hopen => ?_⟩
      · rw [operate_of_some hposition]
        exact hnext
      · rw [connections_operate hposition, List.getElem?_eq_none_iff, List.length_set] at hnone
        have hbefore : w.server.connections[i]? = none := List.getElem?_eq_none hnone
        have hne : position ≠ i := by
          rintro rfl
          cases hposition.symm.trans hbefore
        rw [if_neg hne, List.append_nil, h.absent hbefore]
      · rw [connections_operate hposition, List.getElem?_set] at hafter
        split at hafter
        · next heq =>
          subst heq
          obtain rfl : (op.run w.server.transfers c w.now).2.1 = after := by
            split at hafter
            · exact Option.some.inj hafter
            · cases hafter
          -- what is open now was open before
          have hbefore : c.pacer.closed = false := by
            refine Bool.eq_false_iff.mpr fun hclosed => ?_
            cases hopen.symm.trans (op.closed_run w.server.transfers c w.now hclosed)
          rw [if_pos rfl, hposition]
          exact hkept.run w.now (h.present c hposition hbefore) (hplain op rfl) hbefore hle hfresh
        · next hne =>
          rw [if_neg hne, List.append_nil]
          exact hkept.mono (h.present after hafter hopen) hle

/-- So does a run. -/
theorem IsFollowed.run (hkept : IsKept P) (h : w.IsFollowed P issued i events) (steps : List Step)
    (hplain : ∀ op, .operate i op ∈ steps → op.IsPlain)
    (hroom : issued + steps.countP Step.isInitiation < UInt32.size) :
    ∃ issued', (w.run steps).IsFollowed P issued' i (events ++ w.history i steps) := by
  induction steps generalizing w issued events with
  | nil =>
    rw [history, List.append_nil]
    exact ⟨issued, h⟩
  | cons s rest ih =>
    have hs (op : Operation) (hop : s = .operate i op) : op.IsPlain :=
      hplain op (hop ▸ List.mem_cons_self)
    have hsplit : (s :: rest).countP Step.isInitiation =
        [s].countP Step.isInitiation + rest.countP Step.isInitiation := by
      rw [← List.countP_append]
      rfl
    rw [hsplit] at hroom
    obtain ⟨issued', hcount, hstep⟩ := h.step hkept hs (by omega)
    rw [history, ← List.append_assoc]
    exact ih hstep (fun op hop => hplain op (List.mem_cons_of_mem s hop)) (by omega)

end World

-- ---------------------------------------------------------------------------
-- Every run
-- ---------------------------------------------------------------------------

/-- What has been told of the download with an id, in order. -/
def marks (id : UInt32) (events : List Event) : List Mark :=
  (events.filterMap Event.mark?).filter (·.id = id)

/-- In every run of fewer than 2³² initiations, on a connection that is still open: a download begins
before the client accepts it, and is accepted before it is confirmed, each at most once.  Until it is
accepted no chunk carries it; after that the chunks that carry it are one batch with the whole file,
queued when it was accepted.  Only a download that the client has confirmed is completed.  All chunks
in the queue, and all that have left it, were queued in the events. -/
theorem download_integrity (links : LinkLimits) (limits : TransferLimits) (directory : Directory)
    (store : Store) (steps : List Step) (hcount : steps.countP Step.isInitiation < UInt32.size)
    (hplain : ∀ s ∈ steps, s.IsPlain) (i : Nat) (c : Connection)
    (hc : ((World.start links limits directory store).run steps).server.connections[i]? = some c)
    (hopen : c.pacer.closed = false) :
    let events := (World.start links limits directory store).history i steps
    (∀ id, ∃ data, marks id events <+: [.begun id data, .accepted id, .confirmed id] ∧
      (.accepted id ∉ marks id events ∧ Silent id events ∨
        .accepted id ∈ marks id events ∧ Delivered id data events ∧
          (UInt32.ofNat data.length).toNat = data.length) ∧
      ∀ state, c.transfers.download.last = some state → state.id = id →
        state.status = .completed → .confirmed id ∈ marks id events) ∧
    ∃ gone, events.flatMap (·.queued) = gone ++ c.pacer.queue := by
  intro events
  have hstart := World.isFollowed_start Follows links limits directory store i
  obtain ⟨issued, hfollowed⟩ :=
    hstart.run isKept_follows steps (fun op hop => hplain _ hop) (by rwa [Nat.zero_add])
  have hfollows := hfollowed.present c hc hopen
  rw [List.nil_append] at hfollows
  refine ⟨fun id => ?_, hfollows.accounted⟩
  obtain ⟨stage, hcourse, hslot, -⟩ := hfollows.course id
  have hmarks : marks id events = stage.marks id := hcourse.marks
  -- a completed download is one that has been confirmed
  have hcompleted (state : TransferState) (hlast : c.transfers.download.last = some state)
      (hid : state.id = id) (hstatus : state.status = .completed) :
      .confirmed id ∈ marks id events := by
    obtain ⟨data, rfl⟩ := hslot.last state hlast hid hstatus
    rw [hmarks]
    simp [Stage.marks]
  have htotal {data : Bytes} (h : data.length < UInt32.size) :
      (UInt32.ofNat data.length).toNat = data.length :=
    UInt32.toNat_ofNat_of_lt' h
  cases stage with
  | unknown =>
    refine ⟨[], ?_, .inl ⟨?_, hcourse.silent (.inl rfl)⟩, hcompleted⟩ <;> simp [hmarks, Stage.marks]
  | begun data =>
    refine ⟨data, ?_, .inl ⟨?_, hcourse.silent (.inr ⟨data, rfl⟩)⟩, hcompleted⟩ <;>
      simp [hmarks, Stage.marks]
  | accepted data =>
    refine ⟨data, ?_, .inr ⟨?_, hcourse.delivered (.inl rfl),
      htotal (hcourse.counted (.inr (.inl rfl)))⟩, hcompleted⟩ <;> simp [hmarks, Stage.marks]
  | confirmed data =>
    refine ⟨data, ?_, .inr ⟨?_, hcourse.delivered (.inr rfl),
      htotal (hcourse.counted (.inr (.inr rfl)))⟩, hcompleted⟩ <;> simp [hmarks, Stage.marks]

/-- Three bytes are served in two pieces, and the client says that it has stored them. -/
theorem download_integrity_notes :
    let limits : TransferLimits := ⟨100, 1000, 10⟩
    let steps : List Step := [.connect "Ann" ⟨.mac, 1, true⟩ (.new 8) 4,
      .operate 0 (.initiateDownload "notes.txt" [1, 2, 3]), .operate 0 (.handle (.downloadAck 1)),
      .operate 0 .flush, .operate 0 (.handle (.downloadAck 1)),
      .operate 0 (.handle (.downloadConfirm 1))]
    let events := (World.start ⟨4, 8⟩ limits (.ofNames []) (.memory .empty)).history 0 steps
    steps.countP Step.isInitiation < UInt32.size ∧ (∀ s ∈ steps, s.IsPlain) ∧
      ∃ c, ((World.start ⟨4, 8⟩ limits (.ofNames []) (.memory .empty)).run
          steps).server.connections[0]? = some c ∧ c.pacer.closed = false ∧
        marks 1 events = [.begun 1 [1, 2, 3], .accepted 1, .confirmed 1] ∧
        Delivered 1 [1, 2, 3] events := by
  intro limits steps events
  have hcount : steps.countP Step.isInitiation < UInt32.size := by decide
  have hplain : ∀ s ∈ steps, s.IsPlain := by simp [steps, Step.IsPlain, Operation.IsPlain]
  have hconnection : ((World.start ⟨4, 8⟩ limits (.ofNames []) (.memory .empty)).run
      steps).server.connections[0]?.any (!·.pacer.closed) = true := by
    decide +kernel
  obtain ⟨c, hc, hopen⟩ := (Option.any_eq_true _ _).mp hconnection
  have hopen : c.pacer.closed = false := by simpa using hopen
  have hmarks : marks 1 events = [.begun 1 [1, 2, 3], .accepted 1, .confirmed 1] := by
    decide +kernel
  have hdownload := (download_integrity ⟨4, 8⟩ limits (.ofNames []) (.memory .empty) steps hcount
    hplain 0 c hc hopen).1 1
  obtain ⟨data, hprefix, hdelivery, -⟩ := hdownload
  have hbegun : [Mark.begun 1 [1, 2, 3], .accepted 1, .confirmed 1] <+:
      [.begun 1 data, .accepted 1, .confirmed 1] := hmarks ▸ hprefix
  -- the file is the one that the download began with
  obtain rfl : [1, 2, 3] = data := by
    obtain ⟨rest, hrest⟩ := hbegun
    simpa using (List.cons.inj hrest).1
  refine ⟨hcount, hplain, c, hc, hopen, hmarks, ?_⟩
  rcases hdelivery with ⟨hnone, -⟩ | ⟨-, hdelivered, -⟩
  · have hsome : Mark.accepted 1 ∈ marks 1 events := by
      rw [hmarks]
      simp
    exact absurd hsome hnone
  · exact hdelivered

end Transfers

end Switchboard
