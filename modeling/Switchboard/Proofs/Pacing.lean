import Switchboard.Proofs.Pacer

/-!
# Paced delivery

A pacer and its channel, over any sequence of steps: chunks are queued, bursts are sent, the client
takes frames out, its sequence numbers are noted, and control frames are written in between.

Main results:

* `Pacing.accounts_step` and `Pacing.accounts_run`: what has been handed to the channel and what is
  still queued account for all that was ever queued.
* `Pacing.paced_delivery_exact`: what the client makes of the frames.
-/

namespace Switchboard.Pacing

-- ---------------------------------------------------------------------------
-- Runs
-- ---------------------------------------------------------------------------

/-- What can happen to an open pacer and its channel. -/
inductive Step where
  | enqueue (chunks : List Chunk)
  | drain (budget : Nat)
  /-- The receiver takes frames out of the channel. -/
  | receive (count : Nat)
  | setRx (seq : UInt8)
  /-- A control frame is written. -/
  | control (kind : FrameKind) (payload : Bytes)

/-- A pacer with its channel, and the frames that were taken out of the channel, in order. -/
structure State where
  pacer : Pacer
  channel : Channel
  received : List Bytes

namespace State

/-- A new pacer and an empty channel. -/
def start (burst capacity : Nat) : State :=
  ⟨.new burst, .new capacity, []⟩

/-- The frames that were handed to the channel, in order. -/
def handed (s : State) : List Bytes :=
  s.received ++ s.channel.frames

/-- The state after a step.  A control frame depends on the state but does not change it. -/
def step (s : State) : Step → State
  | .enqueue chunks => { s with pacer := s.pacer.enqueue chunks }
  | .drain budget =>
    let (pacer, channel, _) := s.pacer.drain s.channel budget
    { s with pacer, channel }
  | .receive count =>
    let (frames, channel) := s.channel.receive count
    { s with channel, received := s.received ++ frames }
  | .setRx seq => { s with pacer := s.pacer.setRx seq }
  | .control _ _ => s

/-- The state after some steps. -/
def run (s : State) (steps : List Step) : State :=
  steps.foldl step s

end State

/-- The chunks that a step adds to the queue. -/
def Step.added : Step → List Chunk
  | enqueue chunks => chunks
  | drain _ | receive _ | setRx _ | control _ _ => []

/-- The chunks that were queued in the course of some steps, in order. -/
def added (steps : List Step) : List Chunk :=
  steps.flatMap (·.added)

-- ---------------------------------------------------------------------------
-- Accounting for every chunk
-- ---------------------------------------------------------------------------

/-- How the state after a run accounts for all the chunks that were given to it: those processed were
handed to the channel as the given frames, except for those that fit no frame, and the others are
queued. -/
structure Accounts (capacity : Nat) (given : List Chunk) (s : State) (processed : List Chunk)
    (frames : List Frame) : Prop where
  isOpen : s.pacer.closed = false
  isReceived : s.channel.received = true
  capacity_eq : s.channel.capacity = capacity
  given_eq : given = processed ++ s.pacer.queue
  handed_eq : s.handed = frames.map Frame.bytes
  fits : ∀ frame ∈ frames, frame.Fits
  reading_eq : frames.map (·.reading) =
    (processed.filter (·.FitsFrame)).map fun chunk => (.data, .ok chunk.content)
  tx_eq : frames.map (·.tx) = Frame.seqsAfter Frame.lastSeq frames.length
  last_eq : s.pacer.tx = Frame.seqAfter Frame.lastSeq frames.length

theorem accounts_start (burst capacity : Nat) :
    Accounts capacity [] (.start burst capacity) [] [] := by
  refine ⟨rfl, rfl, rfl, rfl, rfl, ?_, rfl, rfl, rfl⟩
  intro frame hmem
  cases hmem

variable {capacity : Nat} {given : List Chunk} {s : State} {processed : List Chunk}
  {frames : List Frame}

/-- What a burst does to an open pacer. -/
theorem Accounts.exists_moved (h : Accounts capacity given s processed frames) (budget : Nat) :
    ∃ burst taken,
      Burst.Moved s.pacer.rx budget s.pacer.tx s.channel [] s.pacer.queue burst taken ∧
      s.pacer.drain s.channel budget =
        ({ s.pacer with queue := burst.queue, tx := burst.tx, closed := false }, burst.channel,
          taken.filter (·.FitsFrame)) :=
  Pacer.exists_moved h.isOpen h.isReceived budget

theorem Accounts.drain (h : Accounts capacity given s processed frames) (budget : Nat) :
    ∃ processed frames, Accounts capacity given (s.step (.drain budget)) processed frames := by
  obtain ⟨burst, taken, hmoved, hdrain⟩ := h.exists_moved budget
  have hfits : ∀ chunk ∈ taken.filter (·.FitsFrame), chunk.FitsFrame := by
    intro chunk hmem
    simpa using (List.mem_filter.mp hmem).2
  -- the chunks taken off the queue are processed, and those sent have become frames
  refine ⟨processed ++ taken, frames ++
    Chunk.framesAfter s.pacer.rx s.pacer.tx (taken.filter (·.FitsFrame)), ?_⟩
  rw [State.step, hdrain]
  constructor
  · rfl
  · exact hmoved.received
  · exact hmoved.capacity_eq.trans h.capacity_eq
  · rw [h.given_eq, hmoved.accounted, List.append_assoc]
  · show s.received ++ burst.channel.frames = _
    rw [hmoved.delivered, ← List.append_assoc, List.map_append]
    exact congrArg (· ++ _) h.handed_eq
  · exact List.forall_mem_append.mpr ⟨h.fits, Chunk.fits_of_mem_framesAfter hfits⟩
  · rw [List.map_append, h.reading_eq, Chunk.reading_framesAfter, List.filter_append,
      List.map_append]
  · rw [List.map_append, h.tx_eq, Chunk.tx_framesAfter, List.length_append,
      Chunk.length_framesAfter, h.last_eq, Frame.seqsAfter_add]
  · rw [List.length_append, Chunk.length_framesAfter, Frame.seqAfter_add, ← h.last_eq]
    exact hmoved.numbered

/-- One step keeps the account. -/
theorem accounts_step (h : Accounts capacity given s processed frames) (step : Step) :
    ∃ processed frames, Accounts capacity (given ++ step.added) (s.step step) processed frames := by
  cases step with
  | enqueue chunks =>
    refine ⟨processed, frames, ?_⟩
    -- queued chunks stand behind those that wait already
    rw [State.step, Pacer.enqueue_of_open h.isOpen, Step.added, h.given_eq, List.append_assoc]
    exact ⟨h.isOpen, h.isReceived, h.capacity_eq, rfl, h.handed_eq, h.fits, h.reading_eq, h.tx_eq,
      h.last_eq⟩
  | drain budget =>
    rw [Step.added, List.append_nil]
    exact h.drain budget
  | receive count =>
    refine ⟨processed, frames, ?_⟩
    rw [Step.added, List.append_nil]
    refine ⟨h.isOpen, h.isReceived, ?_, h.given_eq, ?_, h.fits, h.reading_eq, h.tx_eq, h.last_eq⟩
    · exact (Channel.capacity_receive s.channel count).trans h.capacity_eq
    -- what is taken out and what is left are together what was there
    · rw [← h.handed_eq, State.handed, State.handed,
        ← Channel.receive_append_frames s.channel count, ← List.append_assoc]
      rfl
  | setRx seq =>
    refine ⟨processed, frames, ?_⟩
    rw [Step.added, List.append_nil]
    exact ⟨h.isOpen, h.isReceived, h.capacity_eq, h.given_eq, h.handed_eq, h.fits, h.reading_eq,
      h.tx_eq, h.last_eq⟩
  | control kind payload =>
    refine ⟨processed, frames, ?_⟩
    rw [Step.added, List.append_nil]
    exact h

/-- Any number of steps keeps the account. -/
theorem accounts_run (h : Accounts capacity given s processed frames) (steps : List Step) :
    ∃ processed frames, Accounts capacity (given ++ added steps) (s.run steps) processed frames := by
  induction steps generalizing given s processed frames with
  | nil =>
    refine ⟨processed, frames, ?_⟩
    rw [added, List.flatMap_nil, List.append_nil]
    exact h
  | cons step steps ih =>
    obtain ⟨processed', frames', hstep⟩ := accounts_step h step
    rw [added, List.flatMap_cons, ← List.append_assoc]
    exact ih hstep

-- ---------------------------------------------------------------------------
-- After the end
-- ---------------------------------------------------------------------------

/-- A closed pacer neither takes chunks nor sends any. -/
theorem run_of_closed {s : State} (h : s.pacer.closed = true) (steps : List Step) :
    (s.run steps).pacer.queue = s.pacer.queue ∧ (s.run steps).handed = s.handed := by
  induction steps generalizing s with
  | nil => exact ⟨rfl, rfl⟩
  | cons step steps ih =>
    -- one step leaves the pacer closed, its queue, and the frames handed to the channel
    have hstep : (s.step step).pacer.closed = true ∧
        (s.step step).pacer.queue = s.pacer.queue ∧ (s.step step).handed = s.handed := by
      cases step with
      | enqueue chunks =>
        rw [State.step, Pacer.enqueue_of_closed h]
        exact ⟨h, rfl, rfl⟩
      | drain budget =>
        rw [State.step, Pacer.drain_of_closed h]
        exact ⟨h, rfl, rfl⟩
      | receive count =>
        refine ⟨h, rfl, ?_⟩
        rw [State.handed, State.handed, ← Channel.receive_append_frames s.channel count,
          ← List.append_assoc]
        rfl
      | setRx seq => exact ⟨h, rfl, rfl⟩
      | control kind payload => exact ⟨h, rfl, rfl⟩
    obtain ⟨hclosed, hqueue, hhanded⟩ := hstep
    obtain ⟨hqueue', hhanded'⟩ := ih hclosed
    exact ⟨hqueue'.trans hqueue, hhanded'.trans hhanded⟩

/-- Draining into a channel that nobody receives from sends nothing, and closes the pacer at the
first chunk that fits a frame. -/
theorem drain_of_abandoned {pacer : Pacer} {channel : Channel} (hopen : pacer.closed = false)
    (habandoned : channel.received = false) {budget : Nat} (hbudget : budget ≠ 0) :
    pacer.drain channel budget =
      ({ pacer with
          queue := pacer.queue.dropWhile (¬·.FitsFrame)
          closed := !(pacer.queue.dropWhile (¬·.FitsFrame)).isEmpty },
        channel, []) := by
  rw [Pacer.drain, hopen, Burst.run_of_abandoned _ _ hbudget habandoned]
  rfl

-- ---------------------------------------------------------------------------
-- Delivery
-- ---------------------------------------------------------------------------

/-- A control frame repeats the numbers of the last data frame in both directions. -/
theorem Accounts.controlFrame (h : Accounts capacity given s processed frames) (kind : FrameKind)
    {payload : Bytes} (hpayload : payload.length ≤ maxFramePayload) :
    ∃ bytes, s.pacer.controlFrame kind payload = .ok bytes ∧
      Frame.drain bytes =
        ([.ok ⟨kind, (frames.map (·.tx)).getLast?.getD Frame.lastSeq, s.pacer.rx, payload⟩], []) := by
  have hfits : (⟨kind, s.pacer.tx, s.pacer.rx, payload⟩ : Frame).Fits := hpayload
  refine ⟨_, Frame.encode_of_fits hfits, ?_⟩
  -- a single frame is read like a sequence of frames
  have hall : ∀ frame ∈ [(⟨kind, s.pacer.tx, s.pacer.rx, payload⟩ : Frame)], frame.Fits := by
    intro frame hmem
    rw [List.mem_singleton.mp hmem]
    exact hfits
  have hdrain := Frame.drain_bytes hall
  rw [List.map_singleton, List.flatten_singleton] at hdrain
  rw [hdrain, h.last_eq, h.tx_eq, Frame.getLast?_seqsAfter]
  rfl

/-- A burst takes chunks off the front of the queue and hands over the frames of those that fit one.
It stays within its budget, and leaves something in the queue only if it has used the budget up or
filled the channel. -/
theorem Accounts.drain_hands (h : Accounts capacity given s processed frames) (budget : Nat) :
    let (pacer, channel, sent) := s.pacer.drain s.channel budget
    (∃ taken, s.pacer.queue = taken ++ pacer.queue ∧
        sent = taken.filter (·.payloadLength ≤ maxFramePayload)) ∧
      channel.frames =
        s.channel.frames ++ (Chunk.framesAfter s.pacer.rx s.pacer.tx sent).map Frame.bytes ∧
      sent.length ≤ budget ∧
      (pacer.queue ≠ [] → sent.length = budget ∨ channel.frames.length = capacity) := by
  obtain ⟨burst, taken, hmoved, hdrain⟩ := h.exists_moved budget
  rw [hdrain]
  refine ⟨⟨taken, hmoved.accounted, rfl⟩, hmoved.delivered, hmoved.bounded, fun hqueue => ?_⟩
  refine (hmoved.stopped hqueue).imp_right fun hroom => ?_
  -- a channel without room holds as many frames as it can
  have hcapacity := hmoved.capacity_eq.trans h.capacity_eq
  rw [Channel.capacity, hroom, Nat.zero_add] at hcapacity
  rw [Channel.frames, List.length_reverse]
  exact hcapacity

/-- What a client makes of the frames handed to its channel, whatever the order of the steps: exactly
the chunks processed so far that fit a frame, in the order in which they were queued, while the queue
holds exactly the others.  The frames are numbered without gap or repeat, control frames repeat the
last number.  A burst hands over the frames of the chunks that it takes off the queue, no more than its
budget, and stops only at the end of its budget or of the channel.  Once the pacer is closed nothing
moves any more, and a channel that is no longer received from gets nothing. -/
theorem paced_delivery_exact (burst capacity : Nat) (steps : List Step) :
    let s := (State.start burst capacity).run steps
    ∃ (processed : List Chunk) (frames : List Frame),
      added steps = processed ++ s.pacer.queue ∧
      Frame.drain s.handed.flatten = (frames.map .ok, []) ∧
      frames.map (fun frame => (frame.kind, DataPayload.parse frame.payload)) =
        (processed.filter (·.payloadLength ≤ maxFramePayload)).map
          (fun chunk => (.data, .ok ⟨chunk.token, chunk.streamId, chunk.body⟩)) ∧
      frames.map (·.tx) = (List.range frames.length).map (fun i => UInt8.ofNat (0x10 + i % 112)) ∧
      (∀ (kind : FrameKind) (payload : Bytes), payload.length ≤ maxFramePayload →
        ∃ bytes, s.pacer.controlFrame kind payload = .ok bytes ∧
          Frame.drain bytes =
            ([.ok ⟨kind, (frames.map (·.tx)).getLast?.getD 0x7F, s.pacer.rx, payload⟩], [])) ∧
      (∀ budget : Nat,
        let (pacer, channel, sent) := s.pacer.drain s.channel budget
        (∃ taken, s.pacer.queue = taken ++ pacer.queue ∧
            sent = taken.filter (·.payloadLength ≤ maxFramePayload)) ∧
          channel.frames =
            s.channel.frames ++ (Chunk.framesAfter s.pacer.rx s.pacer.tx sent).map Frame.bytes ∧
          sent.length ≤ budget ∧
          (pacer.queue ≠ [] → sent.length = budget ∨ channel.frames.length = capacity)) ∧
      (∀ more : List Step,
        let closed := ({ s with pacer := s.pacer.close } : State).run more
        closed.pacer.queue = s.pacer.queue ∧ closed.handed = s.handed) ∧
      ∀ budget : Nat, budget ≠ 0 →
        let (pacer, channel, sent) := s.pacer.drain s.channel.abandon budget
        sent = [] ∧ channel = s.channel.abandon ∧
          pacer.queue = s.pacer.queue.dropWhile (maxFramePayload < ·.payloadLength) ∧
          (pacer.closed ↔ pacer.queue ≠ []) := by
  intro s
  obtain ⟨processed, frames, h⟩ := accounts_run (accounts_start burst capacity) steps
  refine ⟨processed, frames, ?_, ?_, h.reading_eq, ?_, ?_, h.drain_hands, ?_, ?_⟩
  · rw [← h.given_eq]
    rfl
  · rw [h.handed_eq, Frame.drain_bytes h.fits]
  · rw [h.tx_eq, Frame.seqsAfter_lastSeq]
  · intro kind payload hpayload
    exact h.controlFrame kind hpayload
  · intro more
    exact run_of_closed rfl more
  · intro budget hbudget
    -- a chunk fits no frame if its payload is longer than that of any frame
    have hlong : (fun chunk : Chunk => decide ¬chunk.FitsFrame) =
        fun chunk => decide (maxFramePayload < chunk.payloadLength) :=
      funext fun chunk => decide_eq_decide.mpr Nat.not_le
    rw [drain_of_abandoned h.isOpen rfl hbudget, hlong]
    refine ⟨rfl, rfl, rfl, ?_⟩
    simp

/-- Three chunks of one letter each. -/
def letters : List Chunk :=
  [.single .stream 1 [0x61] "a", .single .stream 1 [0x62] "b", .single .stream 1 [0x63] "c"]

/-- A burst of two takes two of them, hands over their two frames, and stops there although the channel
has places left.  A control frame can be written, and nothing is handed over once nobody receives. -/
theorem paced_delivery_exact_letters :
    let s := (State.start 2 8).run [.enqueue letters]
    let (pacer, channel, sent) := s.pacer.drain s.channel 2
    sent = letters.take 2 ∧ pacer.queue = letters.drop 2 ∧ pacer.queue ≠ [] ∧
      (sent.length = 2 ∨ channel.frames.length = 8) ∧ channel.frames.length = 2 ∧
      channel.frames = s.channel.frames ++ (Chunk.framesAfter 0x7F 0x7F sent).map Frame.bytes ∧
      ([] : Bytes).length ≤ maxFramePayload ∧
      (∃ bytes, s.pacer.controlFrame .heartbeat [] = .ok bytes) ∧
      2 ≠ 0 ∧ (s.pacer.drain s.channel.abandon 2).2.2 = [] := by
  intro s
  obtain ⟨processed, frames, -, -, -, -, hcontrol, hbursts, -, habandoned⟩ :=
    paced_delivery_exact 2 8 [.enqueue letters]
  obtain ⟨-, hhanded, -, hstops⟩ := hbursts 2
  obtain ⟨bytes, hbytes, -⟩ := hcontrol .heartbeat [] (Nat.zero_le _)
  have hsent : (s.pacer.drain s.channel 2).2.2 = letters.take 2 := by decide +kernel
  have hqueue : (s.pacer.drain s.channel 2).1.queue = letters.drop 2 := by decide +kernel
  have hleft : (s.pacer.drain s.channel 2).1.queue ≠ [] := by
    rw [hqueue]
    exact List.cons_ne_nil _ _
  have hlength : (s.pacer.drain s.channel 2).2.1.frames.length = 2 :=
    (congrArg List.length hhanded).trans (by decide +kernel)
  exact ⟨hsent, hqueue, hleft, hstops hleft, hlength, hhanded, Nat.zero_le _, ⟨bytes, hbytes⟩,
    by decide, (habandoned 2 (by decide)).1⟩

end Switchboard.Pacing
