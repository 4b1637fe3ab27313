import Switchboard.Proofs.Dispatch.Basic

/-!
# What clients hear about the end of transfers

A client takes the chunks that it is sent message by message, and reads each stream.  A notice is a
stream of a fixed form, in which only the id of a transfer and a text differ.

Main result: `Connection.Dispatched.notices_eq`, among the messages that were dispatched a client finds
the notices, and takes nothing else for one.
-/

namespace Switchboard

-- ---------------------------------------------------------------------------
-- Messages
-- ---------------------------------------------------------------------------

namespace Chunk

/-- The messages that chunks make up; each ends with a chunk that says so. -/
def messages : List Chunk → List (List Chunk)
  | [] => []
  | chunk :: rest =>
    if chunk.last then [chunk] :: messages rest
    else
      match messages rest with
      | [] => [[chunk]]
      | first :: others => (chunk :: first) :: others

/-- Whether chunks are one whole message. -/
def AreMessage (chunks : List Chunk) : Prop :=
  ∃ earlier final, chunks = earlier ++ [final] ∧ final.last = true ∧
    ∀ chunk ∈ earlier, chunk.last = false

/-- A whole message is the first one. -/
theorem messages_append {chunks : List Chunk} (h : AreMessage chunks) (rest : List Chunk) :
    messages (chunks ++ rest) = chunks :: messages rest := by
  obtain ⟨earlier, final, rfl, hfinal, hearlier⟩ := h
  induction earlier with
  | nil =>
    show (if final.last then _ else _) = _
    rw [if_pos hfinal]
    rfl
  | cons chunk earlier ih =>
    obtain ⟨hchunk, hearlier⟩ := List.forall_mem_cons.mp hearlier
    rw [List.cons_append, List.cons_append, messages, if_neg (Bool.eq_false_iff.mp hchunk),
      ih hearlier]

theorem areMessage_single {chunk : Chunk} (h : chunk.last = true) : AreMessage [chunk] :=
  ⟨[], chunk, rfl, h, List.forall_mem_nil _⟩

/-- The numbered pieces of a message are a whole one. -/
theorem areMessage_number {token : Token} {streamId : UInt16} {label : String} {index : Nat}
    {bodies : List Bytes} (h : number token streamId label index bodies ≠ []) :
    AreMessage (number token streamId label index bodies) := by
  induction index, bodies using number.induct with
  | case1 index => exact absurd rfl h
  | case2 index body => exact areMessage_single rfl
  | case3 index body next rest ih =>
    have hne : number token streamId label (index + 1) (next :: rest) ≠ [] := by
      cases rest <;> exact List.cons_ne_nil _ _
    obtain ⟨earlier, final, hrest, hfinal, hearlier⟩ := ih hne
    refine ⟨⟨token, streamId, (UInt32.ofNat index).toNat, false, body, label⟩ :: earlier, final, ?_,
      hfinal, List.forall_mem_cons.mpr ⟨rfl, hearlier⟩⟩
    rw [number, hrest, List.cons_append]

theorem areMessage_of_ofStream {token : Token} {streamId : UInt16} {encoded : Encoded} {limit : Nat}
    {label : String} {chunks : List Chunk}
    (h : ofStream token streamId encoded limit label = .ok chunks) (hchunks : chunks ≠ []) :
    AreMessage chunks := by
  unfold ofStream at h
  split at h
  · cases h
    exact areMessage_number hchunks
  · cases h

/-- The chunks of a script are a whole message, if there is something to read in them. -/
theorem areMessage_of_compile {script : Script} {limit : Nat} {streamId : UInt16} {label : String}
    {chunks : List Chunk} {read : List Atom}
    (h : script.compile limit streamId label = .ok chunks)
    (hread : Atom.decodeStream (reassemble chunks) = .ok read) (hne : read ≠ []) :
    AreMessage chunks := by
  obtain ⟨flat, encoded, -, -, hchunks⟩ := Script.compile_eq_ok_iff.mp h
  refine areMessage_of_ofStream hchunks ?_
  -- without chunks there would be nothing to read
  rintro rfl
  have hempty : Atom.decodeStream (reassemble []) = .ok [] := by
    rw [reassemble, List.flatMap_nil, Atom.decodeStream, Atom.decodeFrom]
    rfl
  cases hempty.symm.trans hread
  exact hne rfl

end Chunk

-- ---------------------------------------------------------------------------
-- Notices
-- ---------------------------------------------------------------------------

/-- What a client is told when the server has ended a transfer. -/
structure Notice where
  id : UInt32
  reason : String
  deriving DecidableEq

deriving instance DecidableEq for Line

namespace Notice

/-- The lines of the stream in which a notice travels. -/
def lines (n : Notice) : List Line :=
  Line.opening :: ((Dispatch.notice n.id n.reason).lines.map Line.kept ++ [Line.closing])

/-- The notice that the lines of a stream make up.  A text that has been left out is empty. -/
def ofLines? (said : List Line) : Option Notice :=
  let read (n : Notice) : Option Notice := if said = n.lines then some n else none
  match (said.flatMap Line.operands : List Operand) with
  | [.int id] => read ⟨id, ""⟩
  | [.int id, .str reason] => read ⟨id, reason⟩
  | _ => none

/-- The notice that a message is. -/
def ofMessage? (message : List Chunk) : Option Notice :=
  if ∀ chunk ∈ message, chunk.token = .stream then
    match Atom.decodeStream (Chunk.reassemble message) with
    | .ok atoms => ofLines? (atoms.map Atom.toLine)
    | .error _ => none
  else none

/-- The notices among the messages that chunks make up. -/
def among (chunks : List Chunk) : List Notice :=
  (Chunk.messages chunks).filterMap ofMessage?

theorem ofLines?_lines (n : Notice) : ofLines? n.lines = some n := by
  obtain ⟨id, reason⟩ := n
  -- the text is left out exactly if it is empty
  have hending : Line.kept ⟨"xfer_abort", [.str reason]⟩ =
      ⟨"xfer_abort", if reason = "" then [] else [.str reason]⟩ := by
    rw [← Scene.dropOmitted_text]
    rfl
  have hoperands : (lines ⟨id, reason⟩).flatMap Line.operands =
      .int id :: if reason = "" then [] else [.str reason] := by
    show .int id :: ((Line.kept ⟨"xfer_abort", [.str reason]⟩).operands ++ []) = _
    rw [hending, List.append_nil]
  rw [ofLines?, hoperands]
  by_cases hempty : reason = ""
  · subst hempty
    exact if_pos rfl
  · rw [if_neg hempty]
    exact if_pos rfl

/-- Lines of other names make up no notice. -/
theorem ofLines?_eq_none {said : List Line}
    (h : said.map Line.name ≠
      ["uni_start_stream", "xfer_set_id", "xfer_abort", "uni_wait_off", "uni_end_stream"]) :
    ofLines? said = none := by
  have hne (n : Notice) : said ≠ n.lines := fun heq => h (by rw [heq]; rfl)
  unfold ofLines?
  dsimp only
  split
  · exact if_neg (hne _)
  · exact if_neg (hne _)
  · rfl

end Notice

/-- Chunks that are messages of their own are no notices unless they are streams. -/
theorem Notice.among_append_of_last {chunks : List Chunk}
    (h : ∀ chunk ∈ chunks, chunk.last = true ∧ chunk.token ≠ .stream) (rest : List Chunk) :
    among (chunks ++ rest) = among rest := by
  induction chunks with
  | nil => rfl
  | cons chunk chunks ih =>
    obtain ⟨⟨hlast, htoken⟩, hchunks⟩ := List.forall_mem_cons.mp h
    have hsilent : ofMessage? [chunk] = none :=
      if_neg fun hstream => htoken (hstream chunk (List.mem_singleton.mpr rfl))
    have hmessages : Chunk.messages (chunk :: (chunks ++ rest)) =
        [chunk] :: Chunk.messages (chunks ++ rest) := if_pos hlast
    rw [List.cons_append, among, hmessages, List.filterMap_cons, hsilent]
    exact ih hchunks

theorem Line.name_kept (l : Line) : l.kept.name = l.name := by
  unfold kept
  split <;> rfl

namespace Dispatch

variable {limit : Nat} {chunks : List Chunk} {d : Dispatch}

/-- What the dispatch tells about the end of a transfer. -/
def notice? : Dispatch → Option Notice
  | notice id reason => some ⟨id, reason⟩
  | _ => none

/-- Only a notice has the lines of one. -/
theorem ofLines?_lines (d : Dispatch) :
    Notice.ofLines? (Line.opening :: (d.lines.map Line.kept ++ [Line.closing])) = d.notice? := by
  cases d with
  | notice id reason => exact Notice.ofLines?_lines ⟨id, reason⟩
  | announcement | picker | statRequest | authorization | file =>
    refine Notice.ofLines?_eq_none ?_
    simp [Dispatch.lines, Line.name_kept, Line.opening, Line.closing]

/-- A scene is one message, and it is read as the notice that it is. -/
theorem message_of_scene (h : d.CarriedBy limit chunks) (hscene : d.isScene = true) :
    Chunk.AreMessage chunks ∧ Notice.ofMessage? chunks = d.notice? := by
  obtain ⟨read, hread, hlines⟩ := read_of_carriedBy h hscene
  obtain ⟨streamId, label, script, -, hcompile⟩ := build_of_carriedBy h hscene
  constructor
  · refine Chunk.areMessage_of_compile hcompile hread ?_
    rintro rfl
    cases hlines
  · rw [Notice.ofMessage?, if_pos (Script.token_of_compile hcompile), hread]
    dsimp only
    rw [hlines, ofLines?_lines]

/-- The chunks of a file are messages of their own, and none of them is a notice. -/
theorem notices_of_file {id : UInt32} {data : Bytes} (h : (file id data).CarriedBy limit chunks)
    (rest : List Chunk) : Notice.among (chunks ++ rest) = Notice.among rest := by
  obtain ⟨streamId, rfl⟩ := h
  have hlast : ∀ chunk ∈ downloadChunks limit streamId id data,
      chunk.last = true ∧ chunk.token ≠ .stream := by
    intro chunk hmem
    rcases List.mem_append.mp hmem with hsegment | hend
    · obtain ⟨piece, -, rfl⟩ := List.mem_map.mp hsegment
      exact ⟨rfl, nofun⟩
    · rw [List.mem_singleton.mp hend]
      exact ⟨rfl, nofun⟩
  exact Notice.among_append_of_last hlast rest

/-- Dispatches, one after the other, are read as the notices that they are. -/
theorem among_flatten {ds : List Dispatch} {batches : List (List Chunk)}
    (h : List.Forall₂ (fun d chunks => d.CarriedBy limit chunks) ds batches) :
    Notice.among batches.flatten = ds.filterMap notice? := by
  induction h with
  | nil => rfl
  | @cons d chunks ds batches hfirst _ ih =>
    rw [List.flatten_cons, List.filterMap_cons]
    cases hscene : d.isScene with
    | true =>
      obtain ⟨hmessage, hnotice⟩ := message_of_scene hfirst hscene
      rw [Notice.among, Chunk.messages_append hmessage, List.filterMap_cons, hnotice]
      rw [Notice.among] at ih
      rw [ih]
    | false =>
      cases d with
      | file id data => exact (notices_of_file hfirst _).trans ih
      | _ => cases hscene

end Dispatch

namespace Connection

/-- A client of an open connection hears the notices that were dispatched to it. -/
theorem Dispatched.notices_eq {limit : Nat} {ds : List Dispatch} {c after : Connection}
    (h : Dispatched limit ds c after) (hopen : c.pacer.closed = false) :
    Notice.among (c.newChunks after) = ds.filterMap Dispatch.notice? := by
  obtain ⟨batches, hcarried, hpacer⟩ := h
  rw [newChunks_of_enqueue hpacer hopen]
  exact Dispatch.among_flatten hcarried

end Connection

end Switchboard
