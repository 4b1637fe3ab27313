import Switchboard.Proofs.Chunking
import Switchboard.Proofs.Source.Calls
import Switchboard.Proofs.Source.Reread
import Switchboard.Proofs.Traffic.Run

/-!
# What requests leave behind

A request of the operator goes through several steps, and any of them may refuse it.  Whatever was
done before, a refused request leaves no trace but this: a stream id or the id of a transfer may have
been used up, and what was idle on the connection may have expired, of which its client is told.

What is sent on request is queued behind what waits already, and an immediate request then takes a
burst off the front of the queue.  Nothing is lost of what fits a frame.  Where the limit for frames
is larger than frames can be, a chunk of the request itself may be too large.

Main results:

* `Server.spared_of_refused`: what a refused request leaves behind.
* `Server.sent_of_answered`: what a request to send does to an open connection.
* `Traffic.requests_all_or_nothing`: both, for all servers and all requests.
* `Traffic.bulky_request_lost`: the exception is real.
-/

namespace Switchboard

-- ---------------------------------------------------------------------------
-- What a refusal spares
-- ---------------------------------------------------------------------------

namespace Connection

/-- A connection after a request about it was refused.  Its slots and its queue are as they were, or
what was idle has expired and the client has been sent the notices about that; and a stream id may have
been used up. -/
structure Spared (limits : TransferLimits) (now : Nat) (before after : Connection) : Prop where
  rest : after = { before with
    pacer := after.pacer, transfers := after.transfers, nextStream := after.nextStream }
  kept : (after.transfers = before.transfers ∧ after.pacer = before.pacer) ∨
    (after.transfers = (before.transfers.expire now limits.timeout).1 ∧
      Dispatched limits.framePayload
        ((before.transfers.expire now limits.timeout).2.flatMap (·.notices limits.framePayload))
        before after)

variable (limits : TransferLimits) (now : Nat) (c : Connection)

theorem Spared.refl : c.Spared limits now c :=
  ⟨rfl, .inl ⟨rfl, rfl⟩⟩

theorem spared_takeStreamId : c.Spared limits now c.takeStreamId.1 :=
  ⟨rfl, .inl ⟨rfl, rfl⟩⟩

/-- An operation that is refused after the sweep spares the connection. -/
theorem spared_of_sweep {after : Connection} (h : Queued [] (c.sweep limits now).1 after) :
    c.Spared limits now after := by
  have hdispatched := (c.dispatched_sweep limits now).trans (.of_queued h)
  rw [List.append_nil] at hdispatched
  obtain ⟨notices, ⟨nextStream, hsweep⟩, -⟩ := c.notified_sweep limits now
  have htransfers := h.told.transfers
  rw [transfers_sweep] at htransfers
  refine ⟨?_, .inr ⟨htransfers, hdispatched⟩⟩
  obtain ⟨later, rfl⟩ := h
  rw [hsweep]

end Connection

namespace Server

/-- A server after a request was refused that was about the given connection, if it was about one.
Nothing has changed but this connection, as far as it is not spared, and the id of the next
transfer. -/
structure Spared (now : Nat) (subject : Option (Nat × Connection)) (before after : Server) :
    Prop where
  rest : after = { before with
    transfers := { before.transfers with nextId := after.transfers.nextId }
    connections := after.connections }
  others : ∀ j, (∀ c, subject ≠ some (j, c)) → after.connections[j]? = before.connections[j]?
  subject : ∀ i c, subject = some (i, c) →
    ∃ d, after.connections[i]? = some d ∧ c.Spared before.transfers.limits now d

namespace Spared

variable {now i : Nat} {server : Server} {c d : Connection} {screenName : String}

theorem refl_none : Spared now none server server :=
  ⟨rfl, fun _ _ => rfl, fun _ _ h => nomatch h⟩

/-- A request that is refused before anything is done. -/
theorem refl (hc : server.connections[i]? = some c) : Spared now (some (i, c)) server server := by
  refine ⟨rfl, fun _ _ => rfl, ?_⟩
  rintro _ _ ⟨⟩
  exact ⟨c, hc, .refl _ now c⟩

/-- A request that is refused in the course of what is done to the connection. -/
theorem put (hc : server.connections[i]? = some c) (hd : c.Spared server.transfers.limits now d)
    {service : TransferService}
    (hservice : service = server.transfers ∨ service = server.transfers.takeId.1) :
    Spared now (some (i, c)) server ({ server with transfers := service }.put i d) := by
  have hnext : service = { server.transfers with nextId := service.nextId } := by
    rcases hservice with rfl | rfl <;> rfl
  have hi : i < server.connections.length := (List.getElem?_eq_some_iff.mp hc).1
  refine ⟨?_, fun j hj => ?_, ?_⟩
  · rw [Server.put]
    dsimp only
    rw [← hnext]
  · have hne : i ≠ j := by
      rintro rfl
      exact hj c rfl
    exact List.getElem?_set_ne hne
  · rintro _ _ ⟨⟩
    exact ⟨d, List.getElem?_set_self hi, hd⟩

end Spared

end Server

-- ---------------------------------------------------------------------------
-- Requests and their answers
-- ---------------------------------------------------------------------------

namespace Traffic

/-- The answer to a request that is not refused. -/
inductive Answer where
  | compiled (compilation : Compilation)
  | sent (answer : SendAnswer)
  | started (state : TransferState)
  | told (report : TransferReport)
  | cancelled (states : List TransferState)
  | cleared (count : Nat)

/-- Who a request is about. -/
def Request.screenName : Request → String
  | send request => request.screenName
  | download request => request.screenName
  | upload screenName | report screenName | cancel screenName _ | clearFailed screenName => screenName

/-- Answers a request, with the server after it. -/
def Request.respond (server : Server) (now : Nat) : Request → Server × Except Refusal Answer
  | send request =>
    let (server, result) := server.sendTo now request
    (server, result.map .sent)
  | download request =>
    let (server, result) := server.downloadTo now request
    (server, result.map .started)
  | upload screenName =>
    let (server, result) := server.uploadFrom now screenName
    (server, result.map .started)
  | report screenName =>
    let (server, result) := server.reportOn now screenName
    (server, result.map .told)
  | cancel screenName direction =>
    let (server, result) := server.cancelOf now screenName direction
    (server, result.map .cancelled)
  | clearFailed screenName =>
    let (server, result) := server.clearFailedOf screenName
    (server, result.map .cleared)

/-- Answering a request does to the server what serving it does. -/
theorem Request.server_respond (server : Server) (now : Nat) (request : Request) :
    (request.respond server now).1 = request.serve server now := by
  cases request <;> rfl

/-- Everything that the operator of a server can ask: for something to be compiled, or for something
to be done about a client. -/
inductive Query where
  | compile (source : String) (streamId : UInt16)
  | ask (request : Request)

namespace Query

/-- The connection that a query is about, if there is one. -/
def subject (server : Server) : Query → Option (Nat × Connection)
  | compile .. => none
  | ask request => server.online? request.screenName

/-- Answers a query, with the server after it. -/
def respond (server : Server) (now : Nat) : Query → Server × Except Refusal Answer
  | compile source streamId => (server, (server.compileSource source streamId).map .compiled)
  | ask request => request.respond server now

end Query

end Traffic

-- ---------------------------------------------------------------------------
-- Refusals
-- ---------------------------------------------------------------------------

namespace Server

variable {now : Nat} {server : Server} {refusal : Refusal}

/-- An answer that is given in another form is a refusal if it was one before. -/
theorem eq_error_of_map {α β : Type} {f : α → β} {x : Except Refusal α}
    (h : x.map f = .error refusal) : x = .error refusal := by
  cases x with
  | error => exact congrArg Except.error (Except.error.inj h)
  | ok => cases h

/-- Where nobody is online under the name, nothing is done. -/
theorem spared_withOnline {α : Type} {screenName : String}
    {next : Nat → Connection → Server × Except Refusal α}
    (h : (server.withOnline screenName next).2 = .error refusal)
    (hnext : ∀ i c, server.connections[i]? = some c → (next i c).2 = .error refusal →
      Spared now (some (i, c)) server (next i c).1) :
    Spared now (server.online? screenName) server (server.withOnline screenName next).1 := by
  unfold withOnline at h ⊢
  cases honline : server.online? screenName with
  | none => exact .refl_none
  | some found =>
    obtain ⟨i, c⟩ := found
    rw [honline] at h
    exact hnext i c (connection_of_online honline) h

theorem spared_of_sendTo {request : SendRequest}
    (h : (server.sendTo now request).2 = .error refusal) :
    Spared now (server.online? request.screenName) server (server.sendTo now request).1 := by
  refine spared_withOnline h fun i c hc hrefused => ?_
  dsimp only at hrefused ⊢
  split
  · exact .refl hc
  · next heq =>
    rw [heq] at hrefused
    dsimp only at hrefused ⊢
    split
    · exact .put hc (c.spared_takeStreamId _ now) (.inl rfl)
    · next hchunks =>
      rw [hchunks] at hrefused
      cases hrefused

theorem spared_of_downloadTo {request : DownloadRequest}
    (h : (server.downloadTo now request).2 = .error refusal) :
    Spared now (server.online? request.screenName) server (server.downloadTo now request).1 := by
  refine spared_withOnline h fun i c hc hrefused => ?_
  dsimp only at hrefused ⊢
  split
  · exact .refl hc
  · next data heq =>
    rw [heq] at hrefused
    dsimp only [initiateDownload] at hrefused ⊢
    rcases server.transfers.initiateDownload_cases c now request.filename data with
      ⟨after, final, error, hstart, hafter, hqueued⟩ | ⟨final, state, hstart, -⟩
    · rw [hstart]
      exact .put hc (c.spared_of_sweep _ now hqueued) hafter
    · rw [hstart] at hrefused
      cases hrefused

theorem spared_of_uploadFrom {screenName : String}
    (h : (server.uploadFrom now screenName).2 = .error refusal) :
    Spared now (server.online? screenName) server (server.uploadFrom now screenName).1 := by
  refine spared_withOnline h fun i c hc hrefused => ?_
  dsimp only [initiateUpload, TransferService.initiateUpload] at hrefused ⊢
  rcases server.transfers.start_cases (c.sweep server.transfers.limits now).1 now .upload
    .awaitingFilePick .uploadPicker [] "" 0 (.incoming []) with
    ⟨after, final, error, hstart, hafter, hqueued⟩ | ⟨final, state, hstart, -⟩
  · rw [hstart]
    exact .put hc (c.spared_of_sweep _ now hqueued) hafter
  · rw [hstart] at hrefused
    cases hrefused

/-- A request that always gets its answer is refused only where nobody is online under the name. -/
theorem spared_of_answered {α : Type} {screenName : String}
    {next : Nat → Connection → Server × Except Refusal α}
    (h : (server.withOnline screenName next).2 = .error refusal)
    (hnext : ∀ i c, ∃ answer, (next i c).2 = .ok answer) :
    Spared now (server.online? screenName) server (server.withOnline screenName next).1 := by
  refine spared_withOnline h fun i c _ hrefused => ?_
  obtain ⟨answer, hanswer⟩ := hnext i c
  cases hanswer.symm.trans hrefused

/-- What a refused request leaves behind. -/
theorem spared_of_refused {query : Traffic.Query}
    (h : (query.respond server now).2 = .error refusal) :
    Spared now (query.subject server) server (query.respond server now).1 := by
  cases query with
  | compile => exact .refl_none
  | ask request =>
    -- one case for each kind of request
    cases request with
    | send request => exact spared_of_sendTo (eq_error_of_map h)
    | download request => exact spared_of_downloadTo (eq_error_of_map h)
    | upload screenName => exact spared_of_uploadFrom (eq_error_of_map h)
    | report screenName => exact spared_of_answered (eq_error_of_map h) fun _ _ => ⟨_, rfl⟩
    | cancel screenName direction =>
      exact spared_of_answered (eq_error_of_map h) fun _ _ => ⟨_, rfl⟩
    | clearFailed screenName => exact spared_of_answered (eq_error_of_map h) fun _ _ => ⟨_, rfl⟩

end Server

-- ---------------------------------------------------------------------------
-- Sending
-- ---------------------------------------------------------------------------

namespace Connection

/-- What is sent at once goes behind what waits, and a burst takes chunks off the front. -/
theorem exists_taken_of_sendNow (c : Connection) (hopen : c.isClosed = false) (now : Nat)
    (chunks : List Chunk) :
    ∃ taken, c.pacer.queue ++ chunks = taken ++ (c.sendNow now chunks).1.pacer.queue ∧
      (c.sendNow now chunks).1.outbound.frames = c.outbound.frames ++
        (Chunk.framesAfter c.pacer.rx c.pacer.tx (taken.filter (·.FitsFrame))).map Frame.bytes ∧
      (c.sendNow now chunks).2 = (taken.filter (·.FitsFrame)).length := by
  obtain ⟨hpacer, hchannel⟩ := Bool.or_eq_false_iff.mp hopen
  have hreceived : c.outbound.received = true := by simpa using hchannel
  have hqueue : (c.send chunks).pacer = { c.pacer with queue := c.pacer.queue ++ chunks } :=
    Pacer.enqueue_of_open hpacer chunks
  have hstill : (c.send chunks).pacer.closed = false := by
    rw [hqueue]
    exact hpacer
  obtain ⟨burst, taken, hmoved, hdrain⟩ :=
    Pacer.exists_moved hstill hreceived (c.send chunks).pacer.burst
  have haccounted := hmoved.accounted
  have hdelivered := hmoved.delivered
  rw [hqueue] at haccounted hdelivered
  refine ⟨taken, ?_, ?_, ?_⟩
  · show _ = taken ++ ((c.send chunks).pacer.drain c.outbound _).1.queue
    rw [hdrain]
    exact haccounted
  · show ((c.send chunks).pacer.drain c.outbound _).2.1.frames = _
    rw [hdrain]
    exact hdelivered
  · show ((c.send chunks).pacer.drain c.outbound _).2.2.length = _
    rw [hdrain]

/-- A connection after something was sent to it on request: `chunks` are those of the request, `taken`
those that an immediate request takes off the front of the queue, and `sent` those that it has put into
the channel. -/
structure Sent (limit : Nat) (request : SendRequest) (before after : Connection)
    (answer : SendAnswer) (chunks taken sent : List Chunk) : Prop where
  compiled : ∃ script label, Server.sendScript request before = .ok (script, label) ∧
    script.compile limit answer.streamId label = .ok chunks
  streamId : ∀ chunk ∈ chunks, chunk.streamId = answer.streamId
  accounted : before.pacer.queue ++ chunks = taken ++ after.pacer.queue
  sent_eq : sent = taken.filter (·.FitsFrame)
  delivered : after.outbound.frames = before.outbound.frames ++
    (Chunk.framesAfter before.pacer.rx before.pacer.tx sent).map Frame.bytes
  deferred : request.immediate = false → taken = []
  screenName_eq : answer.screenName = before.screenName
  chunks_eq : answer.chunks = chunks.length
  sentNow_eq : answer.sentNow = sent.length

variable {limit : Nat} {request : SendRequest} {before after : Connection} {answer : SendAnswer}
  {chunks taken sent : List Chunk}

/-- What has been sent and what is left are what was there and what was added, if all of it fits
frames. -/
theorem Sent.lossless (h : Sent limit request before after answer chunks taken sent)
    (hfits : ∀ chunk ∈ before.pacer.queue ++ chunks, chunk.FitsFrame) :
    sent ++ after.pacer.queue = before.pacer.queue ++ chunks := by
  have htaken : taken.filter (·.FitsFrame) = taken := by
    rw [h.accounted] at hfits
    refine List.filter_eq_self.mpr fun chunk hmem => decide_eq_true ?_
    exact (List.forall_mem_append.mp hfits).1 chunk hmem
  rw [h.accounted, h.sent_eq, htaken]

/-- Of a request, everything fits frames if the limit does. -/
theorem Sent.fitsFrame (h : Sent limit request before after answer chunks taken sent)
    (hlimit : limit ≤ maxFramePayload) : ∀ chunk ∈ chunks, chunk.FitsFrame := by
  obtain ⟨script, label, -, hcompile⟩ := h.compiled
  exact fun chunk hmem => (Script.payloadLength_of_compile hcompile chunk hmem).trans hlimit

end Connection

namespace Server

variable {now i : Nat} {server : Server} {c : Connection} {request : SendRequest}
  {answer : SendAnswer}

/-- A request whose chunks can be compiled is carried out. -/
theorem sendTo_of_compile (honline : server.online? request.screenName = some (i, c))
    {script : Script} {label : String} (hscript : sendScript request c = .ok (script, label))
    {chunks : List Chunk}
    (hcompile : script.compile server.framePayload c.takeStreamId.2 label = .ok chunks) :
    server.sendTo now request =
      let (after, sentNow) := if request.immediate then c.takeStreamId.1.sendNow now chunks
        else (c.takeStreamId.1.send chunks, 0)
      (server.put i after, .ok ⟨c.screenName, c.takeStreamId.2, chunks.length, sentNow⟩) := by
  rw [sendTo, withOnline, honline]
  dsimp only
  rw [hscript]
  dsimp only
  rw [hcompile]
  cases request.immediate <;> rfl

/-- What a request to send does to an open connection. -/
theorem sent_of_answered (honline : server.online? request.screenName = some (i, c))
    (hopen : c.isClosed = false) (h : (server.sendTo now request).2 = .ok answer) :
    ∃ after chunks taken sent, (server.sendTo now request).1 = server.put i after ∧
      Connection.Sent server.framePayload request c after answer chunks taken sent := by
  obtain ⟨script, label, chunks, hscript, hcompile⟩ : ∃ script label chunks,
      sendScript request c = .ok (script, label) ∧
      script.compile server.framePayload c.takeStreamId.2 label = .ok chunks := by
    rw [sendTo, withOnline, honline] at h
    dsimp only at h
    split at h
    · cases h
    · next script label hscript =>
      split at h
      · cases h
      · next chunks hchunks =>
        exact ⟨script, label, chunks, hscript, Refusal.eq_ok_of_orCompile hchunks⟩
  have hstream := Script.streamId_of_compile hcompile
  rw [sendTo_of_compile honline hscript hcompile] at h ⊢
  cases himmediate : request.immediate with
  | false =>
    rw [himmediate] at h
    cases h
    have hpacer : c.pacer.closed = false := (Bool.or_eq_false_iff.mp hopen).1
    have hqueue : (c.takeStreamId.1.send chunks).pacer =
        { c.pacer with queue := c.pacer.queue ++ chunks } := Pacer.enqueue_of_open hpacer chunks
    refine ⟨c.takeStreamId.1.send chunks, chunks, [], [], rfl, ⟨script, label, hscript, hcompile⟩,
      hstream, ?_, rfl, (List.append_nil _).symm, fun _ => rfl, rfl, rfl, rfl⟩
    rw [hqueue]
    rfl
  | true =>
    rw [himmediate] at h
    cases h
    obtain ⟨taken, haccounted, hdelivered, hcount⟩ :=
      c.takeStreamId.1.exists_taken_of_sendNow hopen now chunks
    exact ⟨_, chunks, taken, _, rfl, ⟨script, label, hscript, hcompile⟩, hstream, haccounted, rfl,
      hdelivered, (fun hnot => nomatch himmediate.symm.trans hnot), rfl, rfl, hcount⟩

end Server

-- ---------------------------------------------------------------------------
-- All requests
-- ---------------------------------------------------------------------------

namespace Traffic

/-- Whatever the operator asks of a server: if it is refused, nothing is left of it but an id that was
used up and the expiry of what was idle on the connection, with the notices about that.  What is sent
to an open connection on request stands on one stream behind what waited, and the burst of an immediate
request loses nothing if all of that fits frames, as everything of the request does if the limit for
frames does. -/
theorem requests_all_or_nothing (server : Server) (now : Nat) :
    (∀ (query : Query) (refusal : Refusal), (query.respond server now).2 = .error refusal →
      Server.Spared now (query.subject server) server (query.respond server now).1) ∧
    ∀ (request : SendRequest) (i : Nat) (c : Connection) (answer : SendAnswer),
      server.online? request.screenName = some (i, c) → c.isClosed = false →
      (server.sendTo now request).2 = .ok answer →
      ∃ after chunks taken sent, (server.sendTo now request).1 = server.put i after ∧
        c.Sent server.framePayload request after answer chunks taken sent ∧
        (server.framePayload ≤ maxFramePayload → ∀ chunk ∈ chunks, chunk.FitsFrame) ∧
        ((∀ chunk ∈ c.pacer.queue ++ chunks, chunk.FitsFrame) →
          sent ++ after.pacer.queue = c.pacer.queue ++ chunks) := by
  refine ⟨fun query refusal h => Server.spared_of_refused h, ?_⟩
  intro request i c answer honline hopen h
  obtain ⟨after, chunks, taken, sent, hserver, hsent⟩ := Server.sent_of_answered honline hopen h
  exact ⟨after, chunks, taken, sent, hserver, hsent, hsent.fitsFrame, hsent.lossless⟩

/-- A client is online, and a file is being served to it that was due long ago. -/
def waiting : Server :=
  (run (.start ⟨4, 8⟩ ⟨100, 1000, 256⟩ (.ofNames []) (.memory .empty))
    [.step .comeUp, .step (.frame 0 ((ClientMessage.signOn "Ann").frame 16 0)),
      .ask (.download ⟨"ann", "notes.txt", some "010203"⟩)]).server

/-- A file whose name cannot be stored is refused, but the one before it expires; a message is sent at
once. -/
theorem requests_all_or_nothing_waiting :
    let query : Query := .ask (.download ⟨"ann", "..", some "01"⟩)
    let request : SendRequest := ⟨"ann", none, some "message", [("text", "Hello")], true⟩
    (∃ refusal, (query.respond waiting 2000).2 = .error refusal ∧
      Server.Spared 2000 (query.subject waiting) waiting (query.respond waiting 2000).1) ∧
    ∃ i c answer after chunks sent, waiting.online? request.screenName = some (i, c) ∧
      c.isClosed = false ∧ c.pacer.queue ≠ [] ∧
      (waiting.sendTo 2000 request).2 = .ok answer ∧
      (waiting.sendTo 2000 request).1 = waiting.put i after ∧ sent.length = answer.sentNow ∧
      sent ++ after.pacer.queue = c.pacer.queue ++ chunks := by
  intro query request
  obtain ⟨hrefused, hsent⟩ := requests_all_or_nothing waiting 2000
  constructor
  · have herror : (query.respond waiting 2000).2.toOption.isNone = true := by
      decide +kernel
    cases hresult : (query.respond waiting 2000).2 with
    | ok answer =>
      rw [hresult] at herror
      cases herror
    | error refusal => exact ⟨refusal, rfl, hrefused query refusal hresult⟩
  · have hclient : (waiting.online? request.screenName).any (fun found =>
        decide (found.2.isClosed = false ∧ found.2.pacer.queue ≠ [] ∧
          ∀ chunk ∈ found.2.pacer.queue, chunk.FitsFrame)) = true := by
      decide +kernel
    have hanswer : (waiting.sendTo 2000 request).2.toOption.any (fun _ => true) = true := by
      decide +kernel
    obtain ⟨⟨i, c⟩, honline, hclient⟩ := (Option.any_eq_true _ _).mp hclient
    obtain ⟨hopen, hqueue, hwaiting⟩ := of_decide_eq_true hclient
    obtain ⟨answer, hanswer, -⟩ := exists_of_any hanswer
    obtain ⟨after, chunks, taken, sent, hserver, hrecord, hfits, hlossless⟩ :=
      hsent request i c answer honline hopen hanswer
    have hchunks := hfits (by decide +kernel)
    exact ⟨i, c, answer, after, chunks, sent, honline, hopen, hqueue, hanswer, hserver,
      hrecord.sentNow_eq.symm, hlossless (List.forall_mem_append.mpr ⟨hwaiting, hchunks⟩)⟩

-- ---------------------------------------------------------------------------
-- The exception
-- ---------------------------------------------------------------------------

/-- The atom that appends a block of bytes. -/
def block (data : Bytes) : Atom :=
  .mk (.plain "idb_append_data" .idb 3 [.raw]) [.raw data] 0

/-- A script that appends three blocks. -/
def blocks (data : Bytes) : Script :=
  .ofAtoms [block data, block data, block data]

/-- Its atoms, with the brackets of the stream. -/
def blockAtoms (data : Bytes) : List Atom :=
  [Script.opener, block data, block data, block data, Script.closer]

section Blocks

variable {data : Bytes}

/-- None of the atoms carries a stream. -/
theorem operands_of_mem_blockAtoms {a : Atom} (h : a ∈ blockAtoms data) :
    a = Script.opener ∨ a = block data ∨ a = Script.closer := by
  simp only [blockAtoms, List.mem_cons, List.not_mem_nil, or_false] at h
  tauto

/-- What is true of the three kinds of atoms is true of all of them. -/
theorem everywhere_blockAtoms {P : Atom → Prop} (hopener : P Script.opener) (hblock : P (block data))
    (hcloser : P Script.closer) : Atom.Everywhere P (blockAtoms data) := by
  intro a hwithin
  have hmem := Atom.mem_of_within_of_plain hwithin fun b hb => by
    rcases operands_of_mem_blockAtoms hb with rfl | rfl | rfl <;>
      simp [Atom.IsPlain, Script.opener, Script.closer, block, Atom.operands, Operand.type]
  rcases operands_of_mem_blockAtoms hmem with rfl | rfl | rfl
  · exact hopener
  · exact hblock
  · exact hcloser

theorem isLegible_block (hdata : data ≠ []) : (block data).IsLegible := by
  refine ⟨⟨"idb_append_data", [.raw data], rfl⟩, ?_, ?_⟩
  · intro op hop
    rw [List.mem_singleton.mp hop]
    exact hdata
  · intro inner hinner
    cases List.mem_singleton.mp hinner

/-- The statement of a block is the call that adds the block. -/
theorem calls_block (line : Nat) (rest : List Statement) :
    Statement.calls ((block data).statement line :: rest) = do
      return .pushAtom (block data) :: (← Statement.calls rest) := by
  have hrole : ((block data).statement line).role = .plain := rfl
  have hfresh : Atom.Everywhere Atom.IsFresh [block data] := by
    refine Atom.everywhere_cons.mpr ⟨⟨rfl, fun inner hinner => ?_⟩, fun inner hinner => ?_,
      Atom.everywhere_nil _⟩ <;> cases List.mem_singleton.mp hinner
  have hcall : ((block data).statement line).call = .ok (.pushAtom (block data)) := by
    rw [Statement.call, hrole]
    dsimp only
    rw [Atom.operands_statement line _ hfresh]
    rfl
  rw [Statement.calls_cons, hcall]
  · rfl
  · rw [hrole]
    decide
  · exact fun next _ => Statement.isPair_of_role hrole (by decide) next

/-- The listing of the atoms is source text for the script. -/
theorem parse_blockAtoms (hdata : data ≠ []) :
    Script.parse (Atom.listing (blockAtoms data)) = .ok (blocks data) := by
  have hlegible : Atom.Everywhere Atom.IsLegible (blockAtoms data) :=
    everywhere_blockAtoms ⟨⟨"uni_start_stream", [], rfl⟩, nofun, nofun⟩ (isLegible_block hdata)
      ⟨⟨"uni_end_stream", [], rfl⟩, nofun, nofun⟩
  rw [Script.parse_eq_ok_iff (Atom.read_listing hlegible)]
  refine ⟨[.stream, .pushAtom (block data), .pushAtom (block data), .pushAtom (block data),
    .endStream], ?_, rfl⟩
  simp only [blockAtoms, List.zipIdx_cons, List.zipIdx_nil, List.map_cons, List.map_nil]
  rw [Statement.calls_cons, calls_block, calls_block, calls_block, Statement.calls_cons,
    Statement.calls_nil]
  · rfl
  -- brackets are no actions, and no criteria
  · decide
  · exact fun next hnext => nomatch hnext
  · decide
  · have hrole : (Script.opener.statement 1).role = .startStream := rfl
    exact fun next _ => Statement.isPair_of_role hrole (by decide) next

/-- All of it is one chunk if frames have room for that. -/
theorem compile_blocks (hdata : 128 ≤ data.length) (hmax : data.length ≤ Atom.maxData)
    {limit : Nat} (hlimit : 22 + 3 * data.length ≤ limit) (streamId : UInt16) (label : String) :
    ∃ chunk, (blocks data).compile limit streamId label = .ok [chunk] ∧
      chunk.payloadLength = 22 + 3 * data.length := by
  have hblock : (block data).IsSimple := by
    refine ⟨⟨"idb_append_data", [.raw data], rfl⟩, fun op hop => ?_, hmax⟩
    rw [List.mem_singleton.mp hop]
    simp [Operand.type]
  have hsimple : ∀ a ∈ [block data, block data, block data], a.IsSimple := by
    simp [hblock]
  have hroom : Script.FitsFrames limit := by
    simp only [Script.FitsFrames, Chunk.headLength, Chunk.maxHeader]
    omega
  obtain ⟨chunks, hcompile⟩ := Script.succeeds_compile_ofAtoms hsimple hroom streamId label
  obtain ⟨atoms, encoded, hflatten, hencoded, hchunks⟩ := Script.compile_eq_ok_iff.mp hcompile
  have hatoms : Atom.assignDepths 0
      (Script.opener :: ([block data, block data, block data] ++ [Script.closer])) =
        [Script.opener, (block data).atDepth 1, (block data).atDepth 1, (block data).atDepth 1,
          Script.closer] := by
    cbv
  rw [Script.flatten_ofAtoms, hatoms] at hflatten
  cases hflatten
  have hlength : encoded.bytes.length = 18 + 3 * data.length := by
    have hopener : Script.opener.dataLength = 0 := rfl
    have hdataLength : ((block data).atDepth 1).dataLength = data.length := by
      cbv
    have hcloser : Script.closer.dataLength = 0 := rfl
    have hshort : 0 < 0x80 := by decide
    obtain ⟨layouts, hlayouts, heq⟩ := bind_eq_ok_iff.mp hencoded
    cases heq
    rw [Encoded.bytes_ofLayout, (Atom.length_of_layoutEach hlayouts).2]
    simp only [Atom.streamLength, hopener, hdataLength, hcloser, hshort, Nat.not_lt.mpr hdata, if_true,
      if_false]
    omega
  have hsingle := Chunk.ofStream_of_fits hencoded (List.ne_nil_of_length_pos (by omega)) hroom
    (by rw [hlength, Chunk.headLength]; omega) .stream streamId label
  refine ⟨_, Script.compile_eq_ok_iff.mpr ⟨_, _, ?_, hencoded, hsingle⟩, ?_⟩
  · rw [blocks, Script.flatten_ofAtoms, hatoms]
  · rw [Chunk.payloadLength, Chunk.single, hlength, Chunk.headLength]
    omega

end Blocks

/-- The client at the end of a wide link. -/
def guest : Connection :=
  .new 1 "guest" ⟨.windows, 0, false⟩ (.new 256) 8

/-- The client is online, and the limit for frames is larger than frames can be. -/
def roomy : Server :=
  let server := Server.new ⟨8, 256⟩ ⟨1000000, 60000, 100000⟩ (.ofNames []) (.memory .empty)
  ((server.add guest).1.register 0).1

/-- A third of what does not fit a frame. -/
def bulk : Bytes :=
  List.replicate 22000 0

theorem length_bulk : bulk.length = 22000 :=
  List.length_replicate

/-- Three blocks are to be sent at once. -/
def bulky : SendRequest :=
  ⟨"guest", some (Atom.listing (blockAtoms bulk)), none, [], true⟩

/-- A chunk of the request itself may be too large for frames.  Then it is neither sent nor queued,
although the request is answered. -/
theorem bulky_request_lost :
    ∃ script label chunk answer after, roomy.online? bulky.screenName = some (0, guest) ∧
      guest.isClosed = false ∧ guest.pacer.queue = [] ∧
      Server.sendScript bulky guest = .ok (script, label) ∧
      script.compile roomy.framePayload answer.streamId label = .ok [chunk] ∧
      roomy.sendTo 0 bulky = (roomy.put 0 after, .ok answer) ∧
      answer.chunks = 1 ∧ answer.sentNow = 0 ∧ after.pacer.queue = [] ∧
      ∀ sent, sent.length = answer.sentNow →
        sent ++ after.pacer.queue ≠ guest.pacer.queue ++ [chunk] := by
  have honline : roomy.online? bulky.screenName = some (0, guest) := by
    decide +kernel
  have hroom : 22 + 3 * bulk.length ≤ roomy.framePayload := by
    rw [length_bulk]
    decide +kernel
  have hscript : Server.sendScript bulky guest = .ok (blocks bulk, "api_source") := by
    have hparse := parse_blockAtoms (List.ne_nil_of_length_pos (by rw [length_bulk]; decide))
    show (Refusal.orCompile (Script.parse (Atom.listing (blockAtoms bulk))) >>= fun script =>
      pure (script, "api_source")) = _
    rw [hparse]
    rfl
  obtain ⟨chunk, hcompile, hsize⟩ := compile_blocks (by rw [length_bulk]; decide)
    (by rw [length_bulk]; decide) hroom guest.takeStreamId.2 "api_source"
  have hwide : ¬chunk.FitsFrame := by
    rw [Chunk.FitsFrame, hsize, length_bulk]
    decide
  obtain ⟨taken, haccounted, -, hcount⟩ :=
    guest.takeStreamId.1.exists_taken_of_sendNow rfl 0 [chunk]
  -- the burst takes the chunk off the queue, and does not send it
  have hopen : (guest.takeStreamId.1.send [chunk]).pacer.closed = false := rfl
  have hreceived : guest.outbound.received = true := rfl
  have hshorter := Pacer.length_drain_lt hopen hreceived (by decide) (by decide : 8 ≠ 0)
    (List.cons_ne_nil chunk [])
  have hqueue : (guest.takeStreamId.1.sendNow 0 [chunk]).1.pacer.queue = [] :=
    List.length_eq_zero_iff.mp (Nat.lt_one_iff.mp hshorter)
  rw [hqueue, List.append_nil] at haccounted
  obtain rfl : [chunk] = taken := haccounted
  have hnone : (guest.takeStreamId.1.sendNow 0 [chunk]).2 = 0 := by
    rw [hcount, List.filter_singleton, decide_eq_false hwide]
    rfl
  have hsend : roomy.sendTo 0 bulky = (roomy.put 0 (guest.takeStreamId.1.sendNow 0 [chunk]).1,
      .ok ⟨"guest", guest.takeStreamId.2, 1, (guest.takeStreamId.1.sendNow 0 [chunk]).2⟩) := by
    rw [Server.sendTo_of_compile honline hscript hcompile, show bulky.immediate = true from rfl]
    rfl
  refine ⟨blocks bulk, "api_source", chunk,
    ⟨"guest", guest.takeStreamId.2, 1, (guest.takeStreamId.1.sendNow 0 [chunk]).2⟩, _, honline, rfl,
    rfl, hscript, hcompile, hsend, rfl, hnone, hqueue, fun sent hsent => ?_⟩
  rw [List.length_eq_zero_iff.mp (hsent.trans hnone), hqueue]
  exact (List.cons_ne_nil chunk []).symm

end Traffic

end Switchboard
