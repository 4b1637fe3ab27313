import Switchboard.Admin
import Switchboard.Proofs.Link
import Switchboard.Proofs.Traffic.Queue

/-!
# What all connections of a server have in common

A property is lasting if connections have it when they are new and keep it in whatever is done to one
of them.  Then all connections have it, whatever happens to the server.  There is one lemma for each
function of the server that touches connections: those that change its list of connections, those of
links, and those that answer its operator.

Main results:

* `Server.Upholds.operate`: operations on connections keep what is lasting.
* `Server.Upholds.onFrame`: so do frames from clients.
* `Server.Upholds.sendTo`: so does what the operator sends.
-/

namespace Switchboard

open Transfers (Operation)

/-- A property that every new connection has, under the given limits for bursts and for frames, and
that is not lost in anything that is done to a connection. -/
structure Connection.IsLasting (burst limit : Nat) (P : Connection → Prop) : Prop where
  new (id : UInt64) (screenName : String) (profile : ClientProfile) (outbound : Channel) (rx : UInt8) :
    P ((Connection.new id screenName profile outbound burst).setRx rx)
  run {service : TransferService} {c : Connection} (op : Operation) (now : Nat) (holds : P c)
    (own : op.IsOwn limit) (limit_eq : service.limits.framePayload = limit) :
    P (op.run service c now).2.1
  takeStreamId {c : Connection} (holds : P c) : P c.takeStreamId.1
  sendControl {c : Connection} (holds : P c) (kind : FrameKind) (payload : Bytes) :
    P (c.sendControl kind payload).1

variable {burst limit now i : Nat} {P : Connection → Prop} {server : Server} {c : Connection}

/-- A result that a refusal lets through is that of compiling. -/
theorem Refusal.eq_ok_of_orCompile {α : Type} {x : Except CompileError α} {a : α}
    (h : orCompile x = .ok a) : x = .ok a := by
  cases x with
  | error => cases h
  | ok => exact congrArg Except.ok (Except.ok.inj h)

theorem Link.exists_of_welcomeChunks {after : Connection} {chunks : List Chunk}
    (h : welcomeChunks limit c = (after, .ok chunks)) :
    ∃ script : Script, script.compile limit c.takeStreamId.2 "welcome" = .ok chunks := by
  unfold welcomeChunks at h
  split at h
  · cases h
  · exact ⟨_, congrArg Prod.snd h⟩

/-- What is changed time and again keeps a property, if it does each time. -/
theorem Connection.holds_foldl {α β : Type} {f : Connection × α → β → Connection × α}
    (hf : ∀ s b, P s.1 → P (f s b).1) (bs : List β) (s : Connection × α) (hs : P s.1) :
    P (bs.foldl f s).1 := by
  induction bs generalizing s with
  | nil => exact hs
  | cons b rest ih => exact ih (f s b) (hf s b hs)

namespace Server

/-- A server with the given limits for bursts and for frames, all of whose connections have a
property. -/
structure Upholds (burst limit : Nat) (P : Connection → Prop) (server : Server) : Prop where
  burst_eq : server.links.burst = burst
  limit_eq : server.framePayload = limit
  connections : ∀ c ∈ server.connections, P c

theorem connection_of_online {screenName : String}
    (h : server.online? screenName = some (i, c)) : server.connections[i]? = some c := by
  obtain ⟨j, -, h⟩ := Option.bind_eq_some_iff.mp h
  obtain ⟨d, hd, h⟩ := Option.bind_eq_some_iff.mp h
  cases h
  exact hd

namespace Upholds

variable (h : server.Upholds burst limit P)
include h

-- ---------------------------------------------------------------------------
-- Connections
-- ---------------------------------------------------------------------------

theorem of_getElem? (hc : server.connections[i]? = some c) : P c :=
  h.connections c (List.mem_of_getElem? hc)

theorem put (hc : P c) (i : Nat) : (server.put i c).Upholds burst limit P := by
  refine ⟨h.burst_eq, h.limit_eq, fun other hother => ?_⟩
  rcases List.mem_or_eq_of_mem_set hother with hold | rfl
  · exact h.connections other hold
  · exact hc

theorem modify (i : Nat) {f : Connection → Connection}
    (hf : ∀ c, P c → P (f c)) : (server.modify i f).Upholds burst limit P := by
  cases hc : server.connections[i]? with
  | none =>
    have hsame : server.modify i f = server := by
      rw [Server.modify, List.modify_eq_set_getElem?, hc]
      rfl
    rw [hsame]
    exact h
  | some c =>
    rw [modify_of_some hc]
    exact h.put (hf c (h.of_getElem? hc)) i

theorem add (hc : P c) : (server.add c).1.Upholds burst limit P :=
  ⟨h.burst_eq, h.limit_eq, List.forall_mem_append.mpr ⟨h.connections, List.forall_mem_singleton.mpr hc⟩⟩

theorem unregister (identity : String) (id : UInt64) :
    (server.unregister identity id).1.Upholds burst limit P := by
  rw [unregister_eq]
  exact ⟨h.burst_eq, h.limit_eq, h.connections⟩

variable (hP : Connection.IsLasting burst limit P)
include hP

/-- An operation with what the connections of the server share. -/
theorem run (hc : P c) (op : Operation) (hop : op.IsOwn limit) (now : Nat) :
    P (op.run server.transfers c now).2.1 :=
  hP.run op now hc hop h.limit_eq

theorem close (hc : P c) : P c.close :=
  h.run hP hc .close trivial 0

theorem register (i : Nat) : (server.register i).1.Upholds burst limit P := by
  unfold Server.register
  split
  · exact h
  · next c _ =>
    have hput : { server with registry := server.registry.put c.identity i }.Upholds burst limit P :=
      ⟨h.burst_eq, h.limit_eq, h.connections⟩
    dsimp only
    split
    · exact hput
    · exact hput.modify _ fun _ hc => h.close hP hc

/-- Operations on connections keep what is lasting. -/
theorem operate (hc : P c) (op : Operation) (hop : op.IsOwn limit) (i now : Nat) :
    ({ server with transfers := (op.run server.transfers c now).1 }.put i
      (op.run server.transfers c now).2.1).Upholds burst limit P := by
  have hlimit : server.transfers.limits.framePayload = limit := h.limit_eq
  have hserver : { server with transfers := (op.run server.transfers c now).1 }.Upholds burst
      limit P := by
    refine ⟨h.burst_eq, ?_, h.connections⟩
    show (op.run server.transfers c now).1.limits.framePayload = limit
    rw [op.limits_run, hlimit]
  exact hserver.put (h.run hP hc op hop now) i

/-- Compiled chunks may be queued. -/
theorem send_compiled (hc : P c) {script : Script} {streamId : UInt16} {label : String}
    {chunks : List Chunk} (hchunks : script.compile limit streamId label = .ok chunks) :
    P (c.send chunks) :=
  h.run hP hc (.send chunks) ⟨script, streamId, label, hchunks⟩ 0

-- ---------------------------------------------------------------------------
-- Links
-- ---------------------------------------------------------------------------

theorem noteRx (link : Link) (seq : UInt8) :
    (Link.noteRx server link seq).1.Upholds burst limit P := by
  unfold Link.noteRx
  split
  · exact h.modify _ fun _ hc => h.run hP hc (.setRx seq) trivial 0
  · exact h

theorem control (link : Link) (kind : FrameKind) :
    (Link.control server link kind).1.Upholds burst limit P := by
  unfold Link.control
  split
  · exact h.modify _ fun _ hc => hP.sendControl hc kind []
  · split
    · exact h
    · split <;> exact h

/-- A scene that greets a client may be queued. -/
theorem greeted (hc : P c) : P (Link.greeted limit c) := by
  have hwelcome : P (Link.welcomeChunks limit c).1 := by
    unfold Link.welcomeChunks
    split
    · exact hc
    · exact hP.takeStreamId hc
  unfold Link.greeted
  split
  · next after chunks heq =>
    obtain ⟨script, hcompile⟩ := Link.exists_of_welcomeChunks heq
    rw [heq] at hwelcome
    exact h.send_compiled hP hwelcome hcompile
  · next after _ heq =>
    rw [heq] at hwelcome
    exact hwelcome

theorem welcomeAs (link : Link) (outbound : Channel) (rx : UInt8) (screenName : String) :
    (Link.welcomeAs server link outbound rx screenName).1.Upholds burst limit P := by
  have hid : server.takeConnectionId.1.Upholds burst limit P :=
    ⟨h.burst_eq, h.limit_eq, h.connections⟩
  have hnew : P (Link.newcomer server link outbound rx screenName) := by
    rw [Link.newcomer, h.burst_eq]
    exact hP.new ..
  have hadded := hid.add hnew
  have hregistered := hadded.register hP server.connections.length
  have hgreeted (c : Connection) (hc : P c) :
      P (Link.greeted (framePayload ((server.takeConnectionId.1.add
        (Link.newcomer server link outbound rx screenName)).1.register
          server.connections.length).1) c) := by
    rw [hregistered.limit_eq]
    exact h.greeted hP hc
  exact hregistered.modify _ hgreeted

theorem onData (link : Link) (now : Nat) (payload : Bytes) :
    (Link.onData server link now payload).1.Upholds burst limit P := by
  unfold Link.onData
  split
  · exact h
  · split
    · exact h
    · split
      · unfold Link.signOn
        split
        · exact h
        · exact h.welcomeAs hP ..
      · exact h
      · split
        · next hc => exact h.operate hP (h.of_getElem? hc) (.handle _) trivial _ now
        · exact h

/-- Frames from clients keep what is lasting. -/
theorem onFrame (link : Link) (now : Nat) (frame : Frame) :
    (Link.onFrame server link now frame).1.Upholds burst limit P := by
  have hnoted := h.noteRx hP link frame.tx
  unfold Link.onFrame
  dsimp only
  split
  · exact hnoted.control hP _ .ack
  · exact hnoted.control hP _ .ack
  · exact hnoted.control hP _ .ssr
  · exact hnoted
  · exact hnoted
  · exact hnoted
  · exact hnoted.onData hP _ now frame.payload

theorem teardown (link : Link) : (Link.teardown server link).Upholds burst limit P := by
  unfold Link.teardown
  split
  · exact h
  · split
    · exact h
    · next c hc =>
      exact (h.put (h.close hP (h.of_getElem? hc)) _).unregister c.identity c.id

-- ---------------------------------------------------------------------------
-- Requests
-- ---------------------------------------------------------------------------

omit hP in
/-- A request is refused, or it goes on with a connection. -/
theorem withOnline {α : Type} (screenName : String)
    {next : Nat → Connection → Server × Except Refusal α}
    (hnext : ∀ i c, P c → (next i c).1.Upholds burst limit P) :
    (server.withOnline screenName next).1.Upholds burst limit P := by
  unfold Server.withOnline
  split
  · exact h
  · next i c honline => exact hnext i c (h.of_getElem? (connection_of_online honline))

theorem sendTo (now : Nat) (request : SendRequest) :
    (server.sendTo now request).1.Upholds burst limit P := by
  refine h.withOnline _ fun i c hc => ?_
  dsimp only
  split
  · exact h
  · next script label _ =>
    split
    · exact h.put (hP.takeStreamId hc) i
    · next chunks hchunks =>
      have hcompile : script.compile limit c.takeStreamId.2 label = .ok chunks := by
        rw [h.limit_eq] at hchunks
        exact Refusal.eq_ok_of_orCompile hchunks
      have hsent := h.send_compiled hP (hP.takeStreamId hc) hcompile
      split
      · exact h.put (h.run hP hsent .flush trivial now) i
      · exact h.put hsent i

theorem downloadTo (now : Nat) (request : DownloadRequest) :
    (server.downloadTo now request).1.Upholds burst limit P := by
  refine h.withOnline _ fun i c hc => ?_
  dsimp only
  split
  · exact h
  · next data _ => exact h.operate hP hc (.initiateDownload request.filename data) trivial i now

theorem uploadFrom (now : Nat) (screenName : String) :
    (server.uploadFrom now screenName).1.Upholds burst limit P :=
  h.withOnline _ fun i _ hc => h.operate hP hc .initiateUpload trivial i now

theorem reportOn (now : Nat) (screenName : String) :
    (server.reportOn now screenName).1.Upholds burst limit P :=
  h.withOnline _ fun i _ hc => h.operate hP hc .report trivial i now

theorem cancelOf (now : Nat) (screenName : String) (direction : Option Direction) :
    (server.cancelOf now screenName direction).1.Upholds burst limit P := by
  refine h.withOnline _ fun i c hc => h.put ?_ i
  -- one direction after the other, each on the connection that the last one has left
  refine Connection.holds_foldl (fun s d hs => ?_) _ (c, []) hc
  exact h.run hP hs (.cancel d) trivial now

theorem clearFailedOf (screenName : String) :
    (server.clearFailedOf screenName).1.Upholds burst limit P :=
  h.withOnline _ fun i _ hc => h.operate hP hc .clearFailed trivial i 0

end Upholds

end Server

end Switchboard
