import Switchboard.Link
import Switchboard.Proofs.Transfer.Change

/-!
# What happens on a link

A frame on a link that nobody has signed on to changes nothing that links share, unless it is a sign-on
that the directory admits.  On a link with a connection, a frame changes that connection, and what it
says about transfers.  Taking a link down closes its connection.

Main results:

* `Server.register_of_some`: a new connection closes the one that was online in its place.
* `Server.get?_unregister`: what is unregistered is the connection with the given id, or nothing.
* `Link.onFrame_of_admitted`, `Link.onFrame_of_refused` and `Link.onFrame_of_connection`: all that a
  frame can do.
-/

namespace Switchboard

-- ---------------------------------------------------------------------------
-- The registry
-- ---------------------------------------------------------------------------

namespace Server

variable {server : Server} {i : Nat} {c : Connection}

theorem modify_of_some (h : server.connections[i]? = some c) (f : Connection → Connection) :
    server.modify i f = server.put i (f c) := by
  rw [modify, put, List.modify_eq_set_getElem?, h]
  rfl

theorem getElem?_put (h : server.connections[i]? = some c) (after : Connection) :
    (server.put i after).connections[i]? = some after :=
  List.getElem?_set_self (List.getElem?_eq_some_iff.mp h).1

theorem put_put (server : Server) (i : Nat) (first second : Connection) :
    (server.put i first).put i second = server.put i second := by
  rw [put, put, put, List.set_set]

/-- The connections once the one that is online under an identity has been closed. -/
def evicting (server : Server) (identity : String) : List Connection :=
  match server.registry.get? identity with
  | none => server.connections
  | some j => server.connections.modify j (·.close)

theorem length_evicting (server : Server) (identity : String) :
    (server.evicting identity).length = server.connections.length := by
  unfold evicting
  split
  · rfl
  · exact List.length_modify _ _ _

theorem getElem?_evicting (server : Server) (identity : String) (p : Nat) :
    (server.evicting identity)[p]? =
      if server.registry.get? identity = some p then server.connections[p]?.map (·.close)
      else server.connections[p]? := by
  unfold evicting
  cases server.registry.get? identity with
  | none => rfl
  | some j =>
    rw [List.getElem?_modify]
    by_cases h : j = p
    · simp [h]
    · simp [h]

/-- A new connection is not the one to be closed. -/
theorem evicting_add {identity : String} (c : Connection)
    (hplaced : ∀ j, server.registry.get? identity = some j → j < server.connections.length) :
    (server.add c).1.evicting identity = server.evicting identity ++ [c] := by
  show (match server.registry.get? identity with
    | none => server.connections ++ [c]
    | some j => (server.connections ++ [c]).modify j (·.close)) = _
  unfold evicting
  cases hold : server.registry.get? identity with
  | none => rfl
  | some j =>
    have hlt := hplaced j hold
    dsimp only
    rw [List.modify_eq_set_getElem?, List.modify_eq_set_getElem?, List.getElem?_append_left hlt,
      List.getElem?_eq_getElem hlt]
    exact List.set_append_left j _ hlt

/-- Registering a connection closes the one that was online under its identity. -/
theorem register_of_some (h : server.connections[i]? = some c) :
    (server.register i).1 = { server with
      connections := server.evicting c.identity, registry := server.registry.put c.identity i } := by
  rw [register, h]
  dsimp only
  rw [evicting]
  cases server.registry.get? c.identity <;> rfl

/-- A connection that is added and registered takes the place of the one that is online under its
identity, which is closed. -/
theorem register_add (server : Server) (c : Connection)
    (hplaced : ∀ j, server.registry.get? c.identity = some j → j < server.connections.length) :
    ((server.add c).1.register server.connections.length).1 = { server with
      connections := server.evicting c.identity ++ [c]
      registry := server.registry.put c.identity server.connections.length } := by
  have hadded : (server.add c).1.connections[server.connections.length]? = some c :=
    List.getElem?_concat_length
  rw [register_of_some hadded, evicting_add c hplaced]
  rfl

theorem isRegistered_iff {identity : String} {id : UInt64} :
    server.isRegistered identity id = true ↔
      ∃ i c, server.registry.get? identity = some i ∧ server.connections[i]? = some c ∧ c.id = id := by
  unfold isRegistered
  cases server.registry.get? identity with
  | none => simp
  | some i => simp [Option.any_eq_true]

/-- Unregistering takes an identity out of the registry if it is online with the given id. -/
theorem get?_unregister (server : Server) (identity : String) (id : UInt64) (key : String) :
    (server.unregister identity id).1.registry.get? key =
      if key = identity ∧ server.isRegistered identity id = true then none
      else server.registry.get? key := by
  unfold unregister
  by_cases h : server.isRegistered identity id = true
  · rw [if_pos h]
    show (server.registry.erase identity).get? key = _
    rw [Dictionary.get?_erase]
    simp [h]
  · rw [if_neg h, if_neg fun hboth => h hboth.2]

/-- Nothing but the registry changes. -/
theorem unregister_eq (server : Server) (identity : String) (id : UInt64) :
    (server.unregister identity id).1 =
      { server with registry := (server.unregister identity id).1.registry } := by
  unfold unregister
  split <;> rfl

theorem nodup_keys_unregister (server : Server) (identity : String) (id : UInt64)
    (h : server.registry.keys.Nodup) :
    (server.unregister identity id).1.registry.keys.Nodup := by
  unfold unregister
  split
  · exact Dictionary.nodup_keys_erase h identity
  · exact h

end Server

-- ---------------------------------------------------------------------------
-- Links
-- ---------------------------------------------------------------------------

/-- The message in the payload of a data frame. -/
def DataPayload.message? (payload : Bytes) : Option ClientMessage :=
  match parse payload with
  | .error _ => none
  | .ok data => (ClientMessage.parse data.token data.body).toOption

/-- The screen name that a client asks for, if the message is a sign-on. -/
def ClientMessage.signOn? : ClientMessage → Option String
  | signOn requested => some requested
  | _ => none

/-- The screen name that a client asks for, if the frame is a sign-on. -/
def Frame.signOn? (frame : Frame) : Option String :=
  if frame.kind = .data then (DataPayload.message? frame.payload).bind ClientMessage.signOn? else none

namespace Link

/-- The position of the connection that has signed on. -/
def connection? (link : Link) : Option Nat :=
  match link.phase with
  | .greeting .. => none
  | .signedOn i => some i

variable {server : Server} {link : Link} {now i : Nat} {frame : Frame} {c : Connection}

theorem phase_of_none (h : link.connection? = none) :
    ∃ outbound rx, link.phase = .greeting outbound rx := by
  unfold connection? at h
  split at h
  · next outbound rx hphase => exact ⟨outbound, rx, hphase⟩
  · cases h

theorem phase_of_some (h : link.connection? = some i) : link.phase = .signedOn i := by
  unfold connection? at h
  split at h
  · cases h
  · next hphase => rw [hphase, Option.some.inj h]

-- ---------------------------------------------------------------------------
-- Signing on
-- ---------------------------------------------------------------------------

/-- A connection whose client has been greeted, if the scene could be compiled. -/
def greeted (framePayload : Nat) (c : Connection) : Connection :=
  match welcomeChunks framePayload c with
  | (c, .ok chunks) => c.send chunks
  | (c, .error _) => c

/-- Greeting a client only tells it something. -/
theorem told_greeted (framePayload : Nat) (c : Connection) :
    Connection.Told c (greeted framePayload c) := by
  have hwelcome : Connection.Queued [] c (welcomeChunks framePayload c).1 := by
    unfold welcomeChunks
    split
    · exact .refl c
    · exact c.queued_takeStreamId
  unfold greeted
  split
  · next after chunks heq =>
    rw [heq] at hwelcome
    exact (hwelcome.trans (after.queued_send chunks)).told
  · next after _ heq =>
    rw [heq] at hwelcome
    exact hwelcome.told

/-- The connection of a client that is admitted under a screen name, before it is greeted. -/
def newcomer (server : Server) (link : Link) (outbound : Channel) (rx : UInt8)
    (screenName : String) : Connection :=
  (Connection.new server.nextConnectionId screenName link.profile outbound server.links.burst).setRx rx

/-- A client that is admitted gets a new connection.  It is online in the place of the one before,
which is closed. -/
theorem welcomeAs_eq (server : Server) (link : Link) (outbound : Channel) (rx : UInt8)
    (screenName : String)
    (hplaced : ∀ j, server.registry.get? (identityOf screenName) = some j →
      j < server.connections.length) :
    welcomeAs server link outbound rx screenName =
      ({ server with
          connections := server.evicting (identityOf screenName) ++
            [greeted server.framePayload (newcomer server link outbound rx screenName)]
          registry := server.registry.put (identityOf screenName) server.connections.length
          nextConnectionId := server.nextConnectionId + 1 },
        { link with phase := .signedOn server.connections.length }) := by
  have hregistered :
      ((server.takeConnectionId.1.add (newcomer server link outbound rx screenName)).1.register
        server.connections.length).1 = { server with
          connections := server.evicting (identityOf screenName) ++
            [newcomer server link outbound rx screenName]
          registry := server.registry.put (identityOf screenName) server.connections.length
          nextConnectionId := server.nextConnectionId + 1 } :=
    server.takeConnectionId.1.register_add (newcomer server link outbound rx screenName) hplaced
  -- the newcomer stands behind all others, also once one of them has been closed
  have hthere : (server.evicting (identityOf screenName) ++
      [newcomer server link outbound rx screenName])[server.connections.length]? =
      some (newcomer server link outbound rx screenName) := by
    rw [← server.length_evicting (identityOf screenName)]
    exact List.getElem?_concat_length
  have hset (c : Connection) :
      (server.evicting (identityOf screenName) ++
        [newcomer server link outbound rx screenName]).set server.connections.length c =
        server.evicting (identityOf screenName) ++ [c] := by
    rw [← server.length_evicting (identityOf screenName), List.set_append_right _ _ (Nat.le_refl _),
      Nat.sub_self]
    rfl
  unfold welcomeAs
  change (Server.modify ((server.takeConnectionId.1.add
    (newcomer server link outbound rx screenName)).1.register server.connections.length).1
    server.connections.length (greeted (Server.framePayload ((server.takeConnectionId.1.add
      (newcomer server link outbound rx screenName)).1.register server.connections.length).1)), _) = _
  rw [hregistered, Server.modify_of_some hthere, Server.put]
  dsimp only
  rw [hset]
  rfl

-- ---------------------------------------------------------------------------
-- Frames before a sign-on
-- ---------------------------------------------------------------------------

section Greeting

variable {outbound : Channel} {rx : UInt8}

theorem onData_of_greeting (server : Server) (now : Nat) (payload : Bytes)
    (hphase : link.phase = .greeting outbound rx) :
    onData server link now payload =
      match (DataPayload.message? payload).bind ClientMessage.signOn? with
      | some requested => signOn server link outbound rx requested
      | none => (server, link, .goOn) := by
  unfold onData DataPayload.message?
  rw [hphase]
  cases DataPayload.parse payload with
  | error => rfl
  | ok data =>
    dsimp only
    cases ClientMessage.parse data.token data.body with
    | error => rfl
    | ok message => cases message <;> rfl

/-- Answering a control frame changes nothing that links share. -/
theorem control_of_greeting (server : Server) (kind : FrameKind)
    (hphase : link.phase = .greeting outbound rx) :
    (control server link kind).1 = server ∧ (control server link kind).2.connection? = none := by
  have hlink : link.connection? = none := by rw [connection?, hphase]
  unfold control
  rw [hphase]
  dsimp only
  split
  · exact ⟨rfl, hlink⟩
  · split
    · exact ⟨rfl, rfl⟩
    · exact ⟨rfl, hlink⟩

/-- A frame that admits nobody changes nothing that links share. -/
theorem onFrame_of_refused (server : Server) (now : Nat) (hlink : link.connection? = none)
    (h : frame.signOn?.bind server.directory.lookup = none) :
    (onFrame server link now frame).1 = server ∧
      (onFrame server link now frame).2.1.connection? = none := by
  obtain ⟨outbound, rx, hphase⟩ := phase_of_none hlink
  unfold onFrame
  rw [noteRx, hphase]
  dsimp only
  cases hkind : frame.kind with
  | init => exact control_of_greeting server .ack rfl
  | heartbeat => exact control_of_greeting server .ack rfl
  | ss => exact control_of_greeting server .ssr rfl
  | ack => exact ⟨rfl, rfl⟩
  | nak => exact ⟨rfl, rfl⟩
  | ssr => exact ⟨rfl, rfl⟩
  | data =>
    dsimp only
    rw [Frame.signOn?, if_pos hkind] at h
    rw [onData_of_greeting server now frame.payload rfl]
    cases hrequested : (DataPayload.message? frame.payload).bind ClientMessage.signOn? with
    | none => exact ⟨rfl, rfl⟩
    | some requested =>
      rw [hrequested, Option.bind_some] at h
      dsimp only
      rw [signOn, h]
      exact ⟨rfl, rfl⟩

/-- A frame that admits a client registers its connection. -/
theorem onFrame_of_admitted {screenName : String} (server : Server) (now : Nat)
    (hlink : link.connection? = none)
    (h : frame.signOn?.bind server.directory.lookup = some screenName) :
    ∃ outbound, onFrame server link now frame =
      ((welcomeAs server link outbound frame.tx screenName).1,
        (welcomeAs server link outbound frame.tx screenName).2, .goOn) := by
  obtain ⟨outbound, rx, hphase⟩ := phase_of_none hlink
  obtain ⟨requested, hrequested, hlookup⟩ := Option.bind_eq_some_iff.mp h
  refine ⟨outbound, ?_⟩
  unfold Frame.signOn? at hrequested
  split at hrequested
  · next hkind =>
    unfold onFrame
    rw [noteRx, hphase, hkind]
    dsimp only
    rw [onData_of_greeting server now frame.payload rfl, hrequested]
    dsimp only
    rw [signOn, hlookup]
    rfl
  · cases hrequested

end Greeting

-- ---------------------------------------------------------------------------
-- Frames of a client that has signed on
-- ---------------------------------------------------------------------------

theorem continues_sendControl (c : Connection) (kind : FrameKind) (payload : Bytes) :
    c.Continues (c.sendControl kind payload).1 := by
  unfold Connection.sendControl
  split
  · exact .refl c
  · split
    · exact .refl c
    · split
      · exact .of_eq rfl rfl rfl rfl rfl
      · exact .refl c

section Talking

variable (hlink : link.connection? = some i) (hc : server.connections[i]? = some c)
include hlink hc

theorem onData_of_connection (now : Nat) (payload : Bytes) :
    onData server link now payload =
      match DataPayload.message? payload with
      | some message => ((server.handle i c now message).1, link, .goOn)
      | none => (server, link, .goOn) := by
  unfold onData DataPayload.message?
  rw [phase_of_some hlink]
  cases DataPayload.parse payload with
  | error => rfl
  | ok data =>
    dsimp only
    cases ClientMessage.parse data.token data.body with
    | error => rfl
    | ok message =>
      dsimp only
      rw [hc]
      cases message <;> rfl

theorem noteRx_of_connection (seq : UInt8) :
    noteRx server link seq = (server.put i (c.setRx seq), link) := by
  rw [noteRx, phase_of_some hlink]
  dsimp only
  rw [Server.modify_of_some hc]

theorem control_of_connection (kind : FrameKind) :
    control server link kind = (server.put i (c.sendControl kind []).1, link) := by
  rw [control, phase_of_some hlink]
  dsimp only
  rw [Server.modify_of_some hc]

end Talking

theorem transfers_sendControl (c : Connection) (kind : FrameKind) (payload : Bytes) :
    (c.sendControl kind payload).1.transfers = c.transfers := by
  unfold Connection.sendControl
  split
  · rfl
  · split
    · rfl
    · split <;> rfl

/-- A frame is noted on the connection that has signed on, which leaves its transfers, and then a
message in it is taken. -/
theorem exists_noted_of_onFrame (now : Nat) (frame : Frame) (hlink : link.connection? = some i)
    (hc : server.connections[i]? = some c) :
    ∃ noted transfers after, c.Continues noted ∧ noted.transfers = c.transfers ∧
      (transfers = server.transfers ∧ after = noted ∨ ∃ message,
        transfers = (server.transfers.handle noted now message).1 ∧
        after = (server.transfers.handle noted now message).2.1) ∧
      (onFrame server link now frame).1 = { server with transfers }.put i after ∧
      (onFrame server link now frame).2.1.connection? = some i := by
  have hnoted : c.Continues (c.setRx frame.tx) := .of_eq rfl rfl rfl rfl rfl
  have hthere := Server.getElem?_put hc (c.setRx frame.tx)
  -- the answer to a control frame comes after the number of the frame
  have hcontrol (other : Link) (hother : other.connection? = some i) (kind : FrameKind) :
      ∃ noted transfers after, c.Continues noted ∧ noted.transfers = c.transfers ∧
        (transfers = server.transfers ∧ after = noted ∨ ∃ message,
          transfers = (server.transfers.handle noted now message).1 ∧
          after = (server.transfers.handle noted now message).2.1) ∧
        (control (server.put i (c.setRx frame.tx)) other kind).1 =
          { server with transfers }.put i after ∧
        (control (server.put i (c.setRx frame.tx)) other kind).2.connection? = some i := by
    rw [control_of_connection hother hthere]
    exact ⟨_, server.transfers, _, hnoted.trans (continues_sendControl _ kind []),
      transfers_sendControl _ kind [], .inl ⟨rfl, rfl⟩, server.put_put i _ _, hother⟩
  unfold onFrame
  rw [noteRx_of_connection hlink hc]
  dsimp only
  cases frame.kind with
  | init => exact hcontrol { link with profile := .ofAnnouncement frame.payload } hlink .ack
  | heartbeat => exact hcontrol link hlink .ack
  | ss => exact hcontrol link hlink .ssr
  | ack => exact ⟨_, server.transfers, _, hnoted, rfl, .inl ⟨rfl, rfl⟩, rfl, hlink⟩
  | nak => exact ⟨_, server.transfers, _, hnoted, rfl, .inl ⟨rfl, rfl⟩, rfl, hlink⟩
  | ssr => exact ⟨_, server.transfers, _, hnoted, rfl, .inl ⟨rfl, rfl⟩, rfl, hlink⟩
  | data =>
    dsimp only
    rw [onData_of_connection hlink hthere]
    cases DataPayload.message? frame.payload with
    | none => exact ⟨_, server.transfers, _, hnoted, rfl, .inl ⟨rfl, rfl⟩, rfl, hlink⟩
    | some message =>
      exact ⟨_, _, _, hnoted, rfl, .inr ⟨message, rfl, rfl⟩,
        Server.put_put { server with transfers := _ } i _ _, hlink⟩

/-- A frame changes the connection that has signed on, and what all connections share for their
transfers. -/
theorem onFrame_of_connection (now : Nat) (frame : Frame) (hlink : link.connection? = some i)
    (hc : server.connections[i]? = some c) :
    ∃ transfers after, c.Continues after ∧
      (onFrame server link now frame).1 = { server with transfers }.put i after ∧
      (onFrame server link now frame).2.1.connection? = some i := by
  obtain ⟨noted, transfers, after, hnoted, -, htaken, hserver, hafter⟩ :=
    exists_noted_of_onFrame now frame hlink hc
  refine ⟨transfers, after, ?_, hserver, hafter⟩
  rcases htaken with ⟨-, rfl⟩ | ⟨message, -, rfl⟩
  · exact hnoted
  · exact hnoted.trans
      ((Transfers.Operation.handle message).continues_run server.transfers noted now nofun)

/-- To a sign-on the connection that has signed on pays no attention: its frame is noted, as every frame
is, and what is idle expires, as with every message. -/
theorem onFrame_signOn_again (now : Nat) {frame : Frame} {requested : String}
    (hlink : link.connection? = some i) (hc : server.connections[i]? = some c)
    (h : frame.signOn? = some requested) :
    onFrame server link now frame =
      (server.put i ((c.setRx frame.tx).sweep server.transfers.limits now).1, link, .goOn) := by
  unfold Frame.signOn? at h
  split at h
  · next hkind =>
    obtain ⟨message, hmessage, hrequested⟩ := Option.bind_eq_some_iff.mp h
    obtain rfl : message = .signOn requested := by
      cases message <;> cases hrequested
      rfl
    unfold onFrame
    rw [noteRx_of_connection hlink hc, hkind]
    dsimp only
    rw [onData_of_connection hlink (Server.getElem?_put hc _), hmessage]
    -- it is about no transfer, so nothing happens but the sweep
    have hhandled : ((server.put i (c.setRx frame.tx)).handle i (c.setRx frame.tx) now
        (.signOn requested)).1 =
        (server.put i (c.setRx frame.tx)).put i
          ((c.setRx frame.tx).sweep server.transfers.limits now).1 := rfl
    dsimp only
    rw [hhandled, Server.put_put]
  · cases h

-- ---------------------------------------------------------------------------
-- Taking a link down
-- ---------------------------------------------------------------------------

theorem teardown_of_greeting (server : Server) (hlink : link.connection? = none) :
    teardown server link = server := by
  obtain ⟨outbound, rx, hphase⟩ := phase_of_none hlink
  rw [teardown, hphase]

theorem teardown_of_connection (hlink : link.connection? = some i)
    (hc : server.connections[i]? = some c) :
    teardown server link = ((server.put i c.close).unregister c.identity c.id).1 := by
  rw [teardown, phase_of_some hlink]
  dsimp only
  rw [hc]

end Link

end Switchboard
