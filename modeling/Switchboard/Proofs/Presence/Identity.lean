import Switchboard.Proofs.Directory
import Switchboard.Proofs.Presence.Online
import Switchboard.Proofs.ScreenName

/-!
# One identity for all spellings

A client asks for a screen name in some spelling, is admitted under the spelling of the directory, and is
registered under an identity.  All of these are spellings of one name, so its connection is found under
each of them, and under no name with another identity, for as long as its entry in the registry stands.

An `Event` is a step of the links, or a call on the registry itself.  `World.Replaces` and
`World.Unregisters` say which events take the entry of a connection away.

Main results:

* `World.online_occur_iff`: one event takes a connection out of the registry if it is one of these, and
  only then.
* `World.IsFiled.follow`: at any time a connection is found under its own identity only.
* `Presence.found_under_one_identity`: what holds of every sign-on.
-/

namespace Switchboard

/-- Unregistering leaves a connection online that has another identity or another id. -/
theorem Server.get?_unregister_eq_some_iff {server : Server} {k identity : String} {id : UInt64}
    {p : Nat} {c : Connection} (honline : server.registry.get? k = some p)
    (hc : server.connections[p]? = some c) :
    (server.unregister identity id).1.registry.get? k = some p ↔ ¬(identity = k ∧ id = c.id) := by
  have hregistered : server.isRegistered k id = true ↔ c.id = id := by
    rw [isRegistered_iff]
    simp [honline, hc]
  rw [get?_unregister]
  by_cases hk : k = identity
  · subst hk
    simp [hregistered, honline, eq_comm]
  · simp [hk, Ne.symm hk, honline]

namespace Presence

theorem Remain.exists_after {before after : List Connection} (h : Remain before after) {p : Nat}
    {c : Connection} (hc : before[p]? = some c) : ∃ c', after[p]? = some c' ∧ Remains c c' := by
  have hlt : p < after.length := by
    rw [← h.1]
    exact (List.getElem?_eq_some_iff.mp hc).1
  exact ⟨after[p], List.getElem?_eq_getElem hlt, h.2 p c _ hc (List.getElem?_eq_getElem hlt)⟩

/-- What can happen to the registry: a step of the server's links, or a call on the registry itself. -/
inductive Event where
  | step (s : Step)
  | register (position : Nat)
  | unregister (identity : String) (id : UInt64)

namespace World

/-- Lets an event happen. -/
def occur (w : World) : Event → World
  | .step s => w.step s
  | .register position => { w with server := (w.server.register position).1 }
  | .unregister identity id => { w with server := (w.server.unregister identity id).1 }

/-- Lets events happen in order. -/
def follow (w : World) (events : List Event) : World :=
  events.foldl occur w

/-- The screen name under which a step admits a client. -/
def admitted? (w : World) : Step → Option String
  | .frame l f =>
    if w.isUp l = true ∧ w.connectionOf? l = none then f.signOn?.bind w.server.directory.lookup
    else none
  | _ => none

/-- The connection whose link a step takes down. -/
def leaving? (w : World) : Step → Option Connection
  | .tearDown l =>
    if w.isUp l = true then (w.connectionOf? l).bind fun p => w.server.connections[p]? else none
  | _ => none

/-- An event puts a new connection in the place of the one at a position, under its identity. -/
def Replaces (w : World) (p : Nat) (identity : String) : Event → Prop
  | .step s => (w.admitted? s).map identityOf = some identity
  | .register q => q ≠ p ∧ w.server.connections[q]?.map (·.identity) = some identity
  | .unregister .. => False

/-- An event unregisters the connection with an id under an identity. -/
def Unregisters (w : World) (identity : String) (id : UInt64) : Event → Prop
  | .step s => ∃ c, w.leaving? s = some c ∧ c.identity = identity ∧ c.id = id
  | .register _ => False
  | .unregister other otherId => other = identity ∧ otherId = id

/-- None of the events replaces or unregisters a connection. -/
def Spares (p : Nat) (c : Connection) : World → List Event → Prop
  | _, [] => True
  | w, e :: rest =>
    ¬ w.Replaces p c.identity e ∧ ¬ w.Unregisters c.identity c.id e ∧ Spares p c (w.occur e) rest

variable {w after : World} {k : String} {p l : Nat} {c : Connection} {names : List String}

-- ---------------------------------------------------------------------------
-- What a step does to the registry
-- ---------------------------------------------------------------------------

/-- A frame registers the client that it admits, if any, behind all others. -/
theorem registry_frame (h : w.IsPlaced) (l : Nat) (f : Frame) :
    (w.frame l f).server.directory = w.server.directory ∧
      (w.frame l f).server.registry = match w.admitted? (.frame l f) with
        | some screenName =>
          w.server.registry.put (identityOf screenName) w.server.connections.length
        | none => w.server.registry := by
  cases hup : w.isUp l with
  | false =>
    have hnone : w.admitted? (.frame l f) = none := by simp [admitted?, hup]
    rw [frame_of_not_isUp hup, hnone]
    exact ⟨rfl, rfl⟩
  | true =>
    obtain ⟨link, hline⟩ := exists_of_isUp hup
    have hof : w.connectionOf? l = link.connection? := connectionOf?_of_line hline
    have hserver : (w.frame l f).server = (Link.onFrame w.server link w.now f).1 := by
      rw [frame_of_line hline]
    cases hlink : link.connection? with
    | some p =>
      have hnone : w.admitted? (.frame l f) = none := by simp [admitted?, hof, hlink]
      have hc := List.getElem?_eq_getElem (h.lines l p (hof.trans hlink))
      obtain ⟨transfers, after, -, htook, -⟩ := Link.onFrame_of_connection w.now f hlink hc
      rw [hserver, htook, hnone]
      exact ⟨rfl, rfl⟩
    | none =>
      have hasked : w.admitted? (.frame l f) = f.signOn?.bind w.server.directory.lookup := by
        simp [admitted?, hup, hof, hlink]
      rw [hasked]
      cases hadmitted : f.signOn?.bind w.server.directory.lookup with
      | none =>
        rw [hserver, (Link.onFrame_of_refused w.server w.now hlink hadmitted).1]
        exact ⟨rfl, rfl⟩
      | some screenName =>
        obtain ⟨outbound, hframe⟩ := exists_frame_of_admitted hline h hlink hadmitted
        rw [hframe]
        exact ⟨rfl, rfl⟩

/-- Taking a link down unregisters its connection, if it has one. -/
theorem server_tearDown_cases (h : w.IsPlaced) (l : Nat) :
    (w.leaving? (.tearDown l) = none ∧ (w.tearDown l).server = w.server) ∨
      ∃ p c, w.leaving? (.tearDown l) = some c ∧ w.server.connections[p]? = some c ∧
        (w.tearDown l).server = ((w.server.put p c.close).unregister c.identity c.id).1 := by
  cases hup : w.isUp l with
  | false =>
    rw [tearDown_of_not_isUp hup]
    exact .inl ⟨by simp [leaving?, hup], rfl⟩
  | true =>
    cases htaken : w.connectionOf? l with
    | none =>
      obtain ⟨link, hline⟩ := exists_of_isUp hup
      have hlink : link.connection? = none := (connectionOf?_of_line hline).symm.trans htaken
      refine .inl ⟨by simp [leaving?, htaken], ?_⟩
      rw [tearDown_of_line hline, Link.teardown_of_greeting w.server hlink]
    | some p =>
      have hc := List.getElem?_eq_getElem (h.lines l p htaken)
      refine .inr ⟨p, _, ?_, hc, server_tearDown hup htaken hc⟩
      simp only [leaving?, hup, htaken, if_true, Option.bind_some, hc]

theorem server_operate (position : Nat) (op : Transfers.Operation) :
    (w.operate position op).server.directory = w.server.directory ∧
      (w.operate position op).server.registry = w.server.registry := by
  cases hc : w.server.connections[position]? with
  | none =>
    rw [operate, hc]
    exact ⟨rfl, rfl⟩
  | some c =>
    rw [operate_of_some hc]
    exact ⟨rfl, rfl⟩

theorem directory_step (h : w.IsPlaced) (s : Step) :
    (w.step s).server.directory = w.server.directory := by
  cases s with
  | comeUp => rfl
  | frame l f => exact (registry_frame h l f).1
  | tearDown l =>
    show (w.tearDown l).server.directory = w.server.directory
    rcases server_tearDown_cases h l with ⟨-, hserver⟩ | ⟨p, c, -, -, hserver⟩
    · rw [hserver]
    · rw [hserver, Server.unregister_eq]
      rfl
  | operate position op => exact (server_operate position op).1
  | advance milliseconds => rfl

/-- A connection that is online stays so in a step, unless the step admits a client under its identity,
or takes down the link of a connection with its identity and its id. -/
theorem online_step_iff (h : w.IsPlaced) (s : Step) (honline : w.server.registry.get? k = some p)
    (hc : w.server.connections[p]? = some c) :
    (w.step s).server.registry.get? k = some p ↔
      (w.admitted? s).map identityOf ≠ some k ∧
        ¬ ∃ gone, w.leaving? s = some gone ∧ gone.identity = k ∧ gone.id = c.id := by
  cases s with
  | comeUp =>
    show w.server.registry.get? k = some p ↔ _
    simp [honline, admitted?, leaving?]
  | advance milliseconds =>
    show w.server.registry.get? k = some p ↔ _
    simp [honline, admitted?, leaving?]
  | operate position op =>
    show (w.operate position op).server.registry.get? k = some p ↔ _
    rw [(server_operate position op).2]
    simp [honline, admitted?, leaving?]
  | frame l f =>
    show (w.frame l f).server.registry.get? k = some p ↔ _
    rw [(registry_frame h l f).2]
    cases hadmitted : w.admitted? (.frame l f) with
    | none => simp [honline, leaving?]
    | some screenName =>
      -- the newcomer stands behind all connections, so its position is not that of `c`
      have hnew : w.server.connections.length ≠ p := Nat.ne_of_gt (h.registry k p honline)
      simp only [Dictionary.get?_put, Option.map_some, leaving?]
      by_cases hk : k = identityOf screenName
      · simp [hk, hnew]
      · simp [hk, Ne.symm hk, honline]
  | tearDown l =>
    show (w.tearDown l).server.registry.get? k = some p ↔ _
    have hnone : w.admitted? (.tearDown l) = none := rfl
    rw [hnone]
    rcases server_tearDown_cases h l with ⟨hleaving, hserver⟩ | ⟨q, gone, hleaving, hgone, hserver⟩
    · rw [hserver, hleaving]
      simp [honline]
    · -- closing it has left the id of the connection at `p`
      have hremain : Remain w.server.connections (w.server.put q gone.close).connections :=
        .set hgone (.inr rfl)
      have hkept : (w.server.put q gone.close).registry.get? k = some p := honline
      obtain ⟨now, hnow, hremains⟩ := hremain.exists_after hc
      rw [hserver, hleaving, Server.get?_unregister_eq_some_iff hkept hnow, hremains.id_eq]
      simp

-- ---------------------------------------------------------------------------
-- The registry agrees with the identities
-- ---------------------------------------------------------------------------

/-- A world that has the directory of some names, and where what is registered stands under its own
identity. -/
structure IsFiled (names : List String) (w : World) : Prop where
  placed : w.IsPlaced
  directory : w.server.directory = .ofNames names
  own : ∀ k p c, w.server.registry.get? k = some p → w.server.connections[p]? = some c →
    c.identity = k

/-- What an event registers stands under its own identity, if it was registered before or is put there
under it. -/
theorem IsFiled.of_remain (h : w.IsFiled names) (hplaced : after.IsPlaced)
    (hdirectory : after.server.directory = w.server.directory)
    (hremain : Remain w.server.connections after.server.connections)
    (hregistry : ∀ k p, after.server.registry.get? k = some p → w.server.registry.get? k = some p ∨
      w.server.connections[p]?.map (·.identity) = some k) : after.IsFiled names := by
  refine ⟨hplaced, hdirectory.trans h.directory, fun k p c hp hc => ?_⟩
  obtain ⟨before, hbefore, hremains⟩ := hremain.exists_before hc
  rw [hremains.identity_eq]
  rcases hregistry k p hp with hold | hput
  · exact h.own k p before hold hbefore
  · simpa [hbefore] using hput

theorem IsFiled.step (h : w.IsFiled names) (s : Step) : (w.step s).IsFiled names := by
  have hmove := move h.placed s
  have hplaced := h.placed.of_move hmove
  have hdirectory := directory_step h.placed s
  cases hmove with
  | quiet hquiet =>
    exact h.of_remain hplaced hdirectory hquiet.connections fun k p hp => .inl (hquiet.registry ▸ hp)
  | @signedOn l c hadmits =>
    refine ⟨hplaced, hdirectory.trans h.directory, fun k p c' hp hc' => ?_⟩
    rw [hadmits.registry, Dictionary.get?_put] at hp
    split at hp
    · next hk =>
      cases hp
      rw [getElem?_of_admits_length hadmits] at hc'
      cases hc'
      exact hk.symm
    · have hlt := h.placed.registry k p hp
      rcases cases_of_admits hadmits hc' with ⟨before, hbefore, hremains, -⟩ | ⟨rfl, -⟩
      · rw [hremains.identity_eq]
        exact h.own k p before hp hbefore
      · exact absurd hlt (Nat.lt_irrefl _)
  | @tornDown l p c hleaves =>
    have hremain : Remain w.server.connections (w.step s).server.connections := by
      rw [hleaves.server, Server.unregister_eq]
      exact .set hleaves.there (.inr rfl)
    refine h.of_remain hplaced hdirectory hremain fun k q hq => ?_
    rw [hleaves.server, Server.get?_unregister] at hq
    split at hq
    · cases hq
    · exact .inl hq

theorem IsFiled.register (h : w.IsFiled names) (q : Nat) :
    (w.occur (.register q)).IsFiled names := by
  cases hc : w.server.connections[q]? with
  | none =>
    have hsame : w.occur (.register q) = w := by rw [occur, Server.register, hc]
    rw [hsame]
    exact h
  | some c =>
    have hserver : (w.occur (.register q)).server = _ := Server.register_of_some hc
    have hremain : Remain w.server.connections (w.occur (.register q)).server.connections := by
      rw [hserver]
      exact remain_evicting w.server c.identity
    have hregistry (k : String) : (w.occur (.register q)).server.registry.get? k =
        if k = c.identity then some q else w.server.registry.get? k := by
      rw [hserver, Dictionary.get?_put]
    refine h.of_remain ⟨fun k p hp => ?_, fun l p hp => ?_⟩ (by rw [hserver]) hremain fun k p hp => ?_
    · rw [hregistry] at hp
      split at hp
      · cases hp
        exact hremain.1 ▸ (List.getElem?_eq_some_iff.mp hc).1
      · exact hremain.1 ▸ h.placed.registry k p hp
    · exact hremain.1 ▸ h.placed.lines l p hp
    · rw [hregistry] at hp
      split at hp
      · next hk =>
        cases hp
        exact .inr (by rw [hc, hk]; rfl)
      · exact .inl hp

theorem IsFiled.unregister (h : w.IsFiled names) (identity : String) (id : UInt64) :
    (w.occur (.unregister identity id)).IsFiled names := by
  have hregistry (k : String) (p : Nat)
      (hp : (w.occur (.unregister identity id)).server.registry.get? k = some p) :
      w.server.registry.get? k = some p := by
    rw [occur, Server.get?_unregister] at hp
    split at hp
    · cases hp
    · exact hp
  have hserver := w.server.unregister_eq identity id
  have hsame : (w.occur (.unregister identity id)).server.connections = w.server.connections := by
    rw [occur, hserver]
  refine h.of_remain ⟨fun k p hp => ?_, fun l p hp => ?_⟩ ?_ ?_ fun k p hp => .inl (hregistry k p hp)
  · rw [hsame]
    exact h.placed.registry k p (hregistry k p hp)
  · rw [hsame]
    exact h.placed.lines l p hp
  · rw [occur, hserver]
  · rw [hsame]
    exact .refl _

/-- Whatever happens, what is registered stands under its own identity. -/
theorem IsFiled.occur (h : w.IsFiled names) (e : Event) : (w.occur e).IsFiled names := by
  cases e with
  | step s => exact h.step s
  | register q => exact h.register q
  | unregister identity id => exact h.unregister identity id

theorem IsFiled.follow (h : w.IsFiled names) (events : List Event) :
    (w.follow events).IsFiled names := by
  induction events generalizing w with
  | nil => exact h
  | cons e rest ih => exact ih (h.occur e)

theorem isFiled_start (links : LinkLimits) (limits : TransferLimits) (names : List String)
    (store : Store) : (start links limits (.ofNames names) store).IsFiled names :=
  ⟨isPlaced_start links limits _ store, rfl, fun _ _ _ h => nomatch h⟩

-- ---------------------------------------------------------------------------
-- A connection and its entry
-- ---------------------------------------------------------------------------

/-- The connection at a position is still the one that was put there. -/
def Stands (w : World) (p : Nat) (c : Connection) : Prop :=
  ∃ now, w.server.connections[p]? = some now ∧ now.id = c.id ∧ now.identity = c.identity

theorem Stands.of_remain (h : w.Stands p c)
    (hremain : ∀ now, w.server.connections[p]? = some now →
      ∃ later, after.server.connections[p]? = some later ∧ Remains now later) : after.Stands p c := by
  obtain ⟨now, hnow, hid, hidentity⟩ := h
  obtain ⟨later, hlater, hremains⟩ := hremain now hnow
  exact ⟨later, hlater, hremains.id_eq.trans hid, hremains.identity_eq.trans hidentity⟩

theorem Stands.occur (h : w.Stands p c) (hfiled : w.IsFiled names) (e : Event) :
    (w.occur e).Stands p c := by
  refine h.of_remain fun now hnow => ?_
  cases e with
  | step s =>
    have hmove := move hfiled.placed s
    have hlt : p < (w.step s).server.connections.length := by
      have hbefore := (List.getElem?_eq_some_iff.mp hnow).1
      cases hmove with
      | quiet hquiet => exact hquiet.connections.1 ▸ hbefore
      | signedOn hadmits =>
        rw [length_of_admits hadmits]
        omega
      | tornDown hleaves =>
        rw [hleaves.server, Server.unregister_eq, Server.put, List.length_set]
        exact hbefore
    have hlater := List.getElem?_eq_getElem hlt
    exact ⟨_, hlater, remains_of_move hmove hnow hlater⟩
  | register q =>
    cases hc : w.server.connections[q]? with
    | none =>
      have hsame : w.occur (.register q) = w := by rw [World.occur, Server.register, hc]
      rw [hsame]
      exact ⟨now, hnow, .inl (.refl now)⟩
    | some other =>
      have hserver : (w.occur (.register q)).server = _ := Server.register_of_some hc
      rw [hserver]
      exact (remain_evicting w.server other.identity).exists_after hnow
  | unregister identity id =>
    refine ⟨now, ?_, .inl (.refl now)⟩
    rw [World.occur, Server.unregister_eq]
    exact hnow

/-- One event takes a connection out of the registry if it replaces or unregisters it, and only then. -/
theorem online_occur_iff (h : w.IsFiled names) (hstands : w.Stands p c)
    (honline : w.server.registry.get? c.identity = some p) (e : Event) :
    (w.occur e).server.registry.get? c.identity = some p ↔
      ¬ w.Replaces p c.identity e ∧ ¬ w.Unregisters c.identity c.id e := by
  obtain ⟨now, hnow, hid, hidentity⟩ := hstands
  cases e with
  | step s =>
    show (w.step s).server.registry.get? c.identity = some p ↔ _
    rw [online_step_iff h.placed s honline hnow, hid]
    rfl
  | register q =>
    cases hc : w.server.connections[q]? with
    | none =>
      have hsame : w.occur (.register q) = w := by rw [occur, Server.register, hc]
      rw [hsame]
      simp [honline, Replaces, Unregisters, hc]
    | some other =>
      have hserver : (w.occur (.register q)).server = _ := Server.register_of_some hc
      rw [hserver, Dictionary.get?_put]
      by_cases hk : c.identity = other.identity
      · simp [hk, Replaces, Unregisters, hc]
      · simp [hk, Ne.symm hk, honline, Replaces, Unregisters, hc]
  | unregister identity id =>
    show (w.server.unregister identity id).1.registry.get? c.identity = some p ↔ _
    rw [Server.get?_unregister_eq_some_iff honline hnow, hid]
    simp [Replaces, Unregisters]

/-- What is neither replaced nor unregistered stays online. -/
theorem online_of_spares (h : w.IsFiled names) (hstands : w.Stands p c)
    (honline : w.server.registry.get? c.identity = some p) {events : List Event}
    (hspares : w.Spares p c events) :
    (w.follow events).Stands p c ∧ (w.follow events).server.registry.get? c.identity = some p := by
  induction events generalizing w with
  | nil => exact ⟨hstands, honline⟩
  | cons e rest ih =>
    obtain ⟨hreplaces, hunregisters, hrest⟩ := hspares
    exact ih (h.occur e) (hstands.occur h e)
      ((online_occur_iff h hstands honline e).mpr ⟨hreplaces, hunregisters⟩) hrest

/-- A connection stays registered until an event takes its place or takes it out, and as long it is found
under all names with its identity.  It is never found under another name. -/
structure IsFoundUntilTaken (w : World) (p : Nat) (c : Connection) : Prop where
  only : ∀ (events : List Event) (name : String),
    (w.follow events).server.find? name = some p → identityOf name = c.identity
  found : ∀ events : List Event, w.Spares p c events → ∀ name,
    (w.follow events).server.find? name = some p ↔ identityOf name = c.identity
  taken : ∀ events : List Event, w.Spares p c events → ∀ e name, identityOf name = c.identity →
    (((w.follow events).occur e).server.find? name = some p ↔
      ¬ (w.follow events).Replaces p c.identity e ∧
        ¬ (w.follow events).Unregisters c.identity c.id e)

theorem Stands.follow (h : w.Stands p c) (hfiled : w.IsFiled names) (events : List Event) :
    (w.follow events).Stands p c := by
  induction events generalizing w with
  | nil => exact h
  | cons e rest ih => exact ih (h.occur hfiled e) (hfiled.occur e)

theorem IsFiled.identity_of_find? (h : w.IsFiled names) (hstands : w.Stands p c) {name : String}
    (hfound : w.server.find? name = some p) : identityOf name = c.identity := by
  obtain ⟨now, hnow, -, hidentity⟩ := hstands
  rw [← hidentity]
  exact (h.own _ p now hfound hnow).symm

theorem IsFiled.isFoundUntilTaken (h : w.IsFiled names) (hstands : w.Stands p c)
    (honline : w.server.registry.get? c.identity = some p) : w.IsFoundUntilTaken p c where
  only events name hfound := (h.follow events).identity_of_find? (hstands.follow h events) hfound
  found events hspares name := by
    obtain ⟨hnow, hkept⟩ := online_of_spares h hstands honline hspares
    constructor
    · exact (h.follow events).identity_of_find? hnow
    · intro hname
      rw [Server.find?, hname, hkept]
  taken events hspares e name hname := by
    obtain ⟨hnow, hkept⟩ := online_of_spares h hstands honline hspares
    rw [Server.find?, hname]
    exact online_occur_iff (h.follow events) hnow hkept e

/-- A client that is admitted is registered under the identity of the name that it has asked for. -/
theorem IsFiled.admits (h : w.IsFiled names) {f : Frame} {requested record : String}
    (hup : w.isUp l = true) (hfree : w.connectionOf? l = none) (hrequested : f.signOn? = some requested)
    (hlookup : (Directory.ofNames names).lookup requested = some record) :
    ∃ c, (w.step (.frame l f)).server.connections[w.server.connections.length]? = some c ∧
      c.screenName = record ∧ c.identity = identityOf record ∧
      (w.step (.frame l f)).server.registry.get? c.identity = some w.server.connections.length := by
  obtain ⟨link, hline⟩ := exists_of_isUp hup
  have hlink : link.connection? = none := (connectionOf?_of_line hline).symm.trans hfree
  have hadmitted : f.signOn?.bind w.server.directory.lookup = some record := by
    rw [hrequested, h.directory]
    exact hlookup
  obtain ⟨c, hname, hadmits⟩ := admits_frame hline h.placed hlink hadmitted
  refine ⟨c, getElem?_of_admits_length hadmits, hname, hname ▸ hadmits.identity, ?_⟩
  show (w.frame l f).server.registry.get? c.identity = _
  rw [hadmits.registry, Dictionary.get?_put, if_pos rfl]

end World

/-- The identity of a name is settled once and for all, and white space anywhere in a name is no part of
it; the directory admits a client under a name with the identity that was asked for.  So at any time when
a client signs on over a link, its connection is found under the name asked for, the name of the
directory and its identity, under all other names of that identity and under no others, until an event
takes its place or takes it out of the registry. -/
theorem found_under_one_identity (links : LinkLimits) (limits : TransferLimits) (names : List String)
    (store : Store) (events : List Event) :
    let w := (World.start links limits (.ofNames names) store).follow events
    (∀ name, identityOf (identityOf name) = identityOf name) ∧
    (∀ before blanks after : List Char, (∀ c ∈ blanks, Text.isBlank c = true) →
      identityOf (String.ofList (before ++ blanks ++ after)) =
        identityOf (String.ofList (before ++ after))) ∧
    (∀ requested record, (Directory.ofNames names).lookup requested = some record →
      identityOf record = identityOf requested) ∧
    ∀ (l : Nat) (f : Frame) (requested record : String), w.isUp l = true → w.connectionOf? l = none →
      f.signOn? = some requested → (Directory.ofNames names).lookup requested = some record →
      ∃ c, (w.step (.frame l f)).server.connections[w.server.connections.length]? = some c ∧
        c.screenName = record ∧ c.identity = identityOf requested ∧
        (w.step (.frame l f)).IsFoundUntilTaken w.server.connections.length c ∧
        ∀ later, (w.step (.frame l f)).Spares w.server.connections.length c later →
          ∀ name ∈ [requested, record, c.identity],
            ((w.step (.frame l f)).follow later).server.find? name =
              some w.server.connections.length := by
  intro w
  refine ⟨identityOf_identityOf, fun _ _ _ => identityOf_insert,
    fun _ _ => Directory.identityOf_of_lookup, ?_⟩
  intro l f requested record hup hfree hrequested hlookup
  have hfiled : w.IsFiled names := (World.isFiled_start links limits names store).follow events
  have hsame : identityOf record = identityOf requested := Directory.identityOf_of_lookup hlookup
  obtain ⟨c, hc, hname, hidentity, honline⟩ := hfiled.admits hup hfree hrequested hlookup
  have hfound : (w.step (.frame l f)).IsFoundUntilTaken w.server.connections.length c :=
    (hfiled.step _).isFoundUntilTaken ⟨c, hc, rfl, rfl⟩ honline
  refine ⟨c, hc, hname, hidentity.trans hsame, hfound, ?_⟩
  intro later hspares name hmem
  rw [hfound.found later hspares, hidentity]
  simp only [List.mem_cons, List.not_mem_nil, or_false] at hmem
  rcases hmem with rfl | rfl | rfl
  · exact hsame.symm
  · rfl
  · rw [hidentity, identityOf_identityOf]

/-- Two links have come up to a server that knows two names. -/
def lobby : World :=
  (World.start ⟨4, 8⟩ ⟨100, 1000, 256⟩ (.ofNames ["Steve Case", "Ann"]) (.memory .empty)).follow
    [.step .comeUp, .step .comeUp]

/-- A client asks for a name with other spaces and in another case than the directory has it, then
another client signs on and is unregistered: the first one is found under all spellings of its name. -/
theorem found_under_one_identity_spaced :
    let f : Frame := (ClientMessage.signOn "\u00A0stEVE case").frame 16 0
    let later : List Event :=
      [.step (.frame 1 ((ClientMessage.signOn "ANN").frame 16 0)), .unregister "ann" 2]
    lobby.isUp 0 = true ∧ lobby.connectionOf? 0 = none ∧ f.signOn? = some "\u00A0stEVE case" ∧
      (Directory.ofNames ["Steve Case", "Ann"]).lookup "\u00A0stEVE case" = some "Steve Case" ∧
      ∃ c, c.screenName = "Steve Case" ∧ (lobby.step (.frame 0 f)).Spares 0 c later ∧
        ∀ name, ((lobby.step (.frame 0 f)).follow later).server.find? name = some 0 ↔
          identityOf name = "stevecase" := by
  intro f later
  have hlink : lobby.isUp 0 = true ∧ lobby.connectionOf? 0 = none := by decide
  have hrequested : f.signOn? = some "\u00A0stEVE case" := by decide +kernel
  have hlookup : (Directory.ofNames ["Steve Case", "Ann"]).lookup "\u00A0stEVE case" =
      some "Steve Case" := by
    decide +kernel
  have hidentity : identityOf "\u00A0stEVE case" = "stevecase" := by decide +kernel
  obtain ⟨-, -, -, hsignOns⟩ := found_under_one_identity ⟨4, 8⟩ ⟨100, 1000, 256⟩
    ["Steve Case", "Ann"] (.memory .empty) [.step .comeUp, .step .comeUp]
  obtain ⟨c, -, hname, hc, hfound, -⟩ :=
    hsignOns 0 f "\u00A0stEVE case" "Steve Case" hlink.1 hlink.2 hrequested hlookup
  rw [hidentity] at hc
  have hadmitted : ((lobby.step (.frame 0 f)).admitted?
      (.frame 1 ((ClientMessage.signOn "ANN").frame 16 0))).map identityOf ≠ some "stevecase" := by
    decide +kernel
  have hspares : (lobby.step (.frame 0 f)).Spares 0 c later := by
    refine ⟨?_, ?_, ?_, ?_, trivial⟩
    · rw [hc]
      exact hadmitted
    · rintro ⟨gone, hgone, -⟩
      cases hgone
    · exact id
    · rintro ⟨hother, -⟩
      rw [hc] at hother
      revert hother
      decide
  refine ⟨hlink.1, hlink.2, hrequested, hlookup, c, hname, hspares, fun name => ?_⟩
  rw [← hc]
  exact hfound.found later hspares name

end Presence

end Switchboard
