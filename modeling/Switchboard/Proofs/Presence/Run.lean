import Switchboard.Proofs.Link

/-!
# Runs of a server's links

A `World` is a server with the links that have come up so far and the sign-ons that it has accepted.
In a step a link comes up, takes a frame or is taken down, something else happens to a connection, or
time passes; a run is any list of steps.  `Move` says all that a step can do to who is online.

Main results: `World.move`, every step makes one of these moves; `World.IsPlaced.of_move`, after it
links and registry refer to connections that are there.
-/

namespace Switchboard.Presence

open Transfers (Operation)

/-- A link to a client, and whether it has not been taken down yet. -/
structure Line where
  link : Link
  up : Bool

/-- A client has signed on: the number of the link, and the position of the new connection. -/
structure SignOn where
  line : Nat
  connection : Nat
  deriving DecidableEq

/-- A server at some time, with its links and with the sign-ons that it has accepted, oldest first. -/
structure World where
  server : Server
  lines : List Line
  signOns : List SignOn
  now : Nat

inductive Step where
  | comeUp
  | frame (line : Nat) (frame : Frame)
  | tearDown (line : Nat)
  /-- Something else happens to a connection: its queue is flushed, its transfers are begun, cancelled
  or looked at. -/
  | operate (connection : Nat) (op : Operation)
  | advance (milliseconds : Nat)

namespace World

/-- A server with no links. -/
def start (links : LinkLimits) (limits : TransferLimits) (directory : Directory) (store : Store) :
    World :=
  ⟨.new links limits directory store, [], [], 0⟩

/-- The position of the connection that has signed on over a link. -/
def connectionOf? (w : World) (line : Nat) : Option Nat :=
  w.lines[line]?.bind (·.link.connection?)

def isUp (w : World) (line : Nat) : Bool :=
  w.lines[line]?.any (·.up)

/-- Replaces a line. -/
def put (w : World) (line : Nat) (after : Line) : World :=
  { w with lines := w.lines.set line after }

/-- What is added to the sign-ons: if nobody had signed on over a link and now somebody has, that was a
sign-on. -/
def newSignOns (line : Nat) (before after : Link) : List SignOn :=
  match before.connection?, after.connection? with
  | none, some position => [⟨line, position⟩]
  | _, _ => []

/-- A link takes a frame. -/
def frame (w : World) (line : Nat) (frame : Frame) : World :=
  match w.lines[line]? with
  | some ⟨link, true⟩ =>
    let (server, after, _) := Link.onFrame w.server link w.now frame
    { w.put line ⟨after, true⟩ with server, signOns := w.signOns ++ newSignOns line link after }
  | _ => w

def tearDown (w : World) (line : Nat) : World :=
  match w.lines[line]? with
  | some ⟨link, true⟩ =>
    { w.put line ⟨link, false⟩ with server := Link.teardown w.server link }
  | _ => w

def operate (w : World) (position : Nat) (op : Operation) : World :=
  match w.server.connections[position]? with
  | none => w
  | some c =>
    let (transfers, c, _) := op.run w.server.transfers c w.now
    { w with server := { w.server with transfers }.put position c }

/-- Carries out a step. -/
def step (w : World) : Step → World
  | .comeUp => { w with lines := w.lines ++ [⟨.new w.server.links.window, true⟩] }
  | .frame line frame => w.frame line frame
  | .tearDown line => w.tearDown line
  | .operate position op => w.operate position op
  | .advance milliseconds => { w with now := w.now + milliseconds }

/-- Carries out steps in order. -/
def run (w : World) (steps : List Step) : World :=
  steps.foldl step w

-- ---------------------------------------------------------------------------
-- Lines
-- ---------------------------------------------------------------------------

variable {w : World} {l : Nat} {link : Link} {f : Frame}

theorem exists_of_isUp (h : w.isUp l = true) : ∃ link, w.lines[l]? = some ⟨link, true⟩ := by
  obtain ⟨⟨link, up⟩, hline, rfl⟩ := (Option.any_eq_true _ _).mp h
  exact ⟨link, hline⟩

theorem connectionOf?_of_line {up : Bool} (h : w.lines[l]? = some ⟨link, up⟩) :
    w.connectionOf? l = link.connection? := by
  rw [connectionOf?, h]
  rfl

theorem isUp_of_line {up : Bool} (h : w.lines[l]? = some ⟨link, up⟩) : w.isUp l = up := by
  rw [isUp, h]
  rfl

theorem connectionOf?_put {up : Bool} (h : w.lines[l]? = some ⟨link, up⟩) (line : Line) (other : Nat) :
    (w.put l line).connectionOf? other =
      if l = other then line.link.connection? else w.connectionOf? other := by
  rw [connectionOf?, put, List.getElem?_set]
  split
  · rw [if_pos (List.getElem?_eq_some_iff.mp h).1]
    rfl
  · rfl

/-- A line with the same connection changes nothing. -/
theorem connectionOf?_put_of_eq {up : Bool} {line : Line} (h : w.lines[l]? = some ⟨link, up⟩)
    (hsame : line.link.connection? = link.connection?) (other : Nat) :
    (w.put l line).connectionOf? other = w.connectionOf? other := by
  rw [connectionOf?_put h, hsame]
  split
  · next heq => rw [← heq, connectionOf?_of_line h]
  · rfl

theorem isUp_put {up : Bool} (h : w.lines[l]? = some ⟨link, up⟩) (line : Line) (other : Nat) :
    (w.put l line).isUp other = if l = other then line.up else w.isUp other := by
  rw [isUp, put, List.getElem?_set]
  split
  · rw [if_pos (List.getElem?_eq_some_iff.mp h).1]
    rfl
  · rfl

theorem isUp_put_of_eq {up : Bool} {line : Line} (h : w.lines[l]? = some ⟨link, up⟩)
    (hsame : line.up = up) (other : Nat) : (w.put l line).isUp other = w.isUp other := by
  rw [isUp_put h, hsame]
  split
  · next heq => rw [← heq, isUp_of_line h]
  · rfl

theorem frame_of_not_isUp (h : w.isUp l = false) : w.frame l f = w := by
  unfold frame
  split
  · next hline =>
    rw [isUp_of_line hline] at h
    cases h
  · rfl

theorem tearDown_of_not_isUp (h : w.isUp l = false) : w.tearDown l = w := by
  unfold tearDown
  split
  · next hline =>
    rw [isUp_of_line hline] at h
    cases h
  · rfl

theorem frame_of_line (h : w.lines[l]? = some ⟨link, true⟩) :
    w.frame l f = { w.put l ⟨(Link.onFrame w.server link w.now f).2.1, true⟩ with
      server := (Link.onFrame w.server link w.now f).1
      signOns := w.signOns ++ newSignOns l link (Link.onFrame w.server link w.now f).2.1 } := by
  rw [frame, h]

theorem tearDown_of_line (h : w.lines[l]? = some ⟨link, true⟩) :
    w.tearDown l =
      { w.put l ⟨link, false⟩ with server := Link.teardown w.server link } := by
  rw [tearDown, h]

theorem operate_of_some {position : Nat} {c : Connection}
    (h : w.server.connections[position]? = some c) (op : Operation) :
    w.operate position op = { w with
      server := { w.server with transfers := (op.run w.server.transfers c w.now).1 }.put position
        (op.run w.server.transfers c w.now).2.1 } := by
  rw [operate, h]

end World

-- ---------------------------------------------------------------------------
-- Moves
-- ---------------------------------------------------------------------------

/-- A connection after a step: it goes on, or it has just been closed. -/
def Remains (before after : Connection) : Prop :=
  before.Continues after ∨ after = before.close

/-- Connections after a step that adds none. -/
def Remain (before after : List Connection) : Prop :=
  before.length = after.length ∧
    ∀ (p : Nat) c c', before[p]? = some c → after[p]? = some c' → Remains c c'

/-- Nothing has happened to who is online. -/
structure Quiet (w after : World) : Prop where
  registry : after.server.registry = w.server.registry
  nextId : after.server.nextConnectionId = w.server.nextConnectionId
  signOns : after.signOns = w.signOns
  connectionOf : ∀ l, after.connectionOf? l = w.connectionOf? l
  up : ∀ l p, w.connectionOf? l = some p → after.isUp l = w.isUp l
  connections : Remain w.server.connections after.server.connections

/-- A client has signed on over a link and has got a connection. -/
structure Admits (w after : World) (l : Nat) (c : Connection) : Prop where
  free : w.connectionOf? l = none
  here : after.isUp l = true
  id : c.id = w.server.nextConnectionId
  identity : c.identity = identityOf c.screenName
  registry : after.server.registry = w.server.registry.put c.identity w.server.connections.length
  nextId : after.server.nextConnectionId = w.server.nextConnectionId + 1
  signOns : after.signOns = w.signOns ++ [⟨l, w.server.connections.length⟩]
  connectionOf : ∀ other, after.connectionOf? other =
    if l = other then some w.server.connections.length else w.connectionOf? other
  up : ∀ other, l ≠ other → after.isUp other = w.isUp other
  connections : after.server.connections = w.server.evicting c.identity ++ [c]

/-- A link with a connection has been taken down. -/
structure Leaves (w after : World) (l p : Nat) (c : Connection) : Prop where
  taken : w.connectionOf? l = some p
  here : w.isUp l = true
  there : w.server.connections[p]? = some c
  server : after.server = ((w.server.put p c.close).unregister c.identity c.id).1
  signOns : after.signOns = w.signOns
  connectionOf : ∀ other, after.connectionOf? other = w.connectionOf? other
  gone : after.isUp l = false
  up : ∀ other, l ≠ other → after.isUp other = w.isUp other

/-- All that a step can do to who is online. -/
inductive Move (w after : World) : Prop where
  | quiet (h : Quiet w after)
  | signedOn {l : Nat} {c : Connection} (h : Admits w after l c)
  | tornDown {l p : Nat} {c : Connection} (h : Leaves w after l p c)

theorem Remain.refl (connections : List Connection) : Remain connections connections := by
  refine ⟨rfl, fun p c c' hc hc' => .inl ?_⟩
  cases hc.symm.trans hc'
  exact .refl c

theorem Move.refl (w : World) : Move w w :=
  .quiet ⟨rfl, rfl, rfl, fun _ => rfl, fun _ _ _ => rfl, .refl _⟩

theorem Remain.set {connections : List Connection} {i : Nat} {c c' : Connection}
    (hc : connections[i]? = some c) (h : Remains c c') :
    Remain connections (connections.set i c') := by
  refine ⟨(List.length_set ..).symm, fun p before after hbefore hafter => ?_⟩
  rw [List.getElem?_set] at hafter
  split at hafter
  · next heq =>
    subst heq
    cases hc.symm.trans hbefore
    split at hafter
    · cases hafter
      exact h
    · cases hafter
  · cases hbefore.symm.trans hafter
    exact .inl (.refl before)

namespace World

variable {w : World}

/-- What makes every step a move: the links and the registry refer to connections that are there. -/
structure IsPlaced (w : World) : Prop where
  registry : ∀ k p, w.server.registry.get? k = some p → p < w.server.connections.length
  lines : ∀ l p, w.connectionOf? l = some p → p < w.server.connections.length

section Frames

variable {l : Nat} {link : Link} {f : Frame} (hline : w.lines[l]? = some ⟨link, true⟩)
include hline

/-- A frame that brings no new connection to its link is quiet if it leaves the registry and the
counter. -/
theorem move_frame_of_same
    (hsame : (Link.onFrame w.server link w.now f).2.1.connection? = link.connection?)
    (hregistry : (Link.onFrame w.server link w.now f).1.registry = w.server.registry)
    (hnextId : (Link.onFrame w.server link w.now f).1.nextConnectionId = w.server.nextConnectionId)
    (hremain : Remain w.server.connections (Link.onFrame w.server link w.now f).1.connections) :
    Move w (w.frame l f) := by
  have hnew : newSignOns l link (Link.onFrame w.server link w.now f).2.1 = [] := by
    rw [newSignOns, hsame]
    cases link.connection? <;> rfl
  rw [frame_of_line hline, hnew, List.append_nil]
  exact .quiet ⟨hregistry, hnextId, rfl, connectionOf?_put_of_eq hline hsame,
    fun other _ _ => isUp_put_of_eq hline rfl other, hremain⟩

/-- A frame with a name that is admitted brings a new connection to a link that has none. -/
theorem exists_frame_of_admitted (h : w.IsPlaced) {screenName : String}
    (hlink : link.connection? = none)
    (hadmitted : f.signOn?.bind w.server.directory.lookup = some screenName) :
    ∃ outbound, w.frame l f =
      { w.put l ⟨{ link with phase := .signedOn w.server.connections.length }, true⟩ with
        server := { w.server with
          connections := w.server.evicting (identityOf screenName) ++
            [Link.greeted w.server.framePayload
              (Link.newcomer w.server link outbound f.tx screenName)]
          registry := w.server.registry.put (identityOf screenName) w.server.connections.length
          nextConnectionId := w.server.nextConnectionId + 1 }
        signOns := w.signOns ++ [⟨l, w.server.connections.length⟩] } := by
  obtain ⟨outbound, hframe⟩ := Link.onFrame_of_admitted w.server w.now hlink hadmitted
  have hnew : newSignOns l link { link with phase := .signedOn w.server.connections.length } =
      [⟨l, w.server.connections.length⟩] := by
    rw [newSignOns, hlink]
    rfl
  refine ⟨outbound, ?_⟩
  rw [frame_of_line hline, hframe,
    Link.welcomeAs_eq w.server link outbound f.tx screenName (h.registry _)]
  dsimp only
  rw [hnew]

theorem admits_frame (h : w.IsPlaced) {screenName : String} (hlink : link.connection? = none)
    (hadmitted : f.signOn?.bind w.server.directory.lookup = some screenName) :
    ∃ c, c.screenName = screenName ∧ Admits w (w.frame l f) l c := by
  obtain ⟨outbound, hframe⟩ := exists_frame_of_admitted hline h hlink hadmitted
  -- greeting the client has left its name and its id
  have hgreeted := (Link.told_greeted w.server.framePayload
    (Link.newcomer w.server link outbound f.tx screenName)).continues
  have hidentity : (Link.greeted w.server.framePayload
      (Link.newcomer w.server link outbound f.tx screenName)).identity = identityOf screenName :=
    hgreeted.identity_eq
  refine ⟨_, hgreeted.screenName_eq, ?_⟩
  rw [hframe]
  refine ⟨(connectionOf?_of_line hline).trans hlink, ?_, hgreeted.id_eq, ?_, ?_, rfl, rfl,
    connectionOf?_put hline _, fun other _ => isUp_put_of_eq hline rfl other, ?_⟩
  · exact (isUp_put_of_eq hline rfl l).trans (isUp_of_line hline)
  · rw [hidentity, hgreeted.screenName_eq]
    rfl
  · rw [hidentity]
  · rw [hidentity]

end Frames

theorem move_frame (h : w.IsPlaced) (l : Nat) (f : Frame) : Move w (w.frame l f) := by
  cases hup : w.isUp l with
  | false =>
    rw [frame_of_not_isUp hup]
    exact .refl w
  | true =>
    obtain ⟨link, hline⟩ := exists_of_isUp hup
    cases hlink : link.connection? with
    | some p =>
      have hp := h.lines l p ((connectionOf?_of_line hline).trans hlink)
      have hc := List.getElem?_eq_getElem hp
      obtain ⟨transfers, after, hcontinues, hserver, hafter⟩ :=
        Link.onFrame_of_connection w.now f hlink hc
      refine move_frame_of_same hline (hafter.trans hlink.symm) ?_ ?_ ?_
      · rw [hserver]
        rfl
      · rw [hserver]
        rfl
      · rw [hserver]
        exact .set hc (.inl hcontinues)
    | none =>
      cases hadmitted : f.signOn?.bind w.server.directory.lookup with
      | some screenName =>
        obtain ⟨c, -, hadmits⟩ := admits_frame hline h hlink hadmitted
        exact .signedOn hadmits
      | none =>
        obtain ⟨hserver, hafter⟩ := Link.onFrame_of_refused w.server w.now hlink hadmitted
        refine move_frame_of_same hline (hafter.trans hlink.symm) ?_ ?_ ?_
        · rw [hserver]
        · rw [hserver]
        · rw [hserver]
          exact .refl _

theorem move_tearDown (h : w.IsPlaced) (l : Nat) : Move w (w.tearDown l) := by
  cases hup : w.isUp l with
  | false =>
    rw [tearDown_of_not_isUp hup]
    exact .refl w
  | true =>
    obtain ⟨link, hline⟩ := exists_of_isUp hup
    have hof : ∀ other, (w.put l ⟨link, false⟩).connectionOf? other = w.connectionOf? other :=
      connectionOf?_put_of_eq hline rfl
    have hothers (other : Nat) (hne : l ≠ other) :
        (w.put l ⟨link, false⟩).isUp other = w.isUp other := by
      rw [isUp_put hline, if_neg hne]
    rw [tearDown_of_line hline]
    cases hlink : link.connection? with
    | none =>
      rw [Link.teardown_of_greeting w.server hlink]
      refine .quiet ⟨rfl, rfl, rfl, hof, fun other p hp => hothers other ?_, .refl _⟩
      -- the link has no connection, so nobody asks whether it is up
      rintro rfl
      rw [connectionOf?_of_line hline, hlink] at hp
      cases hp
    | some p =>
      have hp : w.connectionOf? l = some p := (connectionOf?_of_line hline).trans hlink
      have hc := List.getElem?_eq_getElem (h.lines l p hp)
      rw [Link.teardown_of_connection hlink hc]
      refine .tornDown ⟨hp, hup, hc, rfl, rfl, hof, ?_, hothers⟩
      exact (isUp_put hline ⟨link, false⟩ l).trans (if_pos rfl)

theorem move_operate (position : Nat) (op : Operation) : Move w (w.operate position op) := by
  cases hc : w.server.connections[position]? with
  | none =>
    rw [operate, hc]
    exact .refl w
  | some c =>
    rw [operate_of_some hc]
    exact .quiet ⟨rfl, rfl, rfl, fun _ => rfl, fun _ _ _ => rfl,
      .set hc (op.continues_or_close w.server.transfers c w.now)⟩

/-- A link that comes up has no connection. -/
theorem quiet_comeUp : Quiet w (w.step .comeUp) := by
  have hold (l : Nat) (hlt : l < w.lines.length) :
      (w.step .comeUp).lines[l]? = w.lines[l]? := List.getElem?_append_left hlt
  have hnone (l : Nat) (hge : w.lines.length ≤ l) : w.connectionOf? l = none := by
    rw [connectionOf?, List.getElem?_eq_none hge]
    rfl
  refine ⟨rfl, rfl, rfl, fun l => ?_, fun l p hp => ?_, .refl _⟩
  · rcases Nat.lt_or_ge l w.lines.length with hlt | hge
    · rw [connectionOf?, hold l hlt, connectionOf?]
    · rw [hnone l hge, connectionOf?]
      have hnew : (w.step .comeUp).lines[l]? = [_][l - w.lines.length]? :=
        List.getElem?_append_right hge
      rw [hnew]
      cases l - w.lines.length <;> rfl
  · have hlt : l < w.lines.length := by
      by_contra hge
      cases (hnone l (Nat.le_of_not_lt hge)).symm.trans hp
    rw [isUp, hold l hlt, isUp]

/-- Every step makes one of the moves. -/
theorem move (h : w.IsPlaced) (s : Step) : Move w (w.step s) := by
  cases s with
  | comeUp => exact .quiet quiet_comeUp
  | frame l f => exact move_frame h l f
  | tearDown l => exact move_tearDown h l
  | operate position op => exact move_operate position op
  | advance milliseconds =>
    exact .quiet ⟨rfl, rfl, rfl, fun _ => rfl, fun _ _ _ => rfl, .refl _⟩

-- ---------------------------------------------------------------------------
-- Moves keep links and registry in place
-- ---------------------------------------------------------------------------

theorem isPlaced_start (links : LinkLimits) (limits : TransferLimits) (directory : Directory)
    (store : Store) : (start links limits directory store).IsPlaced :=
  ⟨fun _ _ h => (nomatch h), fun _ _ h => (nomatch h)⟩

theorem IsPlaced.of_move {after : World} (h : w.IsPlaced) (hmove : Move w after) : after.IsPlaced := by
  cases hmove with
  | quiet hquiet =>
    refine ⟨fun k p hp => ?_, fun l p hp => ?_⟩
    · rw [hquiet.registry] at hp
      exact hquiet.connections.1 ▸ h.registry k p hp
    · rw [hquiet.connectionOf] at hp
      exact hquiet.connections.1 ▸ h.lines l p hp
  | @signedOn l c hadmits =>
    -- the newcomer stands behind all others
    have hlength : after.server.connections.length = w.server.connections.length + 1 := by
      rw [hadmits.connections, List.length_append, Server.length_evicting, List.length_singleton]
    refine ⟨fun k p hp => ?_, fun other p hp => ?_⟩
    · rw [hadmits.registry, Dictionary.get?_put] at hp
      split at hp
      · cases hp
        omega
      · have hlt := h.registry k p hp
        omega
    · rw [hadmits.connectionOf] at hp
      split at hp
      · cases hp
        omega
      · have hlt := h.lines other p hp
        omega
  | @tornDown l p c hleaves =>
    have hlength : after.server.connections.length = w.server.connections.length := by
      rw [hleaves.server, Server.unregister_eq]
      exact List.length_set ..
    refine ⟨fun k q hq => ?_, fun other q hq => ?_⟩
    · rw [hleaves.server, Server.get?_unregister] at hq
      split at hq
      · cases hq
      · exact hlength ▸ h.registry k q hq
    · rw [hleaves.connectionOf] at hq
      exact hlength ▸ h.lines other q hq

end World

end Switchboard.Presence
