import Switchboard.Proofs.Storage.Store
import Switchboard.Proofs.Transfer.Sound

/-!
# What clients have sent of a file

An upload under way remembers what its client has said since it was asked for a file: the path that
was picked, the size, and the pieces so far.  `Trail` ties the transfer in a slot to the messages that
were accepted on its connection.

Main results:

* `Trail.of_move`: each accepted message makes the trail longer by itself.
* `World.IsTraced.run`: in every run, uploads under way agree with what was accepted.
-/

namespace Switchboard.Transfers

/-- What a client has sent of a file. -/
structure Received where
  /-- The path that the client has picked. -/
  picked : String
  size : UInt32
  pieces : List Bytes

namespace Received

/-- The bytes that have been sent, in order. -/
def data (r : Received) : Bytes :=
  r.pieces.flatten

/-- The messages in which the client has sent this. -/
def messages (r : Received) (id : UInt32) : List ClientMessage :=
  .uploadPicked id r.picked :: .uploadStats id r.size :: r.pieces.map (.uploadData id)

/-- Where the file is stored for an owner. -/
def key (r : Received) (owner : String) : FileKey :=
  ⟨uploadScope, owner, baseName r.picked⟩

/-- With one more piece. -/
def extend (r : Received) (piece : Bytes) : Received :=
  { r with pieces := r.pieces ++ [piece] }

theorem data_extend (r : Received) (piece : Bytes) : (r.extend piece).data = r.data ++ piece := by
  rw [data, extend, List.flatten_append, List.flatten_singleton]
  rfl

theorem messages_extend (r : Received) (piece : Bytes) (id : UInt32) :
    (r.extend piece).messages id = r.messages id ++ [.uploadData id piece] := by
  rw [messages, extend, List.map_append]
  rfl

end Received

/-- The upload in a slot, seen against the messages about uploads that were accepted on its
connection: nothing was received before a file was picked, and from then on the last messages accepted
are the ones about this file. -/
inductive Trail : ActiveTransfer → List ClientMessage → Prop where
  | asked {accepted : List ClientMessage} {a : ActiveTransfer}
      (status : a.state.status = .awaitingFilePick) (cargo : a.cargo = .incoming []) :
      Trail a accepted
  | picked {earlier : List ClientMessage} {a : ActiveTransfer} {path : String}
      (status : a.state.status = .awaitingStats) (cargo : a.cargo = .incoming [])
      (named : a.state.filename = baseName path) :
      Trail a (earlier ++ [.uploadPicked a.state.id path])
  | streaming {earlier : List ClientMessage} {a : ActiveTransfer} (r : Received)
      (status : a.state.status = .streaming) (cargo : a.cargo = .incoming r.data.reverse)
      (named : a.state.filename = baseName r.picked) (sized : a.state.size = r.size.toNat) :
      Trail a (earlier ++ r.messages a.state.id)

section Changes

variable {limits : TransferLimits} {service after : TransferService} {now : Nat}
  {message : ClientMessage} {accepted : List ClientMessage} {a next : ActiveTransfer}
  {label : Option ClientMessage} {active final : Option ActiveTransfer}

/-- Only an upload that streams has a whole trail. -/
theorem Trail.received (h : Trail a accepted) (hstatus : a.state.status = .streaming) :
    ∃ earlier r, accepted = earlier ++ Received.messages r a.state.id ∧
      a.cargo = .incoming r.data.reverse ∧ a.state.filename = baseName r.picked ∧
      a.state.size = r.size.toNat := by
  cases h with
  | asked h =>
    rw [hstatus] at h
    cases h
  | picked h =>
    rw [hstatus] at h
    cases h
  | @streaming earlier _ r _ hcargo hnamed hsized =>
    exact ⟨earlier, r, rfl, hcargo, hnamed, hsized⟩

/-- Each accepted message makes the trail longer by itself. -/
theorem Trail.of_move (h : Trail a accepted) (move : UploadMove limits now message a next) :
    Trail next (accepted ++ [message]) := by
  cases move with
  | @picked _ path hstatus =>
    cases h with
    | asked _ hcargo => exact .picked rfl hcargo rfl
    | picked h =>
      rw [hstatus] at h
      cases h
    | streaming r h =>
      rw [hstatus] at h
      cases h
  | @sized _ size hstatus =>
    cases h with
    | asked h =>
      rw [hstatus] at h
      cases h
    | @picked earlier _ path _ hcargo hnamed =>
      rw [List.append_assoc]
      exact .streaming ⟨path, size, []⟩ rfl hcargo hnamed rfl
    | streaming r h =>
      rw [hstatus] at h
      cases h
  | @extended _ data hstatus =>
    -- the piece joins those before it, in the buffer as in the messages
    obtain ⟨earlier, r, rfl, hcargo, hnamed, hsized⟩ := h.received hstatus
    rw [List.append_assoc, ← r.messages_extend]
    refine .streaming (r.extend data) hstatus ?_ hnamed hsized
    show a.cargo.extend data = _
    rw [hcargo, Received.data_extend, List.reverse_append, ← List.reverseAux_eq]
    rfl

theorem UploadChange.trail (h : UploadChange service after now label active final)
    (htrail : ∀ a, active = some a → Trail a accepted) :
    ∀ a, final = some a → Trail a (accepted ++ label.toList) := by
  intro a ha
  cases h with
  | same =>
    rw [Option.toList_none, List.append_nil]
    exact htrail a ha
  | ended => cases ha
  | begun =>
    cases ha
    exact .asked rfl rfl
  | moved move =>
    cases ha
    exact (htrail _ rfl).of_move move

end Changes

-- ---------------------------------------------------------------------------
-- Runs
-- ---------------------------------------------------------------------------

/-- An operation adds the message that it accepts, if it accepts one, to what was accepted on its
connection, and nothing to others. -/
theorem Operation.filterMap_exchange (op : Operation) (position i : Nat)
    (answer : Except TransferError (Option TransferState)) :
    ((op.exchange position answer).filter fun e => e.position = i).filterMap Exchange.accepted =
      if position = i then (op.accepted answer).toList else [] := by
  cases op with
  | handle message =>
    rw [exchange, accepted]
    by_cases h : position = i
    · rw [List.filter_cons_of_pos (by exact decide_eq_true h), if_pos h, List.filter_nil,
        List.filterMap_cons, List.filterMap_nil, Exchange.accepted]
      cases acceptedUpload message answer <;> rfl
    · rw [List.filter_cons_of_neg (by simpa using h), if_neg h, List.filter_nil,
        List.filterMap_nil]
  | _ => split <;> rfl

/-- An operation keeps the files on disk in directories. -/
theorem Operation.isRooted_run {service : TransferService} (op : Operation) (c : Connection)
    (now : Nat) (h : service.store.IsRooted) : (op.run service c now).1.store.IsRooted := by
  rw [op.store_run service c now]
  exact h.written _

namespace World

/-- The messages about uploads that were accepted on the connection at a position, oldest first. -/
def accepted (w : World) (i : Nat) : List ClientMessage :=
  (w.log.filter fun e => e.position = i).filterMap Exchange.accepted

theorem accepted_operate {w : World} {position : Nat} {c : Connection}
    (h : w.server.connections[position]? = some c) (op : Operation) (i : Nat) :
    (w.operate position op).accepted i = w.accepted i ++ if position = i then
      (op.accepted (op.run w.server.transfers c w.now).2.2).toList else [] := by
  rw [accepted, operate_of_some h, List.filter_append, List.filterMap_append,
    Operation.filterMap_exchange]
  rfl

/-- What is known of an upload under way. -/
structure Traced (limits : TransferLimits) (accepted : List ClientMessage) (a : ActiveTransfer) :
    Prop where
  sound : a.IsUpload limits
  frames : Script.FitsFrames limits.framePayload
  trail : Trail a accepted

/-- A world in which every upload under way agrees with what was accepted on its connection. -/
structure IsTraced (limits : TransferLimits) (w : World) : Prop where
  limitsKept : w.server.transfers.limits = limits
  rooted : w.server.transfers.store.IsRooted
  uploads : ∀ i c, w.server.connections[i]? = some c → ∀ a, c.transfers.upload.active = some a →
    Traced limits (w.accepted i) a

variable {limits : TransferLimits} {w : World}

theorem isTraced_start (links : LinkLimits) (limits : TransferLimits) (directory : Directory)
    {store : Store} (hstore : store.IsRooted) :
    (start links limits directory store).IsTraced limits :=
  ⟨rfl, hstore, fun _ _ hc => nomatch hc⟩

/-- A step keeps uploads in agreement with what was accepted. -/
theorem IsTraced.step (h : w.IsTraced limits) (s : Step) : (w.step s).IsTraced limits := by
  cases s with
  | connect screenName profile outbound burst =>
    refine ⟨h.limitsKept, h.rooted, fun i c hc a ha => ?_⟩
    rcases Nat.lt_or_ge i w.server.connections.length with hlt | hge
    · refine h.uploads i c ?_ a ha
      rw [← hc]
      exact (List.getElem?_append_left hlt).symm
    · -- The new connection has no upload.
      have hnew := List.mem_of_getElem? ((List.getElem?_append_right hge).symm.trans hc)
      rw [List.mem_singleton.mp hnew] at ha
      cases ha
  | advance milliseconds => exact ⟨h.limitsKept, h.rooted, h.uploads⟩
  | operate position op =>
    show (w.operate position op).IsTraced limits
    cases hposition : w.server.connections[position]? with
    | none =>
      rw [operate_of_none hposition]
      exact h
    | some c =>
      have hc := h.uploads position c hposition
      -- an upload under way shows that frames have room
      have hframes : ∀ a, c.transfers.upload.active = some a →
          Script.FitsFrames w.server.transfers.limits.framePayload := by
        intro a ha
        rw [h.limitsKept]
        exact (hc a ha).frames
      have hchange := op.uploadChange w.server.transfers c w.now hframes
      refine ⟨?_, ?_, fun i other hother a ha => ?_⟩
      · rw [operate_of_some hposition]
        exact (op.limits_run w.server.transfers c w.now).trans h.limitsKept
      · rw [operate_of_some hposition]
        exact op.isRooted_run c w.now h.rooted
      · rw [connections_operate hposition, List.getElem?_set] at hother
        rw [accepted_operate hposition]
        split at hother
        · next heq =>
          subst heq
          rw [if_pos rfl]
          -- the connection that was operated on
          obtain rfl : (op.run w.server.transfers c w.now).2.1 = other := by
            split at hother
            · exact Option.some.inj hother
            · cases hother
          refine ⟨?_, ?_, hchange.trail (fun a ha => (hc a ha).trail) a ha⟩
          · rw [← h.limitsKept]
            refine hchange.isUpload (fun a ha => ?_) a ha
            rw [h.limitsKept]
            exact (hc a ha).sound
          · rw [← h.limitsKept]
            exact hchange.fitsFrames hframes ha
        · next hne =>
          rw [if_neg hne, List.append_nil]
          exact h.uploads i other hother a ha

/-- So does a run. -/
theorem IsTraced.run (h : w.IsTraced limits) (steps : List Step) : (w.run steps).IsTraced limits := by
  induction steps generalizing w with
  | nil => exact h
  | cons s rest ih => exact ih (h.step s)

end World

end Switchboard.Transfers
