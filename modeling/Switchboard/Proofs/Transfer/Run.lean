import Switchboard.Proofs.Transfer.Change

/-!
# Runs of a server's transfers

A `World` is a server with the time and everything that clients have said about transfers so far.  In
a step somebody connects, an operation is carried out on a connection, or time passes; a run is any
list of steps.

Main results:

* `World.operate_of_some`: an operation changes one connection, and what all connections share.
* `World.server_operate_handle` and its companions: operations are carried out by the functions that
  links and the host call.
-/

namespace Switchboard.Transfers

/-- What a client said on a connection, with the answer. -/
structure Exchange where
  position : Nat
  message : ClientMessage
  answer : Except TransferError (Option TransferState)
  deriving DecidableEq

/-- The message about an upload that was accepted, if this is one. -/
def Exchange.accepted (e : Exchange) : Option ClientMessage :=
  acceptedUpload e.message e.answer

/-- A server at some time, with what its clients have said, oldest first. -/
structure World where
  server : Server
  now : Nat
  log : List Exchange

/-- What can happen. -/
inductive Step where
  | connect (screenName : String) (profile : ClientProfile) (outbound : Channel) (burst : Nat)
  /-- Something happens to the connection at a position. -/
  | operate (position : Nat) (op : Operation)
  | advance (milliseconds : Nat)

/-- Whether the step starts a transfer. -/
def Step.isInitiation : Step → Bool
  | operate _ op => op.isInitiation
  | _ => false

/-- What an operation adds to what clients have said. -/
def Operation.exchange (op : Operation) (position : Nat)
    (answer : Except TransferError (Option TransferState)) : List Exchange :=
  match op with
  | handle message => [⟨position, message, answer⟩]
  | _ => []

namespace World

/-- A server that nobody has signed on to. -/
def start (links : LinkLimits) (limits : TransferLimits) (directory : Directory) (store : Store) :
    World :=
  ⟨.new links limits directory store, 0, []⟩

/-- Carries out an operation on the connection at a position. -/
def operate (w : World) (position : Nat) (op : Operation) : World :=
  match w.server.connections[position]? with
  | none => w
  | some c =>
    let (transfers, c, answer) := op.run w.server.transfers c w.now
    { w with
      server := { w.server with transfers }.put position c
      log := w.log ++ op.exchange position answer }

/-- Carries out a step. -/
def step (w : World) : Step → World
  | .connect screenName profile outbound burst =>
    let (server, id) := w.server.takeConnectionId
    { w with server := (server.add (.new id screenName profile outbound burst)).1 }
  | .operate position op => w.operate position op
  | .advance milliseconds => { w with now := w.now + milliseconds }

/-- Carries out steps in order. -/
def run (w : World) (steps : List Step) : World :=
  steps.foldl step w

theorem operate_of_none {w : World} {position : Nat} (h : w.server.connections[position]? = none)
    (op : Operation) : w.operate position op = w := by
  rw [operate, h]

theorem operate_of_some {w : World} {position : Nat} {c : Connection}
    (h : w.server.connections[position]? = some c) (op : Operation) :
    w.operate position op =
      { w with
        server := { w.server with transfers := (op.run w.server.transfers c w.now).1 }.put position
          (op.run w.server.transfers c w.now).2.1
        log := w.log ++ op.exchange position (op.run w.server.transfers c w.now).2.2 } := by
  rw [operate, h]

-- ---------------------------------------------------------------------------
-- What an operation changes
-- ---------------------------------------------------------------------------

/-- The connections after an operation on one of them. -/
theorem connections_operate {w : World} {position : Nat} {c : Connection}
    (h : w.server.connections[position]? = some c) (op : Operation) :
    (w.operate position op).server.connections =
      w.server.connections.set position (op.run w.server.transfers c w.now).2.1 := by
  rw [operate_of_some h]
  rfl

-- Messages and initiations are carried out by the functions that links and the host call.

theorem server_operate_handle {w : World} {position : Nat} {c : Connection}
    (h : w.server.connections[position]? = some c) (message : ClientMessage) :
    (w.operate position (.handle message)).server =
      (w.server.handle position c w.now message).1 := by
  rw [operate_of_some h]
  rfl

theorem server_operate_initiateDownload {w : World} {position : Nat} {c : Connection}
    (h : w.server.connections[position]? = some c) (filename : String) (data : Bytes) :
    (w.operate position (.initiateDownload filename data)).server =
      (w.server.initiateDownload position c w.now filename data).1 := by
  rw [operate_of_some h]
  rfl

theorem server_operate_initiateUpload {w : World} {position : Nat} {c : Connection}
    (h : w.server.connections[position]? = some c) :
    (w.operate position .initiateUpload).server =
      (w.server.initiateUpload position c w.now).1 := by
  rw [operate_of_some h]
  rfl

end World

end Switchboard.Transfers
