import Switchboard.Connection
import Switchboard.Scene
import Switchboard.Script.Compile
import Switchboard.Transfer.Error

/-!
# Notices about transfers

The server tells a client about its transfers through scenes: it announces downloads, asks for
uploads and says when it has ended something.  A notice about the end of a transfer is sent if it can
be built; what cannot be said does not stop the server.
-/

namespace Switchboard

/-- The limits under which transfers run. -/
structure TransferLimits where
  /-- The largest file, in bytes. -/
  maxFileSize : Nat
  /-- How long a transfer may be idle, in milliseconds. -/
  timeout : Nat
  /-- The largest payload of a frame. -/
  framePayload : Nat
  deriving Repr, DecidableEq

namespace Connection

/-- The chunks of a scene about a transfer, on a stream id of their own. -/
def sceneChunks (c : Connection) (framePayload : Nat) (scene : Scene) (id : UInt32)
    (params : List (String × String)) : Connection × Except CompileError (List Chunk) :=
  let ctx : SceneContext := ⟨c.screenName, params ++ [("xfer_id", Text.number id.toNat)]⟩
  match scene.script ctx with
  | .error error => (c, .error error)
  | .ok script =>
    let (c, streamId) := c.takeStreamId
    (c, script.compile framePayload streamId scene.id)

/-- Tells the client that a transfer has ended, if that can be said. -/
def abort (c : Connection) (framePayload : Nat) (id : UInt32) (reason : String) : Connection :=
  match c.sceneChunks framePayload .abort id [("reason", reason)] with
  | (c, .ok chunks) => c.send chunks
  | (c, .error _) => c

/-- Replaces the slot for a direction. -/
def setSlot (c : Connection) (direction : Direction) (slot : Slot) : Connection :=
  { c with transfers := c.transfers.setSlot direction slot }

end Connection

end Switchboard
