import Switchboard.Server
import Switchboard.Settings.Basic

/-!
# Starting a server

A server takes its limits and its directory from the settings.
-/

namespace Switchboard

/-- A server with the given settings that nobody has signed on to. -/
def Server.ofSettings (settings : Settings) (store : Store) : Server :=
  .new ⟨settings.transport.maxBurst.toNat, settings.transport.outboundWindow.toNat⟩
    { maxFileSize := settings.transfer.maxFileSize.toNat
      timeout := settings.transfer.inactivityTimeout.toNat * 1000
      framePayload := settings.transport.maxFramePayload.toNat }
    (.ofNames settings.directory.screenNames) store

end Switchboard
