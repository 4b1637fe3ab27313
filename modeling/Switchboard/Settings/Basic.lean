import Switchboard.Settings.Path

/-!
# Settings

What can be set up about a server, in four sections.  Every setting has a default; the default place
for files depends on where the user's data is kept.
-/

namespace Switchboard

/-- Where the server listens. -/
structure NetworkSettings where
  /-- The address for clients. -/
  listenAddress : String
  /-- The local port for administration. -/
  apiPort : UInt16
  deriving Repr, DecidableEq

/-- How frames are sent. -/
structure TransportSettings where
  /-- The most chunks in one burst. -/
  maxBurst : UInt64
  /-- The largest payload of a frame. -/
  maxFramePayload : UInt64
  /-- The number of frames that may wait in an outbound channel. -/
  outboundWindow : UInt64
  deriving Repr, DecidableEq

/-- How files are transferred. -/
structure TransferSettings where
  /-- The largest file, in bytes. -/
  maxFileSize : UInt64
  /-- How many seconds a transfer may be idle. -/
  inactivityTimeout : UInt64
  /-- Where files are kept. -/
  storagePath : String
  deriving Repr, DecidableEq

/-- Who may sign on. -/
structure DirectorySettings where
  /-- The screen names that are admitted; everyone is if there are none. -/
  screenNames : List String
  deriving Repr, DecidableEq

/-- All settings of a server. -/
structure Settings where
  network : NetworkSettings
  transport : TransportSettings
  transfer : TransferSettings
  directory : DirectorySettings
  deriving Repr, DecidableEq

/-- The settings that hold where nothing else is said. -/
def Settings.default (dataDirectory : String) : Settings where
  network := ⟨"0.0.0.0:5190", 5191⟩
  transport := ⟨16, 119, 32⟩
  transfer := ⟨2097152, 30, joinPath dataDirectory "files"⟩
  directory := ⟨[]⟩

end Switchboard
