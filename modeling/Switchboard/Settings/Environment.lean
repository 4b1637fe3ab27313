import Switchboard.Settings.Basic
import Switchboard.Text.Blank
import Switchboard.Text.Decimal

/-!
# The environment

Variables of the environment say where settings and data are kept, and override single settings.  A
variable whose value is no number of the right size leaves a numeric setting as it is.
-/

namespace Switchboard

/-- The values of variables by name. -/
abbrev Environment := String → Option String

namespace Environment

/-- The directory in which the user's other directories are. -/
def home (env : Environment) : String :=
  (env "HOME").getD "/tmp"

/-- The directory for settings. -/
def configDirectory (env : Environment) : String :=
  joinPath ((env "XDG_CONFIG_HOME").getD (joinPath env.home ".config")) "dialtone"

/-- The directory for data. -/
def dataDirectory (env : Environment) : String :=
  joinPath ((env "XDG_DATA_HOME").getD (joinPath (joinPath env.home ".local") "share")) "dialtone"

/-- The file that holds the settings. -/
def settingsPath (env : Environment) : String :=
  (env "DIALTONE_CONFIG").getD (joinPath env.configDirectory "config.toml")

/-- The value of a variable if it is a number below a bound, perhaps after a plus sign. -/
def number? (env : Environment) (name : String) (bound : Nat) : Option Nat :=
  (env name).bind fun value => Text.unsignedBelow? bound value.toList

/-- The value of a variable if it is a number of 64 bits. -/
def word? (env : Environment) (name : String) : Option UInt64 :=
  (env.number? name UInt64.size).map UInt64.ofNat

end Environment

/-- The parts of a text between commas. -/
def commaParts (current : List Char) : List Char → List (List Char)
  | [] => [current.reverse]
  | c :: rest =>
    if c = ',' then current.reverse :: commaParts [] rest else commaParts (c :: current) rest

/-- The names in a list with commas, without white space around them; empty ones are left out. -/
def commaNames (value : String) : List String :=
  ((commaParts [] value.toList).map fun part => String.ofList (Text.trim part)).filter (· ≠ "")

/-- The settings after the variables that override them. -/
def Settings.override (settings : Settings) (env : Environment) : Settings where
  network :=
    { listenAddress := (env "DIALTONE_NETWORK__LISTEN_ADDR").getD settings.network.listenAddress
      apiPort := ((env.number? "DIALTONE_NETWORK__API_PORT" UInt16.size).map UInt16.ofNat).getD
        settings.network.apiPort }
  transport :=
    { settings.transport with
      maxBurst := (env.word? "DIALTONE_TRANSPORT__MAX_BURST").getD settings.transport.maxBurst
      maxFramePayload := (env.word? "DIALTONE_TRANSPORT__MAX_FRAME_PAYLOAD").getD
        settings.transport.maxFramePayload }
  transfer :=
    { maxFileSize := (env.word? "DIALTONE_TRANSFER__MAX_FILE_SIZE").getD
        settings.transfer.maxFileSize
      inactivityTimeout := (env.word? "DIALTONE_TRANSFER__INACTIVITY_TIMEOUT_SECS").getD
        settings.transfer.inactivityTimeout
      storagePath := (env "DIALTONE_TRANSFER__STORAGE_PATH").getD settings.transfer.storagePath }
  directory :=
    { screenNames := ((env "DIALTONE_DIRECTORY__SCREEN_NAMES").map commaNames).getD
        settings.directory.screenNames }

end Switchboard
