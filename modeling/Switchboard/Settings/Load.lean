import Switchboard.Settings.Environment
import Switchboard.Settings.File
import Switchboard.Text.Utf8

/-!
# Loading settings

Variables of the environment count before the settings file, and that before the defaults.  A missing
file is not needed for loading, and can be made from the defaults.
-/

namespace Switchboard

/-- Why settings cannot be loaded. -/
inductive SettingsError where
  /-- The file is missing or not text. -/
  | readFailed
  /-- The file is no document, or not one that describes settings. -/
  | parseFailed
  deriving Repr, DecidableEq

namespace Settings

/-- The defaults in an environment. -/
def defaultIn (env : Environment) : Settings :=
  .default env.dataDirectory

/-- The settings in a file with the given contents, if there is one. -/
def ofFile (env : Environment) (file : Option Bytes) : Except SettingsError Settings :=
  match file.bind Text.utf8? with
  | none => .error .readFailed
  | some source =>
    match (defaultIn env).parse? source with
    | some settings => .ok settings
    | none => .error .parseFailed

/-- The settings in force, given the contents of the settings file if there is one. -/
def load (env : Environment) (file : Option Bytes) : Except SettingsError Settings := do
  let settings ← match file with
    | some _ => ofFile env file
    | none => .ok (defaultIn env)
  return settings.override env

/-- The contents of the settings file once it has been made sure that there is one. -/
def ensureFile (env : Environment) (file : Option Bytes) : Bytes :=
  file.getD (Text.utf8 (defaultIn env).document)

end Settings

end Switchboard
