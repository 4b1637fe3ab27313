import Switchboard.Settings.Basic
import Switchboard.Text.Decimal
import Switchboard.Toml.Document
import Switchboard.Toml.Written

/-!
# Settings in a document

A settings file has a table for each section.  What a table leaves out keeps its default, and what no
section knows does not count; a value of the wrong kind or size spoils the whole file.
-/

namespace Switchboard

namespace Toml

/-- The fields of a section by name.  An array gives them in the order of `names`; a date has
none. -/
def fields? (names : List String) : Toml → Option Entries
  | .table _ entries => some entries
  | .array items => some (names.zip items)
  | .tables items => some (names.zip (items.reverse.map (.table .header)))
  | .date => some []
  | .text _ | .integer _ | .float | .boolean _ => none

/-- A value that must be text. -/
def text? : Toml → Option String
  | .text s => some s
  | _ => none

/-- A value that must be a number below a bound. -/
def numberBelow? (bound : Nat) : Toml → Option Nat
  | .integer n => if 0 ≤ n ∧ n < bound then some n.toNat else none
  | _ => none

/-- A value that must be a number of 64 bits. -/
def word? (value : Toml) : Option UInt64 :=
  (value.numberBelow? UInt64.size).map UInt64.ofNat

/-- A value that must be a list of texts. -/
def texts? : Toml → Option (List String)
  | .array items => items.mapM text?
  | _ => none

/-- Reads the value under a key, if there is one. -/
def field {α : Type} (entries : Entries) (key : String) (read : Toml → Option α) (default : α) :
    Option α :=
  match entries.lookup key with
  | some value => read value
  | none => some default

end Toml

/-- The section that a value describes; what it leaves out is taken from `default`. -/
def NetworkSettings.ofToml? (default : NetworkSettings) (value : Toml) :
    Option NetworkSettings := do
  let entries ← value.fields? ["listen_addr", "api_port"]
  return {
    listenAddress := ← Toml.field entries "listen_addr" Toml.text? default.listenAddress
    apiPort := ← Toml.field entries "api_port"
      (fun v => (v.numberBelow? UInt16.size).map UInt16.ofNat) default.apiPort }

@[inherit_doc NetworkSettings.ofToml?]
def TransportSettings.ofToml? (default : TransportSettings) (value : Toml) :
    Option TransportSettings := do
  let entries ← value.fields? ["max_burst", "max_frame_payload", "outbound_window"]
  return {
    maxBurst := ← Toml.field entries "max_burst" Toml.word? default.maxBurst
    maxFramePayload := ← Toml.field entries "max_frame_payload" Toml.word? default.maxFramePayload
    outboundWindow := ← Toml.field entries "outbound_window" Toml.word? default.outboundWindow }

@[inherit_doc NetworkSettings.ofToml?]
def TransferSettings.ofToml? (default : TransferSettings) (value : Toml) :
    Option TransferSettings := do
  let entries ← value.fields? ["max_file_size", "inactivity_timeout_secs", "storage_path"]
  return {
    maxFileSize := ← Toml.field entries "max_file_size" Toml.word? default.maxFileSize
    inactivityTimeout :=
      ← Toml.field entries "inactivity_timeout_secs" Toml.word? default.inactivityTimeout
    storagePath := ← Toml.field entries "storage_path" Toml.text? default.storagePath }

@[inherit_doc NetworkSettings.ofToml?]
def DirectorySettings.ofToml? (default : DirectorySettings) (value : Toml) :
    Option DirectorySettings := do
  let entries ← value.fields? ["screen_names"]
  return { screenNames := ← Toml.field entries "screen_names" Toml.texts? default.screenNames }

namespace Settings

/-- The settings that the entries of a document describe; what they leave out is taken from
`default`. -/
def ofEntries? (default : Settings) (entries : Toml.Entries) : Option Settings := do
  return {
    network := ← Toml.field entries "network" default.network.ofToml? default.network
    transport := ← Toml.field entries "transport" default.transport.ofToml? default.transport
    transfer := ← Toml.field entries "transfer" default.transfer.ofToml? default.transfer
    directory := ← Toml.field entries "directory" default.directory.ofToml? default.directory }

/-- The settings that a document describes. -/
def parse? (default : Settings) (source : String) : Option Settings := do
  default.ofEntries? (← Toml.parse? source)

-- ---------------------------------------------------------------------------
-- Writing
-- ---------------------------------------------------------------------------

/-- A line that sets a text. -/
def textLine (key value : String) : String :=
  key ++ " = " ++ String.ofList (Toml.written value.toList) ++ "\n"

/-- A line that sets a number. -/
def numberLine (key : String) (value : Nat) : String :=
  key ++ " = " ++ Text.number value ++ "\n"

/-- The line or lines that set a list of texts: one for each text if there are several. -/
def textsLine (key : String) (values : List String) : String :=
  let items := values.map fun value => String.ofList (Toml.written value.toList)
  let body := match items with
    | [] => "[]"
    | [item] => "[" ++ item ++ "]"
    | items => "[\n" ++ String.join (items.map fun item => "    " ++ item ++ ",\n") ++ "]"
  key ++ " = " ++ body ++ "\n"

/-- The document that describes some settings. -/
def document (settings : Settings) : String :=
  "[network]\n" ++
  textLine "listen_addr" settings.network.listenAddress ++
  numberLine "api_port" settings.network.apiPort.toNat ++
  "\n[transport]\n" ++
  numberLine "max_burst" settings.transport.maxBurst.toNat ++
  numberLine "max_frame_payload" settings.transport.maxFramePayload.toNat ++
  numberLine "outbound_window" settings.transport.outboundWindow.toNat ++
  "\n[transfer]\n" ++
  numberLine "max_file_size" settings.transfer.maxFileSize.toNat ++
  numberLine "inactivity_timeout_secs" settings.transfer.inactivityTimeout.toNat ++
  textLine "storage_path" settings.transfer.storagePath ++
  "\n[directory]\n" ++
  textsLine "screen_names" settings.directory.screenNames

end Settings

end Switchboard
