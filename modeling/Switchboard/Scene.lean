import Switchboard.Script.Builder

/-!
# Scenes

A scene is a script with blanks: it is found by its id and filled in with text parameters.  Numbers
travel through parameters as decimal text.
-/

namespace Switchboard

/-- What a scene is filled in with. -/
structure SceneContext where
  screenName : String
  params : List (String × String)

namespace SceneContext

/-- The value of a parameter that must be there. -/
def param (ctx : SceneContext) (key : String) : Except CompileError String :=
  match ctx.params.lookup key with
  | some value => .ok value
  | none => .error (.format (.missingParameter key))

/-- The value of a parameter that may be missing. -/
def paramOr (ctx : SceneContext) (key default : String) : String :=
  (ctx.params.lookup key).getD default

/-- The value of a parameter that must be a number. -/
def number (ctx : SceneContext) (key : String) : Except CompileError UInt32 := do
  let value ← ctx.param key
  match Text.unsignedBelow? UInt32.size value.toList with
  | some n => return UInt32.ofNat n
  | none => .error (.format (.notANumber key value))

end SceneContext

/-- A scene: its id, the parameters it needs, and how it is built. -/
structure Scene where
  id : String
  params : List String
  build : SceneContext → Except CompileError Builder

namespace Scene

/-- Greets a client that has signed on. -/
def welcome : Scene where
  id := "welcome"
  params := []
  build ctx :=
    .ok (Builder.empty.stream
      |>.object "ind_group" "Welcome"
      |>.named "mat_orientation" "vcf" []
      |>.object "ornament" ""
      |>.atom "man_append_data" [.str ("Welcome, " ++ ctx.screenName ++ "!")]
      |>.endObject
      |>.object "trigger" "OK"
      |>.named "mat_bool_default" "yes" []
      |>.action "select"
      |>.atom "man_close" []
      |>.endAction
      |>.endObject
      |>.endObject
      |>.atom "man_update_display" []
      |>.atom "uni_wait_off" []
      |>.endStream)

/-- Shows an alert box. -/
def message : Scene where
  id := "message"
  params := ["text"]
  build ctx := do
    let text ← ctx.param "text"
    return Builder.empty.stream
      |>.named "async_alert" (ctx.paramOr "kind" "info") [.str text]
      |>.atom "uni_wait_off" []
      |>.endStream

/-- Announces a download. -/
def downloadAnnounce : Scene where
  id := "xfer_download_announce"
  params := ["xfer_id", "filename", "size"]
  build ctx := do
    let id ← ctx.number "xfer_id"
    let filename ← ctx.param "filename"
    let size ← ctx.number "size"
    return Builder.empty.stream
      |>.atom "xfer_set_id" [.int id]
      |>.atom "xfer_set_filename" [.str filename]
      |>.atom "xfer_set_size" [.int size]
      |>.atom "xfer_set_status_text" [.str ("Receiving " ++ filename)]
      |>.atom "xfer_invoke_download" []
      |>.atom "uni_wait_off" []
      |>.endStream

/-- Asks the client to pick a file to upload. -/
def uploadPicker : Scene where
  id := "xfer_upload_picker"
  params := ["xfer_id"]
  build ctx := do
    let id ← ctx.number "xfer_id"
    return Builder.empty.stream
      |>.atom "xfer_set_id" [.int id]
      |>.atom "xfer_set_status_text" [.str (ctx.paramOr "prompt" "Select a file to send")]
      |>.atom "xfer_invoke_picker" []
      |>.atom "uni_wait_off" []
      |>.endStream

/-- Asks for the size of the picked file. -/
def uploadStat : Scene where
  id := "xfer_upload_stat"
  params := ["xfer_id"]
  build ctx := do
    let id ← ctx.number "xfer_id"
    return Builder.empty.stream
      |>.atom "xfer_set_id" [.int id]
      |>.atom "xfer_request_stats" []
      |>.endStream

/-- Lets the client send the picked file. -/
def uploadAuthorize : Scene where
  id := "xfer_upload_authorize"
  params := ["xfer_id"]
  build ctx := do
    let id ← ctx.number "xfer_id"
    return Builder.empty.stream
      |>.atom "xfer_set_id" [.int id]
      |>.atom "xfer_set_status_text" [.str "Sending..."]
      |>.atom "xfer_authorize_upload" []
      |>.endStream

/-- Tells the client that the server has ended a transfer. -/
def abort : Scene where
  id := "xfer_abort"
  params := ["xfer_id", "reason"]
  build ctx := do
    let id ← ctx.number "xfer_id"
    let reason ← ctx.param "reason"
    return Builder.empty.stream
      |>.atom "xfer_set_id" [.int id]
      |>.atom "xfer_abort" [.str reason]
      |>.atom "uni_wait_off" []
      |>.endStream

/-- All scenes, in the order of their ids. -/
def all : List Scene :=
  [message, welcome, abort, downloadAnnounce, uploadAuthorize, uploadPicker, uploadStat]

/-- The scene with a given id. -/
def byId? (id : String) : Option Scene :=
  all.find? (·.id == id)

/-- The script of a scene. -/
def script (scene : Scene) (ctx : SceneContext) : Except CompileError Script := do
  (← scene.build ctx).build

/-- The script of the scene with a given id. -/
def render (id : String) (ctx : SceneContext) : Except CompileError Script :=
  match byId? id with
  | some scene => scene.script ctx
  | none => .error (.unknownScene id)

end Scene

end Switchboard
