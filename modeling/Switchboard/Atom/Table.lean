import Switchboard.Atom.Signature

/-!
# The instruction set

All signatures of the language, in the order of their families, and the two ways to look one up.
Names and tags are each used once, so a look-up never depends on the order.
-/

namespace Switchboard

/-- The families of atoms. -/
inductive Family where
  | uni
  | man
  | act
  | de
  | buf
  | idb
  | xfer
  | var
  | async
  | sm
  | mat
  deriving Repr, DecidableEq

/-- The first byte of the tags of a family. -/
def Family.code : Family → UInt8
  | uni => 0
  | man => 1
  | act => 2
  | de => 3
  | buf => 4
  | idb => 5
  | xfer => 6
  | var => 11
  | async => 12
  | sm => 13
  | mat => 16

namespace Signature

/-- Text of any length that an atom can carry. -/
def text : FieldKind := .text 0x7FFF

/-- A short text, such as a title. -/
def title : FieldKind := .text 255

/-- A two-byte token, as text. -/
def token : FieldKind := .text 2

/-- A signature that says how many operands are required and what it does to scopes. -/
def define (name : String) (family : Family) (number : UInt8) (fields : List FieldKind)
    (required : Nat) (effect : ScopeEffect) : Signature :=
  ⟨name, ⟨family.code, number⟩, fields, required, effect⟩

/-- A signature that requires all its operands and leaves scopes alone. -/
def plain (name : String) (family : Family) (number : UInt8) (fields : List FieldKind) :
    Signature :=
  define name family number fields fields.length .none

/-- Every instruction of the language. -/
def all : List Signature := [
  -- Stream control.
  plain "uni_void" .uni 0 [],
  define "uni_start_stream" .uni 1 [.num] 0 (.opens .stream),
  define "uni_end_stream" .uni 2 [] 0 (.closes .stream),
  plain "uni_abort_stream" .uni 3 [],
  plain "uni_wait_on" .uni 9 [],
  plain "uni_wait_off" .uni 10 [],
  plain "uni_wait_clear" .uni 11 [],
  plain "uni_invoke_local" .uni 12 [.gid],
  plain "uni_invoke_no_context" .uni 13 [.gid],
  plain "uni_sync_skip" .uni 14 [.num],
  -- Objects.
  define "man_start_object" .man 0 [.named .objectType, title] 1 (.opens .object),
  define "man_start_sibling" .man 1 [.named .objectType, title] 1 (.reopens .object),
  define "man_end_object" .man 2 [] 0 (.closes .object),
  define "man_close" .man 3 [.gid] 0 .none,
  define "man_set_context_globalid" .man 4 [.gid] 1 (.opens .context),
  define "man_set_context_relative" .man 5 [.num] 1 (.opens .context),
  define "man_end_context" .man 6 [] 0 (.closes .context),
  plain "man_update_display" .man 7 [],
  plain "man_append_data" .man 8 [text],
  plain "man_replace_data" .man 9 [text],
  plain "man_set_default_title" .man 10 [title],
  plain "man_close_children" .man 11 [],
  plain "man_make_focus" .man 12 [],
  plain "man_preset_gid" .man 15 [.gid],
  plain "man_update_end_object" .man 17 [],
  plain "man_force_update" .man 18 [],
  plain "man_clear_object" .man 20 [],
  -- Actions.
  plain "act_set_criterion" .act 0 [.named .criterion],
  plain "act_do_action" .act 1 [.named .criterion],
  plain "act_replace_action" .act 2 [.stream],
  plain "act_replace_select_action" .act 3 [.stream],
  plain "act_append_action" .act 4 [.stream],
  plain "act_set_inheritance" .act 5 [.num],
  plain "act_sound_beep" .act 6 [],
  -- Data extraction.
  define "de_start_extraction" .de 0 [.num] 0 .none,
  plain "de_end_extraction" .de 1 [],
  plain "de_data" .de 2 [text],
  plain "de_set_extraction_type" .de 3 [.num],
  plain "de_validate" .de 4 [.num],
  plain "de_ez_send_form" .de 5 [token],
  -- Send buffers.
  define "buf_start_buffer" .buf 0 [.num] 0 .none,
  plain "buf_set_token" .buf 1 [token],
  plain "buf_add_data" .buf 2 [.raw],
  plain "buf_add_string" .buf 3 [text],
  plain "buf_close_buffer" .buf 4 [],
  plain "buf_set_flags" .buf 5 [.num],
  -- The client's object database.
  plain "idb_start_obj" .idb 0 [.gid],
  plain "idb_end_obj" .idb 1 [],
  plain "idb_set_length" .idb 2 [.dword],
  plain "idb_append_data" .idb 3 [.raw],
  plain "idb_delete_obj" .idb 4 [.gid],
  -- File transfer.
  plain "xfer_set_id" .xfer 0 [.dword],
  plain "xfer_set_filename" .xfer 1 [title],
  plain "xfer_set_size" .xfer 2 [.dword],
  plain "xfer_invoke_download" .xfer 3 [],
  plain "xfer_invoke_picker" .xfer 4 [],
  plain "xfer_request_stats" .xfer 5 [],
  plain "xfer_authorize_upload" .xfer 6 [],
  define "xfer_abort" .xfer 7 [title] 0 .none,
  plain "xfer_set_status_text" .xfer 8 [title],
  -- Client registers.
  plain "var_number_set" .var 0 [.dword],
  plain "var_string_set" .var 1 [title],
  plain "var_number_clear" .var 2 [],
  -- Client commands.
  plain "async_alert" .async 0 [.named .alert, text],
  plain "async_exit" .async 1 [],
  plain "async_exec_app" .async 2 [title],
  plain "async_playsound" .async 3 [title],
  -- Session manager.
  plain "sm_send_token_arg" .sm 0 [token],
  plain "sm_send_token_raw" .sm 1 [.raw],
  -- Object attributes.
  plain "mat_orientation" .mat 0 [.named .orientation],
  plain "mat_position" .mat 1 [.byte],
  plain "mat_size" .mat 2 [.byte, .byte],
  plain "mat_font_sis" .mat 3 [.byte, .byte, .byte],
  plain "mat_art_id" .mat 4 [.gid],
  plain "mat_bool_default" .mat 5 [.named .bool],
  plain "mat_bool_disabled" .mat 6 [.named .bool],
  plain "mat_bool_modal" .mat 7 [.named .bool],
  plain "mat_bool_resize_vertical" .mat 8 [.named .bool],
  plain "mat_bool_resize_horizontal" .mat 9 [.named .bool],
  plain "mat_relative_tag" .mat 11 [.num],
  plain "mat_capacity" .mat 12 [.num],
  plain "mat_color_face" .mat 13 [.byte, .byte, .byte],
  plain "mat_color_text" .mat 14 [.byte, .byte, .byte],
  plain "mat_bool_precise" .mat 15 [.named .bool],
  plain "mat_precise_x" .mat 16 [.word],
  plain "mat_precise_y" .mat 17 [.word],
  plain "mat_precise_width" .mat 18 [.word],
  plain "mat_precise_height" .mat 19 [.word],
  plain "mat_style_id" .mat 21 [.num],
  plain "mat_bool_invisible" .mat 22 [.named .bool],
  plain "mat_bool_protected_input" .mat 24 [.named .bool],
  plain "mat_bool_writeable" .mat 25 [.named .bool]]

/-- The signature with a given name. -/
def byName? (name : String) : Option Signature :=
  all.find? (·.name == name)

/-- The signature with a given tag. -/
def byTag? (tag : Tag) : Option Signature :=
  all.find? (·.tag == tag)

end Signature

end Switchboard
