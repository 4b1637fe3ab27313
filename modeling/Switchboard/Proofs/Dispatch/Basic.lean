import Mathlib.Data.List.Forall2
import Switchboard.Proofs.Script.Lines
import Switchboard.Proofs.Transfer.Reply

/-!
# What clients are told about transfers

Everything that the server says to a client in the course of transfers is a *dispatch*: one of five
scenes, or a file.  `Dispatch.lines` is what a scene says, atom by atom, and `Connection.Dispatched`
says that dispatches were queued, one complete message after the other.

Main results:

* `Dispatch.read_of_carriedBy`: a client reads from the chunks of a scene what the scene says.
* `Connection.dispatched_abort`: a notice is queued exactly if frames have room for a header and its
  text is short enough for an operand.
-/

namespace Switchboard

/-- What the server tells a client about its transfers. -/
inductive Dispatch where
  | announcement (id : UInt32) (filename : String) (size : UInt32)
  | picker (id : UInt32)
  | statRequest (id : UInt32)
  | authorization (id : UInt32)
  /-- The server has ended a transfer. -/
  | notice (id : UInt32) (reason : String)
  /-- The segments of a download and its end marker. -/
  | file (id : UInt32) (data : Bytes)

instance (limit : Nat) : Decidable (Script.FitsFrames limit) :=
  inferInstanceAs (Decidable (Chunk.headLength + Chunk.maxHeader ≤ limit))

/-- The chunks of a scene about a transfer, sent by some connection. -/
def Scene.CarriedBy (scene : Scene) (limit : Nat) (id : UInt32) (params : List (String × String))
    (chunks : List Chunk) : Prop :=
  ∃ c after : Connection, c.sceneChunks limit scene id params = (after, .ok chunks)

namespace Dispatch

/-- The chunks hold the dispatch, for frames with a payload of at most `limit` bytes. -/
def CarriedBy (limit : Nat) (chunks : List Chunk) : Dispatch → Prop
  | announcement id filename size =>
    Scene.downloadAnnounce.CarriedBy limit id
      [("size", Text.number size.toNat), ("filename", filename)] chunks
  | picker id => Scene.uploadPicker.CarriedBy limit id [] chunks
  | statRequest id => Scene.uploadStat.CarriedBy limit id [] chunks
  | authorization id => Scene.uploadAuthorize.CarriedBy limit id [] chunks
  | notice id reason => Scene.abort.CarriedBy limit id [("reason", reason)] chunks
  | file id data => ∃ streamId, chunks = downloadChunks limit streamId id data

/-- What the dispatch says, if it is a scene. -/
def lines : Dispatch → List Line
  | announcement id filename size =>
    [⟨"xfer_set_id", [.int id]⟩, ⟨"xfer_set_filename", [.str filename]⟩,
      ⟨"xfer_set_size", [.int size]⟩, ⟨"xfer_set_status_text", [.str ("Receiving " ++ filename)]⟩,
      ⟨"xfer_invoke_download", []⟩, ⟨"uni_wait_off", []⟩]
  | picker id =>
    [⟨"xfer_set_id", [.int id]⟩, ⟨"xfer_set_status_text", [.str "Select a file to send"]⟩,
      ⟨"xfer_invoke_picker", []⟩, ⟨"uni_wait_off", []⟩]
  | statRequest id => [⟨"xfer_set_id", [.int id]⟩, ⟨"xfer_request_stats", []⟩]
  | authorization id =>
    [⟨"xfer_set_id", [.int id]⟩, ⟨"xfer_set_status_text", [.str "Sending..."]⟩,
      ⟨"xfer_authorize_upload", []⟩]
  | notice id reason =>
    [⟨"xfer_set_id", [.int id]⟩, ⟨"xfer_abort", [.str reason]⟩, ⟨"uni_wait_off", []⟩]
  | file .. => []

/-- Whether the dispatch is a scene. -/
def isScene : Dispatch → Bool
  | file .. => false
  | _ => true

/-- Whether the dispatch says that a transfer has ended. -/
def isNotice : Dispatch → Bool
  | notice .. => true
  | _ => false

/-- The notice that a transfer has ended, if it can be said: its text has to fit an operand, and frames
must have room for a header. -/
def notices (limit : Nat) (id : UInt32) (reason : String) : List Dispatch :=
  if Script.FitsFrames limit ∧ reason.utf8ByteSize ≤ 255 then [.notice id reason] else []

theorem isPlain_lines (d : Dispatch) : ∀ l ∈ d.lines, l.IsPlain := by
  cases d <;> simp [lines, Line.IsPlain, Operand.type]

end Dispatch

-- ---------------------------------------------------------------------------
-- Reading scenes
-- ---------------------------------------------------------------------------

/-- A parameter that is there is found. -/
theorem SceneContext.param_of_lookup {ctx : SceneContext} {key value : String}
    (h : ctx.params.lookup key = some value) : ctx.param key = .ok value := by
  rw [param, h]

theorem SceneContext.paramOr_of_lookup {ctx : SceneContext} {key default : String}
    (h : ctx.params.lookup key = none) : ctx.paramOr key default = default := by
  rw [paramOr, h]
  rfl

namespace Scene

variable {scene : Scene} {limit : Nat} {id : UInt32} {params : List (String × String)}
  {chunks : List Chunk}

/-- The chunks of a scene are those of its script. -/
theorem CarriedBy.exists_script (h : scene.CarriedBy limit id params chunks) :
    ∃ screenName streamId script,
      scene.script ⟨screenName, params ++ [("xfer_id", Text.number id.toNat)]⟩ = .ok script ∧
      script.compile limit streamId scene.id = .ok chunks := by
  obtain ⟨c, after, h⟩ := h
  unfold Connection.sceneChunks at h
  dsimp only at h
  split at h
  · cases h
  · next script hscript =>
    exact ⟨c.screenName, c.takeStreamId.2, script, hscript, congrArg Prod.snd h⟩

/-- The chunks of a scene that is built from lines, whoever it is for, are those of these lines. -/
theorem CarriedBy.exists_build {lines : List Line} (h : scene.CarriedBy limit id params chunks)
    (hlines : ∀ screenName,
      scene.script ⟨screenName, params ++ [("xfer_id", Text.number id.toNat)]⟩ =
        (lines.foldl Builder.line Builder.empty.stream).endStream.build) :
    ∃ streamId label script,
      (lines.foldl Builder.line Builder.empty.stream).endStream.build = .ok script ∧
      script.compile limit streamId label = .ok chunks := by
  obtain ⟨screenName, streamId, script, hscript, hcompile⟩ := h.exists_script
  exact ⟨streamId, scene.id, script, (hlines screenName).symm.trans hscript, hcompile⟩

-- Each scene about a transfer is built from its lines.

variable (screenName : String) (id : UInt32)

theorem announce_script (filename : String) (size : UInt32) :
    downloadAnnounce.script ⟨screenName, [("size", Text.number size.toNat),
        ("filename", filename)] ++ [("xfer_id", Text.number id.toNat)]⟩ =
      ((Dispatch.announcement id filename size).lines.foldl Builder.line
        Builder.empty.stream).endStream.build := by
  rw [script, downloadAnnounce]
  dsimp only
  rw [SceneContext.number_of_lookup rfl, SceneContext.number_of_lookup rfl,
    SceneContext.param_of_lookup rfl, ok_bind, ok_bind, ok_bind, pure_bind]
  rfl

theorem picker_script :
    uploadPicker.script ⟨screenName, [] ++ [("xfer_id", Text.number id.toNat)]⟩ =
      ((Dispatch.picker id).lines.foldl Builder.line Builder.empty.stream).endStream.build := by
  rw [script, uploadPicker]
  dsimp only
  rw [SceneContext.number_of_lookup rfl, SceneContext.paramOr_of_lookup rfl, ok_bind, pure_bind]
  rfl

theorem stat_script :
    uploadStat.script ⟨screenName, [] ++ [("xfer_id", Text.number id.toNat)]⟩ =
      ((Dispatch.statRequest id).lines.foldl Builder.line Builder.empty.stream).endStream.build := by
  rw [script, uploadStat]
  dsimp only
  rw [SceneContext.number_of_lookup rfl, ok_bind, pure_bind]
  rfl

theorem authorize_script :
    uploadAuthorize.script ⟨screenName, [] ++ [("xfer_id", Text.number id.toNat)]⟩ =
      ((Dispatch.authorization id).lines.foldl Builder.line Builder.empty.stream).endStream.build := by
  rw [script, uploadAuthorize]
  dsimp only
  rw [SceneContext.number_of_lookup rfl, ok_bind, pure_bind]
  rfl

theorem abort_script (reason : String) :
    abort.script ⟨screenName, [("reason", reason)] ++ [("xfer_id", Text.number id.toNat)]⟩ =
      ((Dispatch.notice id reason).lines.foldl Builder.line Builder.empty.stream).endStream.build := by
  rw [script, abort]
  dsimp only
  rw [SceneContext.number_of_lookup rfl, SceneContext.param_of_lookup rfl, ok_bind, ok_bind, pure_bind]
  rfl

end Scene

namespace Dispatch

variable {limit : Nat} {chunks : List Chunk} {d : Dispatch}

/-- The script of a scene is built from what the scene says. -/
theorem build_of_carriedBy (h : d.CarriedBy limit chunks) (hscene : d.isScene = true) :
    ∃ streamId label script,
      (d.lines.foldl Builder.line Builder.empty.stream).endStream.build = .ok script ∧
      script.compile limit streamId label = .ok chunks := by
  cases d with
  | file id data => cases hscene
  | announcement id filename size =>
    exact Scene.CarriedBy.exists_build h fun name => Scene.announce_script name id filename size
  | picker id => exact Scene.CarriedBy.exists_build h fun name => Scene.picker_script name id
  | statRequest id => exact Scene.CarriedBy.exists_build h fun name => Scene.stat_script name id
  | authorization id =>
    exact Scene.CarriedBy.exists_build h fun name => Scene.authorize_script name id
  | notice id reason =>
    exact Scene.CarriedBy.exists_build h fun name => Scene.abort_script name id reason

/-- A client reads from the chunks of a scene what the scene says, in one stream. -/
theorem read_of_carriedBy (h : d.CarriedBy limit chunks) (hscene : d.isScene = true) :
    ∃ read, Atom.decodeStream (Chunk.reassemble chunks) = .ok read ∧
      read.map Atom.toLine = Line.opening :: (d.lines.map Line.kept ++ [Line.closing]) := by
  obtain ⟨streamId, label, script, hbuild, hcompile⟩ := build_of_carriedBy h hscene
  obtain ⟨atoms, hmakes, rfl⟩ := Builder.makes_of_build hbuild
  exact Script.lines_of_compile hmakes d.isPlain_lines hcompile

end Dispatch

-- ---------------------------------------------------------------------------
-- Notices
-- ---------------------------------------------------------------------------

namespace Scene

/-- The signature of the atom that says why a transfer has ended. -/
def endingSignature : Signature :=
  .define "xfer_abort" .xfer 7 [Signature.title] 0 .none

/-- The atom that says why a transfer has ended. -/
def ending (reason : String) : Atom :=
  .mk endingSignature (Operand.dropOmitted 0 [.str reason]) 0

/-- A text can be left out only if it is empty. -/
theorem dropOmitted_text (text : String) :
    Operand.dropOmitted 0 [.str text] = if text = "" then [] else [.str text] := by
  by_cases h : text = "" <;> simp [Operand.dropOmitted, Operand.isEmptyText, List.dropWhile, h]

/-- A reason can be told if it fits an operand. -/
theorem check_ending_iff {reason : String} :
    endingSignature.check (Operand.dropOmitted 0 [.str reason]) = .ok () ↔
      reason.utf8ByteSize ≤ 255 := by
  rw [dropOmitted_text]
  split
  · next hempty =>
    subst hempty
    exact iff_of_true rfl (Nat.zero_le _)
  · show (if reason.utf8ByteSize ≤ 255 then Except.ok () else .error _ :
      Except FormatFault Unit) >>= (fun _ => .ok ()) = .ok () ↔ _
    split
    · next h => exact iff_of_true rfl h
    · next h => exact iff_of_false nofun h

theorem makes_ending_iff {reason : String} {a : Atom} :
    Line.Makes ⟨"xfer_abort", [.str reason]⟩ a ↔ reason.utf8ByteSize ≤ 255 ∧ a = ending reason := by
  have hname : Signature.byName? "xfer_abort" = some endingSignature := rfl
  rw [Line.Makes, Atom.make_eq_ok_iff]
  constructor
  · rintro ⟨s, hs, hcheck, rfl⟩
    cases hname.symm.trans hs
    exact ⟨check_ending_iff.mp hcheck, rfl⟩
  · rintro ⟨hreason, rfl⟩
    exact ⟨endingSignature, hname, check_ending_iff.mpr hreason, rfl⟩

theorem isSimple_ending {reason : String} (h : reason.utf8ByteSize ≤ 255) :
    (ending reason).IsSimple := by
  have hmakes := makes_ending_iff.mpr ⟨h, rfl⟩
  refine ⟨hmakes.isMade, hmakes.isPlain ?_, ?_⟩
  · intro op hop
    rw [List.mem_singleton.mp hop]
    simp [Operand.type]
  · rw [Atom.FitsLength, ending, dropOmitted_text]
    split
    · exact Nat.zero_le _
    · show reason.utf8ByteSize + 0 ≤ Atom.maxData
      exact Nat.le_trans h (by decide)

/-- The atom that lets the client go on. -/
def goOn : Atom :=
  .mk (.plain "uni_wait_off" .uni 10 []) [] 0

theorem isSimple_goOn : goOn.IsSimple :=
  ⟨⟨"uni_wait_off", [], rfl⟩, (fun _ hop => nomatch hop), Nat.zero_le _⟩

end Scene

namespace Connection

variable (c : Connection) (limit : Nat) (id : UInt32) (reason : String)

/-- A notice can be built exactly if frames have room for a header and its text fits an operand. -/
theorem succeeds_abort_iff :
    Succeeds (c.sceneChunks limit .abort id [("reason", reason)]).2 ↔
      Script.FitsFrames limit ∧ reason.utf8ByteSize ≤ 255 := by
  constructor
  · rintro ⟨chunks, h⟩
    have hscene : c.sceneChunks limit .abort id [("reason", reason)] =
        ((c.sceneChunks limit .abort id [("reason", reason)]).1, .ok chunks) := Prod.ext rfl h
    refine ⟨fitsFrames_of_sceneChunks hscene, ?_⟩
    have hcarried : Scene.abort.CarriedBy limit id [("reason", reason)] chunks := ⟨c, _, hscene⟩
    obtain ⟨screenName, streamId, script, hscript, -⟩ := hcarried.exists_script
    rw [Scene.abort_script] at hscript
    obtain ⟨atoms, hmakes, -⟩ := Builder.makes_of_build hscript
    cases hmakes with
    | cons _ hrest =>
      cases hrest with
      | cons hending _ => exact (Scene.makes_ending_iff.mp hending).1
  · rintro ⟨hframes, hreason⟩
    have hmakes : List.Forall₂ Line.Makes (Dispatch.notice id reason).lines
        [Scene.setId id, Scene.ending reason, Scene.goOn] :=
      .cons rfl (.cons (Scene.makes_ending_iff.mpr ⟨hreason, rfl⟩) (.cons rfl .nil))
    have hsimple : ∀ a ∈ [Scene.setId id, Scene.ending reason, Scene.goOn], a.IsSimple :=
      List.forall_mem_cons.mpr ⟨Scene.isSimple_setId id, List.forall_mem_cons.mpr
        ⟨Scene.isSimple_ending hreason, List.forall_mem_singleton.mpr Scene.isSimple_goOn⟩⟩
    have hscript : Scene.abort.script
        ⟨c.screenName, [("reason", reason)] ++ [("xfer_id", Text.number id.toNat)]⟩ =
          .ok (.ofAtoms [Scene.setId id, Scene.ending reason, Scene.goOn]) := by
      rw [Scene.abort_script]
      refine Builder.build_of_makes hmakes (fun a ha => ⟨?_, (hsimple a ha).plain⟩) []
      simp only [List.mem_cons, List.not_mem_nil, or_false] at ha
      rcases ha with rfl | rfl | rfl <;> rfl
    exact sceneChunks_eq_ok hscript fun streamId label =>
      Script.succeeds_compile_ofAtoms hsimple hframes streamId label

end Connection

-- ---------------------------------------------------------------------------
-- Sending
-- ---------------------------------------------------------------------------

namespace Connection

/-- A connection after its client was sent dispatches, each as a whole. -/
def Dispatched (limit : Nat) (ds : List Dispatch) (before after : Connection) : Prop :=
  ∃ batches : List (List Chunk), List.Forall₂ (fun d chunks => d.CarriedBy limit chunks) ds batches ∧
    after.pacer = before.pacer.enqueue batches.flatten

namespace Dispatched

variable {limit : Nat} {first second : List Dispatch} {d : Dispatch} {chunks : List Chunk}
  {c before after : Connection}

theorem of_queued (h : Queued [] before after) : Dispatched limit [] before after :=
  ⟨[], .nil, h.pacer_eq⟩

theorem of_pacer_eq (h : after.pacer = before.pacer) : Dispatched limit [] before after := by
  refine ⟨[], .nil, ?_⟩
  rw [List.flatten_nil, Pacer.enqueue_nil, h]

theorem single (hcarried : d.CarriedBy limit chunks)
    (h : after.pacer = before.pacer.enqueue chunks) : Dispatched limit [d] before after := by
  refine ⟨[chunks], .cons hcarried .nil, ?_⟩
  rw [List.flatten_singleton, h]

theorem trans (h : Dispatched limit first c before) (h' : Dispatched limit second before after) :
    Dispatched limit (first ++ second) c after := by
  obtain ⟨batches, hcarried, hpacer⟩ := h
  obtain ⟨batches', hcarried', hpacer'⟩ := h'
  refine ⟨batches ++ batches', List.rel_append hcarried hcarried', ?_⟩
  rw [List.flatten_append, ← Pacer.enqueue_append, ← hpacer, hpacer']

end Dispatched

variable (c : Connection) (limit : Nat) (id : UInt32)

/-- A scene that could be built is sent as a whole. -/
theorem dispatched_of_sceneChunks {scene : Scene} {params : List (String × String)} {d : Dispatch}
    {after : Connection} {chunks : List Chunk}
    (h : c.sceneChunks limit scene id params = (after, .ok chunks))
    (hd : scene.CarriedBy limit id params chunks → d.CarriedBy limit chunks) :
    Dispatched limit [d] c (after.send chunks) := by
  have hqueued := c.queued_sceneChunks limit scene id params
  rw [h] at hqueued
  refine .single (hd ⟨c, after, h⟩) ?_
  show after.pacer.enqueue chunks = c.pacer.enqueue chunks
  rw [hqueued.pacer_eq, Pacer.enqueue_nil]

/-- A notice is queued as a whole, or not at all. -/
theorem dispatched_abort (reason : String) :
    Dispatched limit (Dispatch.notices limit id reason) c (c.abort limit id reason) := by
  have hsaid := c.succeeds_abort_iff limit id reason
  rw [abort]
  split
  · next after chunks heq =>
    rw [heq] at hsaid
    rw [Dispatch.notices, if_pos (hsaid.mp (succeeds_ok chunks))]
    exact c.dispatched_of_sceneChunks limit id heq fun hcarried => hcarried
  · next after error heq =>
    have hqueued := c.queued_sceneChunks limit .abort id [("reason", reason)]
    rw [heq] at hsaid hqueued
    rw [Dispatch.notices, if_neg fun h => not_succeeds_error error (hsaid.mpr h)]
    exact .of_queued hqueued

end Connection

end Switchboard
