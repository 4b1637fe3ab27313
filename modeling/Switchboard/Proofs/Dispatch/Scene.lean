import Switchboard.Proofs.Atom.Contract
import Switchboard.Proofs.Dispatch.Notice
import Switchboard.Proofs.Dispatch.Operation
import Switchboard.Proofs.Transfer.Announcement

/-!
# Scenes tell the truth

Ids and sizes of transfers travel as decimal text through the parameters of a scene, are read back,
put into operands, flattened, encoded and cut into chunks; the names of files and the reasons of
failures go the same way.  What comes out at the client is what the server holds: nothing in a text
changes another operand, or the form of the stream.

Main results:

* `Dispatch.isTold_of_carriedBy`: how a client reads the chunks of a scene.
* `Operation.scenes_told`: which scenes an operation sends, how they are read, and that they are true.
-/

namespace Switchboard

-- ---------------------------------------------------------------------------
-- Streams
-- ---------------------------------------------------------------------------

namespace Atom

/-- The operands of the atoms with a given name, atom by atom. -/
def operandsOf (name : String) (atoms : List Atom) : List (List Operand) :=
  (atoms.filter (·.name == name)).map (·.operands)

/-- Whether atoms are one balanced stream: an opener, atoms that leave scopes alone, and a closer. -/
structure IsStream (atoms : List Atom) : Prop where
  framed : ∃ opener body closer, atoms = opener :: (body ++ [closer]) ∧
    opener.effect = .opens .stream ∧ closer.effect = .closes .stream ∧
    ∀ a ∈ body, a.effect = .none
  balanced : checkBalance atoms = .ok ()

theorem operandsOf_eq (name : String) (atoms : List Atom) :
    operandsOf name atoms =
      ((atoms.map toLine).filter (·.name == name)).map (·.operands) := by
  rw [operandsOf, List.filter_map, List.map_map]
  rfl

/-- The signatures of atoms that were read are those of the instruction set. -/
theorem signature_mem_of_decodeStream {bytes : Bytes} {atoms : List Atom}
    (h : decodeStream bytes = .ok atoms) : Everywhere (·.signature ∈ Signature.all) atoms :=
  (decodeStream_eq_ok_iff.mp h).everywhere fun hs _ _ => hs

/-- The name of an atom says what it does to scopes. -/
theorem effect_of_name {a : Atom} (ha : a.signature ∈ Signature.all) {effect : ScopeEffect}
    (h : (Signature.byName? a.name).map (·.effect) = some effect) : a.effect = effect := by
  rw [name, Signature.byName?_name ha] at h
  exact Option.some.inj h

/-- Atoms that leave scopes alone and carry no streams do not count for the balance. -/
theorem checkFrom_append_of_plain {opened : List Scope} {body rest : List Atom}
    (h : ∀ a ∈ body, a.effect = .none ∧ ∀ op ∈ a.operands, op.type ≠ .stream) :
    checkFrom opened (body ++ rest) = checkFrom opened rest := by
  induction body with
  | nil => rfl
  | cons a body ih =>
    obtain ⟨⟨heffect, hplain⟩, hbody⟩ := List.forall_mem_cons.mp h
    rw [List.cons_append, checkFrom_cons, heffect, ScopeEffect.apply, ok_bind,
      Operand.checkBalanceList_of_plain hplain, ok_bind, ih hbody]

end Atom

theorem Line.mem_of_mem_kept {l : Line} {op : Operand} (h : op ∈ l.kept.operands) :
    op ∈ l.operands := by
  unfold kept at h
  split at h
  · exact Operand.mem_of_mem_dropOmitted h
  · exact h

/-- Plain lines between the opener and the closer of a stream are one balanced stream. -/
theorem Atom.isStream_of_lines {atoms : List Atom} {lines : List Line}
    (hknown : ∀ a ∈ atoms, a.signature ∈ Signature.all)
    (hlines : atoms.map toLine = Line.opening :: (lines.map Line.kept ++ [Line.closing]))
    (hplain : ∀ l ∈ lines, l.IsPlain)
    (hscopeless : ∀ l ∈ lines, (Signature.byName? l.name).map (·.effect) = some .none) :
    IsStream atoms := by
  obtain ⟨opener, rest, rfl, hopening, hrest⟩ := List.map_eq_cons_iff.mp hlines
  obtain ⟨body, closers, rfl, hbody, hclosers⟩ := List.map_eq_append_iff.mp hrest
  obtain ⟨closer, none, rfl, hclosing, hnone⟩ := List.map_eq_cons_iff.mp hclosers
  obtain rfl := List.map_eq_nil_iff.mp hnone
  have hopen : opener.effect = .opens .stream :=
    effect_of_name (hknown _ (List.mem_cons_self ..)) (by
      rw [show opener.name = "uni_start_stream" from congrArg Line.name hopening]
      rfl)
  have hcloser : closer ∈ opener :: (body ++ [closer]) :=
    List.mem_cons_of_mem _ (List.mem_append_right _ (List.mem_singleton_self _))
  have hclose : closer.effect = .closes .stream :=
    effect_of_name (hknown _ hcloser) (by
      rw [show closer.name = "uni_end_stream" from congrArg Line.name hclosing]
      rfl)
  have hinside : ∀ a ∈ body, a.effect = .none ∧ ∀ op ∈ a.operands, op.type ≠ .stream := by
    intro a ha
    -- the atom stands for one of the lines
    have hmem : a.toLine ∈ lines.map Line.kept := hbody ▸ List.mem_map_of_mem ha
    obtain ⟨l, hl, heq⟩ := List.mem_map.mp hmem
    have hname : a.name = l.name := (congrArg Line.name heq).symm.trans l.name_kept
    have hops : l.kept.operands = a.operands := congrArg Line.operands heq
    refine ⟨effect_of_name (hknown a (List.mem_cons_of_mem _ (List.mem_append_left _ ha))) ?_, ?_⟩
    · rw [hname]
      exact hscopeless l hl
    · rw [← hops]
      exact fun op hop => hplain l hl op (Line.mem_of_mem_kept hop)
  have hlast : checkFrom [.stream] [closer] = .ok () := by
    rw [checkFrom_cons, hclose, show closer.operands = [] from congrArg Line.operands hclosing]
    rfl
  refine ⟨⟨opener, body, closer, rfl, hopen, hclose, fun a ha => (hinside a ha).1⟩, ?_⟩
  rw [checkBalance, checkFrom_cons, hopen,
    show opener.operands = [] from congrArg Line.operands hopening, ScopeEffect.apply, ok_bind,
    Operand.checkBalanceList, ok_bind, checkFrom_append_of_plain hinside, hlast]

-- ---------------------------------------------------------------------------
-- Scenes as they are read
-- ---------------------------------------------------------------------------

namespace Dispatch

/-- The id of the transfer that the dispatch is about. -/
def subject : Dispatch → UInt32
  | announcement id .. | picker id | statRequest id | authorization id | notice id _ | file id _ => id

/-- Chunks tell a client what a scene says: they are one message on one stream id that is not zero, and
what is read from them is one balanced stream, which names the transfer once and, if it announces a
file, the name and the size of the file. -/
structure IsTold (d : Dispatch) (chunks : List Chunk) : Prop where
  message : Chunk.AreMessage chunks
  stream : ∃ streamId : UInt16, streamId ≠ 0 ∧
    ∀ chunk ∈ chunks, chunk.token = .stream ∧ chunk.streamId = streamId
  read : ∃ atoms, Atom.decodeStream (Chunk.reassemble chunks) = .ok atoms ∧ Atom.IsStream atoms ∧
    atoms.map Atom.toLine = Line.opening :: (d.lines.map Line.kept ++ [Line.closing]) ∧
    Atom.operandsOf "xfer_set_id" atoms = [[.int d.subject]] ∧
    ∀ id filename size, d = .announcement id filename size →
      Atom.operandsOf "xfer_set_filename" atoms = [[.str filename]] ∧
      Atom.operandsOf "xfer_set_size" atoms = [[.int size]]

variable {limit : Nat} {chunks : List Chunk} {d : Dispatch}

/-- No line of a scene opens or closes a scope. -/
theorem effect_lines (d : Dispatch) :
    ∀ l ∈ d.lines, (Signature.byName? l.name).map (·.effect) = some .none := by
  cases d <;> simp only [lines, List.forall_mem_cons, List.not_mem_nil, false_imp_iff, implies_true,
    and_true]
  all_goals decide

end Dispatch

/-- The chunks of a scene travel on one stream id, and it is not zero. -/
theorem Scene.CarriedBy.exists_streamId {scene : Scene} {limit : Nat} {id : UInt32}
    {params : List (String × String)} {chunks : List Chunk}
    (h : scene.CarriedBy limit id params chunks) :
    ∃ streamId : UInt16, streamId ≠ 0 ∧ ∀ chunk ∈ chunks, chunk.streamId = streamId := by
  obtain ⟨c, after, h⟩ := h
  unfold Connection.sceneChunks at h
  dsimp only at h
  split at h
  · cases h
  · next script _ =>
    refine ⟨c.takeStreamId.2, ?_, Script.streamId_of_compile (congrArg Prod.snd h)⟩
    show (if c.nextStream = 0 then 1 else c.nextStream) ≠ 0
    split
    · decide
    · next hne => exact hne

namespace Dispatch

variable {limit : Nat} {chunks : List Chunk} {d : Dispatch}

theorem exists_streamId (h : d.CarriedBy limit chunks) (hscene : d.isScene = true) :
    ∃ streamId : UInt16, streamId ≠ 0 ∧ ∀ chunk ∈ chunks, chunk.streamId = streamId := by
  cases d with
  | file => cases hscene
  | announcement | picker | statRequest | authorization | notice =>
    exact Scene.CarriedBy.exists_streamId h

/-- A client reads from the chunks of a scene what the scene says. -/
theorem isTold_of_carriedBy (h : d.CarriedBy limit chunks) (hscene : d.isScene = true) :
    d.IsTold chunks := by
  obtain ⟨streamId, hne, hstream⟩ := exists_streamId h hscene
  obtain ⟨_, label, script, -, hcompile⟩ := build_of_carriedBy h hscene
  obtain ⟨atoms, hread, hlines⟩ := read_of_carriedBy h hscene
  have hknown : ∀ a ∈ atoms, a.signature ∈ Signature.all :=
    fun a ha => Atom.signature_mem_of_decodeStream hread a (.here ha)
  refine ⟨(message_of_scene h hscene).1, ⟨streamId, hne, fun chunk hmem =>
    ⟨Script.token_of_compile hcompile chunk hmem, hstream chunk hmem⟩⟩, atoms, hread,
    Atom.isStream_of_lines hknown hlines d.isPlain_lines d.effect_lines, hlines, ?_, ?_⟩
  · rw [Atom.operandsOf_eq, hlines]
    cases d with
    | file => cases hscene
    | announcement | picker | statRequest | authorization | notice => rfl
  · rintro id filename size rfl
    rw [Atom.operandsOf_eq, Atom.operandsOf_eq, hlines]
    exact ⟨rfl, rfl⟩

end Dispatch

-- ---------------------------------------------------------------------------
-- What operations say
-- ---------------------------------------------------------------------------

/-- Whether it is so what a scene says of a transfer: one that is begun or goes on is there after the
step, as it is said to be, and one that has ended was there before. -/
def Dispatch.IsTrue (before after : Connection) : Dispatch → Prop
  | announcement id filename size => ∃ a, after.transfers.download.active = some a ∧
      a.state.id = id ∧ a.state.filename = filename ∧ a.state.size = size.toNat
  | picker id | statRequest id | authorization id => after.Holds .upload id
  | notice id _ => ∃ direction, before.Holds direction id
  | file .. => True

/-- All that is said about the end of a transfer is one notice. -/
theorem Dispatch.eq_of_mem_notices {limit : Nat} {id : UInt32} {reason : String} {d : Dispatch}
    (h : d ∈ notices limit id reason) : d = .notice id reason := by
  rw [notices] at h
  split at h
  · exact List.mem_singleton.mp h
  · cases h

namespace Connection

/-- The notice that an error about an upload leads to, if it fails the upload. -/
def faultNotices (c : Connection) (limit : Nat) (error : TransferError) : List Dispatch :=
  match error.reason?, c.transfers.upload.active with
  | some reason, some a =>
    Dispatch.notices limit a.state.id ("Upload failed: " ++ reason.message)
  | _, _ => []

/-- A connection after a step that has sent its client the given scenes, and all of them are true. -/
def Tells (limit : Nat) (scenes : List Dispatch) (before after : Connection) : Prop :=
  ∃ ds, Dispatched limit ds before after ∧ ds.filter (·.isScene) = scenes ∧
    ∀ d ∈ scenes, d.IsTrue before after

namespace Tells

variable {limit : Nat} {d : Dispatch} {c before after : Connection}

theorem of_dispatched (h : Dispatched limit [] before after) : Tells limit [] before after :=
  ⟨[], h, rfl, List.forall_mem_nil _⟩

theorem single (h : Dispatched limit [d] before after) (hscene : d.isScene = true)
    (htrue : d.IsTrue before after) : Tells limit [d] before after := by
  refine ⟨[d], h, ?_, List.forall_mem_singleton.mpr htrue⟩
  rw [List.filter_singleton, hscene]
  rfl

theorem notices {id : UInt32} {reason : String} {direction : Direction}
    (h : Dispatched limit (Dispatch.notices limit id reason) before after)
    (hheld : before.Holds direction id) :
    Tells limit (Dispatch.notices limit id reason) before after := by
  refine ⟨_, h, List.filter_eq_self.mpr fun d hd => ?_, fun d hd => ?_⟩
  · rw [Dispatch.eq_of_mem_notices hd]
    rfl
  · rw [Dispatch.eq_of_mem_notices hd]
    exact ⟨direction, hheld⟩

/-- A step that only tells of what a sweep has left, after the sweep. -/
theorem of_sweep {limits : TransferLimits} {now : Nat} {scenes : List Dispatch}
    (h : Tells limits.framePayload scenes (c.sweep limits now).1 after) :
    Tells limits.framePayload ((c.sweep limits now).2.flatMap (·.notices limits.framePayload) ++ scenes)
      c after := by
  obtain ⟨ds, hds, hscenes, htrue⟩ := h
  -- what has expired was there
  have hexpired : ∀ d ∈ (c.sweep limits now).2.flatMap (·.notices limits.framePayload),
      ∃ direction id reason, d = .notice id reason ∧ c.Holds direction id := by
    intro d hd
    obtain ⟨state, hstate, hnotice⟩ := List.mem_flatMap.mp hd
    obtain ⟨direction, a, ha, hid, -⟩ :=
      any_expired_iff.mp (List.any_eq_true.mpr ⟨state, hstate, decide_eq_true rfl⟩)
    exact ⟨direction, state.id, state.farewell, Dispatch.eq_of_mem_notices hnotice, a, ha, hid⟩
  refine ⟨_, (c.dispatched_sweep limits now).trans hds, ?_, List.forall_mem_append.mpr ⟨?_, ?_⟩⟩
  · rw [List.filter_append, hscenes, List.filter_eq_self.mpr]
    intro d hd
    obtain ⟨-, id, reason, rfl, -⟩ := hexpired d hd
    rfl
  · intro d hd
    obtain ⟨direction, id, reason, rfl, hheld⟩ := hexpired d hd
    exact ⟨direction, hheld⟩
  · intro d hd
    have hd := htrue d hd
    cases d with
    | notice id reason =>
      obtain ⟨direction, a, ha, hid⟩ := hd
      exact ⟨direction, a, (active_of_sweep ha).1, hid⟩
    | announcement | picker | statRequest | authorization | file => exact hd

end Tells

/-- A scene that follows a message is sent if frames have room for a header. -/
theorem dispatched_follow_of_fitsFrames (c : Connection) {limit : Nat} {scene : Scene}
    {state : TransferState} {d : Dispatch} (hscene : scene = .uploadStat ∨ scene = .uploadAuthorize)
    (hframes : Script.FitsFrames limit)
    (hd : ∀ chunks, scene.CarriedBy limit state.id [] chunks → d.CarriedBy limit chunks) :
    Dispatched limit [d] c (c.follow limit scene state).1 := by
  have hok := c.follow_eq_ok state hscene hframes
  unfold follow at hok ⊢
  split at hok
  · next after chunks heq => exact c.dispatched_of_sceneChunks limit _ heq (hd chunks)
  · cases hok

end Connection

namespace Transfers

/-- The scene that follows a message about an upload which has moved it on. -/
def followUp (id : UInt32) : ClientMessage → List Dispatch
  | .uploadPicked .. => [.statRequest id]
  | .uploadStats .. => [.authorization id]
  | _ => []

namespace Operation

/-- The scenes that an operation sends after its sweep, by what the sweep has left and by the answer. -/
def scenes (limit : Nat) (swept : Connection) (op : Operation)
    (answer : Except TransferError (Option TransferState)) : List Dispatch :=
  match op, answer with
  | .initiateDownload .., .ok (some state) =>
    [.announcement state.id state.filename (UInt32.ofNat state.size)]
  | .initiateUpload, .ok (some state) => [.picker state.id]
  | .handle message, .ok (some state) =>
    if state.status.isTerminal then [] else followUp state.id message
  | .handle _, .error error => swept.faultNotices limit error
  | .cancel _, .ok (some state) => Dispatch.notices limit state.id "Cancelled by host"
  | _, _ => []

end Operation

section Replies

variable {service after : TransferService} {c final : Connection} {now : Nat}
  {message : ClientMessage} {result : Except TransferError TransferState}

/-- If an upload has moved on and a scene follows, then frames had room for it. -/
theorem fitsFrames_of_followUp {state : TransferState}
    (h : service.apply c now message = some (after, final, .ok state))
    (hbusy : state.status.isTerminal = false) {scene : Scene} (hscene : followUp? message = some scene) :
    Script.FitsFrames service.limits.framePayload := by
  have hfollow {c : Connection} {scene : Scene} {before : TransferState}
      (h : c.follow service.limits.framePayload scene before = (final, .ok state)) :
      Script.FitsFrames service.limits.framePayload := by
    unfold Connection.follow at h
    split at h
    · next heq => exact Connection.fitsFrames_of_sceneChunks heq
    · cases h
  cases message with
  | uploadPicked id path =>
    have h := (Prod.mk.inj (Option.some.inj h)).2
    unfold Connection.uploadPicked at h
    split at h
    · split at h
      · next hterminal =>
        cases h
        cases hbusy.symm.trans hterminal
      · exact hfollow h
    · next hrefused => exact absurd h (hrefused _ _)
  | uploadStats id size =>
    have h := (Prod.mk.inj (Option.some.inj h)).2
    unfold Connection.uploadStats at h
    split at h
    · exact hfollow h
    · next hrefused => exact absurd h (hrefused _ _)
  | signOn | downloadAck | downloadConfirm | cancel | uploadData | uploadEnd | other => cases hscene

theorem reason?_reword (expired : List TransferState) (error : TransferError) :
    (error.reword expired).reason? = error.reason? := by
  cases error with
  | unknownTransfer id =>
    rw [TransferError.reword]
    split <;> rfl
  | _ => rfl

/-- What a reply tells the client, and how it is answered. -/
theorem Reply.tells (h : Reply service c now message after final result)
    (hframes : ∀ state scene, result = .ok state → state.status.isTerminal = false →
      followUp? message = some scene → Script.FitsFrames service.limits.framePayload)
    (expired : List TransferState) :
    Connection.Tells service.limits.framePayload
      ((Operation.handle message).scenes service.limits.framePayload c
        ((result.mapError (·.reword expired)).map some)) c final := by
  -- an error that does not fail the upload says nothing
  have hsilent (error : TransferError) (hwhy : error.reason? = none)
      (hds : Connection.Dispatched service.limits.framePayload [] c final) :
      Connection.Tells service.limits.framePayload
        (c.faultNotices service.limits.framePayload (error.reword expired)) c final := by
    rw [Connection.faultNotices, reason?_reword, hwhy]
    exact .of_dispatched hds
  cases h with
  | @unknown id => exact hsilent (.unknownTransfer id) rfl (.of_pacer_eq rfl)
  | @unexpected _ a =>
    exact hsilent (.unexpectedState a.state.id a.state.status) rfl (.of_pacer_eq rfl)
  | @failed a reason error store _ htarget hwhy _ _ hsaid =>
    have hds := (c.setSlot .upload (c.transfers.upload.fail reason).1).dispatched_abort
      service.limits.framePayload a.state.id ("Upload failed: " ++ reason.message)
    rw [← hsaid] at hds
    have hactive : c.transfers.upload.active = some a := htarget.active
    show Connection.Tells _ (c.faultNotices _ (error.reword expired)) c final
    rw [Connection.faultNotices, reason?_reword, hwhy, hactive]
    exact .notices hds ⟨a, htarget.active, rfl⟩
  | ended htarget htransition hterminal =>
    show Connection.Tells _ (if _ then [] else _) c _
    rw [if_pos hterminal]
    exact .of_dispatched (.of_pacer_eq rfl)
  | @moved a next _ htarget hmove hnotified hsaid =>
    have hbusy := hmove.isTerminal_eq
    have hheld : final.Holds .upload next.state.id := by
      refine ⟨next, ?_, rfl⟩
      rw [hnotified.told.transfers]
      rfl
    show Connection.Tells _ (if _ then [] else _) c _
    rw [if_neg (Bool.eq_false_iff.mp hbusy)]
    cases hmove with
    | picked =>
      obtain rfl := hsaid
      refine .single ?_ rfl hheld
      exact Connection.dispatched_follow_of_fitsFrames _ (.inl rfl) (hframes _ _ rfl hbusy rfl)
        fun chunks hcarried => hcarried
    | sized =>
      obtain rfl := hsaid
      refine .single ?_ rfl hheld
      exact Connection.dispatched_follow_of_fitsFrames _ (.inr rfl) (hframes _ _ rfl hbusy rfl)
        fun chunks hcarried => hcarried
    | extended =>
      obtain rfl := hsaid
      exact .of_dispatched (.of_pacer_eq rfl)
  | unsaid error _ _ _ _ hquiet =>
    have hds : Connection.Dispatched service.limits.framePayload [] _ final := .of_queued hquiet
    exact hsilent (.scene error) rfl hds
  | @accepted a data streamId _ htarget hmessage hstatus hcargo hqueued =>
    subst hmessage
    have hcarried : (Dispatch.file a.state.id data).CarriedBy service.limits.framePayload
        (downloadChunks service.limits.framePayload streamId a.state.id data) := ⟨streamId, rfl⟩
    exact ⟨_, .single hcarried hqueued.pacer_eq, rfl, List.forall_mem_nil _⟩

end Replies

section Initiations

variable {service after : TransferService} {c final : Connection} {now : Nat}
  {direction : Direction} {status : TransferStatus} {scene : Scene} {params : List (String × String)}
  {filename : String} {size : Nat} {cargo : Cargo} {state : TransferState}

/-- A transfer that begins has its scene sent. -/
theorem dispatched_start
    (h : service.start c now direction status scene params filename size cargo =
      (after, final, .ok state)) {d : Dispatch}
    (hd : ∀ chunks, scene.CarriedBy service.limits.framePayload service.nextId params chunks →
      d.CarriedBy service.limits.framePayload chunks) :
    Connection.Dispatched service.limits.framePayload [d] c final := by
  unfold TransferService.start at h
  split at h
  · cases h
  · dsimp only [TransferService.takeId] at h
    split at h
    · cases h
    · next mid chunks heq =>
      cases h
      have hds := c.dispatched_of_sceneChunks service.limits.framePayload _ heq (hd chunks)
      exact hds

theorem tells_initiateDownload (service : TransferService) (c : Connection) (now : Nat)
    (filename : String) (data : Bytes) :
    Connection.Tells service.limits.framePayload
      ((Operation.initiateDownload filename data).scenes service.limits.framePayload
        (c.sweep service.limits now).1
        ((service.initiateDownload c now filename data).2.2.map some))
      (c.sweep service.limits now).1 (service.initiateDownload c now filename data).2.1 := by
  unfold TransferService.initiateDownload
  dsimp only
  split
  · exact .of_dispatched (.of_pacer_eq rfl)
  · split
    · exact .of_dispatched (.of_pacer_eq rfl)
    · next hfits =>
      have hsize := service.toNat_size (Nat.le_of_not_lt hfits)
      rcases service.start_cases (c.sweep service.limits now).1 now .download .awaitingAck
          .downloadAnnounce [("size", Text.number data.length), ("filename", filename)] filename
          data.length (.outgoing data) with
        ⟨after, final, error, h, -, hqueued⟩ | ⟨final, state, h, hstate, hnotified, -⟩
      · rw [h]
        exact .of_dispatched (.of_queued hqueued)
      · rw [h, hstate]
        refine .single (dispatched_start h fun chunks hcarried => ?_) rfl ?_
        · dsimp only [Dispatch.CarriedBy, TransferState.new]
          rw [hsize]
          exact hcarried
        · refine ⟨⟨state, .outgoing data⟩, ?_, ?_⟩
          · rw [hnotified.told.transfers]
            rfl
          · rw [hstate]
            exact ⟨rfl, rfl, hsize.symm⟩

theorem tells_initiateUpload (service : TransferService) (c : Connection) (now : Nat) :
    Connection.Tells service.limits.framePayload
      (Operation.initiateUpload.scenes service.limits.framePayload (c.sweep service.limits now).1
        ((service.initiateUpload c now).2.2.map some))
      (c.sweep service.limits now).1 (service.initiateUpload c now).2.1 := by
  unfold TransferService.initiateUpload
  dsimp only
  rcases service.start_cases (c.sweep service.limits now).1 now .upload .awaitingFilePick
      .uploadPicker [] "" 0 (.incoming []) with
    ⟨after, final, error, h, -, hqueued⟩ | ⟨final, state, h, hstate, hnotified, -⟩
  · rw [h]
    exact .of_dispatched (.of_queued hqueued)
  · rw [h]
    refine .single (dispatched_start h fun chunks hcarried => ?_) rfl ?_
    · rw [hstate]
      exact hcarried
    · refine ⟨⟨state, .incoming []⟩, ?_, rfl⟩
      rw [hnotified.told.transfers]
      rfl

end Initiations

theorem tells_cancelTransfer (service : TransferService) (c : Connection) (now : Nat)
    (direction : Direction) :
    Connection.Tells service.limits.framePayload
      ((Operation.cancel direction).scenes service.limits.framePayload (c.sweep service.limits now).1
        (.ok (c.cancelTransfer service.limits now direction).2))
      (c.sweep service.limits now).1 (c.cancelTransfer service.limits now direction).1 := by
  unfold Connection.cancelTransfer
  dsimp only
  generalize (c.sweep service.limits now).1 = swept
  cases hactive : (swept.transfers.slot direction).active with
  | none =>
    rw [Slot.finish, hactive]
    exact .of_dispatched (.of_pacer_eq rfl)
  | some a =>
    have hds := (swept.setSlot direction
      ((swept.transfers.slot direction).finish .cancelled).1).dispatched_abort
        service.limits.framePayload a.state.id "Cancelled by host"
    rw [Slot.finish_of_active hactive] at hds ⊢
    exact .notices hds ⟨a, hactive, rfl⟩

/-- After its sweep, an operation sends the scenes that its answer calls for, and they are true. -/
theorem Operation.tells {op : Operation} (hop : op.sweeps = true) (service : TransferService)
    (c : Connection) (now : Nat) :
    Connection.Tells service.limits.framePayload
      (op.scenes service.limits.framePayload (c.sweep service.limits now).1 (op.run service c now).2.2)
      (c.sweep service.limits now).1 (op.run service c now).2.1 := by
  cases op with
  | initiateDownload filename data => exact tells_initiateDownload service c now filename data
  | initiateUpload => exact tells_initiateUpload service c now
  | handle message =>
    rw [run]
    cases happly : service.apply (c.sweep service.limits now).1 now message with
    | none =>
      rw [TransferService.handle]
      dsimp only
      rw [happly]
      exact .of_dispatched (.of_pacer_eq rfl)
    | some applied =>
      obtain ⟨after, final, result⟩ := applied
      rw [service.handle_of_apply c now happly]
      refine (TransferService.reply_apply happly).tells ?_ _
      rintro state scene rfl hbusy hscene
      exact fitsFrames_of_followUp happly hbusy hscene
  | cancel direction => exact tells_cancelTransfer service c now direction
  | sweep | report => exact .of_dispatched (.of_pacer_eq rfl)
  | clearFailed | flush | close | send | receive | setRx => cases hop

/-- The chunks that an operation is given to queue. -/
def Operation.given : Operation → List Chunk
  | .send chunks => chunks
  | _ => []

/-- Operations that do not sweep queue only what they are given. -/
theorem Operation.queue_suffix {op : Operation} (hop : op.sweeps = false) (service : TransferService)
    {c : Connection} (hopen : c.pacer.closed = false) (now : Nat) :
    (op.run service c now).2.1.pacer.queue <:+ c.pacer.queue ++ op.given := by
  cases op with
  | initiateDownload | initiateUpload | handle | cancel | sweep | report => cases hop
  | send chunks =>
    show (c.pacer.enqueue chunks).queue <:+ _
    rw [Pacer.enqueue_of_open hopen]
    exact List.suffix_refl _
  | flush =>
    show _ <:+ c.pacer.queue ++ []
    rw [List.append_nil]
    exact Pacer.queue_drain_suffix c.pacer c.outbound c.pacer.burst
  | clearFailed | close | receive | setRx =>
    show c.pacer.queue <:+ c.pacer.queue ++ []
    rewrite [List.append_nil]
    exact List.suffix_refl _

/-- What a client of an open connection is told in a step that sends scenes.  A notice about every
transfer that the sweep has failed comes first, as far as it can be said, then the scene that the answer
calls for; other scenes are not sent, and no step of another kind sends any.  Each scene stands in the
queue as one message on a stream id of its own that is not zero, and is read as one balanced stream with
the id of the transfer, and the name and the size of a file that it announces; and the transfer is as the
scene says. -/
theorem Operation.scenes_told (op : Operation) (service : TransferService) {c : Connection}
    (hopen : c.pacer.closed = false) (now : Nat) :
    let limit := service.limits.framePayload
    let swept := c.sweep service.limits now
    let final := (op.run service c now).2.1
    let scenes := swept.2.flatMap (·.notices limit) ++
      op.scenes limit swept.1 (op.run service c now).2.2
    (op.sweeps = true → ∃ (ds : List Dispatch) (batches : List (List Chunk)),
      final.pacer.queue = c.pacer.queue ++ batches.flatten ∧
      List.Forall₂ (fun d chunks => d.isScene = true → d.IsTold chunks) ds batches ∧
      ds.filter (·.isScene) = scenes ∧ ∀ d ∈ scenes, d.IsTrue c final) ∧
    (op.sweeps = false → final.pacer.queue <:+ c.pacer.queue ++ op.given) := by
  intro limit swept final scenes
  refine ⟨fun hop => ?_, fun hop => op.queue_suffix hop service hopen now⟩
  obtain ⟨ds, ⟨batches, hcarried, hpacer⟩, hscenes, htrue⟩ := (tells hop service c now).of_sweep
  refine ⟨ds, batches, ?_, ?_, hscenes, htrue⟩
  · show (op.run service c now).2.1.pacer.queue = _
    rw [hpacer, Pacer.enqueue_of_open hopen]
  · exact hcarried.imp fun d chunks h hscene => Dispatch.isTold_of_carriedBy h hscene

/-- A download in a service with nothing under way: all that is sent is an announcement, from which the
client reads the id, the name and the size. -/
theorem Operation.scenes_told_short :
    let service : TransferService := ⟨⟨100, 1000, 256⟩, .memory .empty, 1⟩
    let c := Connection.new 1 "Ann" ⟨.mac, 1, true⟩ (.new 8) 4
    let op : Operation := .initiateDownload "a.txt" [104, 105]
    let announcement : Dispatch := .announcement 1 "a.txt" 2
    c.pacer.closed = false ∧ op.sweeps = true ∧ ∃ (ds : List Dispatch) (batches : List (List Chunk)),
      (op.run service c 0).2.1.pacer.queue = batches.flatten ∧
      List.Forall₂ (fun d chunks => d.isScene = true → d.IsTold chunks) ds batches ∧
      ds.filter (·.isScene) = [announcement] ∧ announcement.IsTrue c (op.run service c 0).2.1 := by
  intro service c op announcement
  have hrun : (op.run service c 0).2.2 = .ok (some { TransferState.new 1 .download "a.txt" 2 0 with
      status := .awaitingAck }) := by
    decide +kernel
  obtain ⟨ds, batches, hqueue, htold, hscenes, htrue⟩ := (op.scenes_told service (c := c) rfl 0).1 rfl
  rw [hrun] at hscenes htrue
  exact ⟨rfl, rfl, ds, batches, hqueue, htold, hscenes, htrue announcement (List.mem_singleton_self _)⟩

end Transfers

end Switchboard
