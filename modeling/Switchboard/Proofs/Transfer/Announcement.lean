import Switchboard.Proofs.Dispatch.Operation
import Switchboard.Proofs.Pacer
import Switchboard.Proofs.Storage.Store
import Switchboard.Proofs.Transfer.Initiation

/-!
# Announcing downloads

The announcement of a download says the name of the file twice: by itself, and in a status text behind
another word.  Both fields hold as much text as a name may have, so there is no room for the word in
front of a name that is almost as long as names can be.  A download of such a file is refused.

Main results:

* `Scene.script_announce`: the announcement, or the fault in its status text.
* `TransferService.initiateDownload_of_storable`: a download into a free slot begins, and is announced
  with its name and size, exactly if the status text has room for the name.
-/

namespace Switchboard

-- ---------------------------------------------------------------------------
-- Atoms with a text
-- ---------------------------------------------------------------------------

/-- An atom whose only operand is a text can be built if the text fits the field. -/
theorem Atom.make_text {s : Signature} {limit : ℕ} (hname : Signature.byName? s.name = some s)
    (hfields : s.fields = [.text limit]) (hrequired : s.required = 1) (text : String) :
    make s.name [.str text] =
      if text.utf8ByteSize ≤ limit then .ok (.mk s [.str text] 0)
      else .error (.format (.textTooLong s.name text.utf8ByteSize limit)) := by
  have hdrop : Operand.dropOmitted s.required [.str text] = [.str text] := by
    rw [hrequired]
    rfl
  have hcheck : s.check [.str text] =
      if text.utf8ByteSize ≤ limit then .ok ()
      else .error (.textTooLong s.name text.utf8ByteSize limit) := by
    rw [Signature.check, hfields, hrequired, if_neg (by simp), Signature.checkFields,
      FieldKind.check]
    split <;> rfl
  rw [make, hname]
  dsimp only
  rw [hdrop, hcheck]
  by_cases hfits : text.utf8ByteSize ≤ limit
  · rw [if_pos hfits, if_pos hfits]
  · rw [if_neg hfits, if_neg hfits]

/-- Such an atom is an ordinary one. -/
theorem Atom.isSimple_text {s : Signature} {limit : ℕ} (hname : Signature.byName? s.name = some s)
    (hfields : s.fields = [.text limit]) (hrequired : s.required = 1) {text : String}
    (htext : text.utf8ByteSize ≤ limit) (hlimit : limit ≤ maxData) :
    (Atom.mk s [.str text] 0).IsSimple := by
  have hmake := make_text hname hfields hrequired text
  rw [if_pos htext] at hmake
  refine ⟨⟨s.name, [.str text], hmake⟩, ?_, ?_⟩
  · exact List.forall_mem_singleton.mpr nofun
  · rw [FitsLength, dataLength, hfields]
    show text.utf8ByteSize + 0 ≤ maxData
    omega

-- ---------------------------------------------------------------------------
-- The scene
-- ---------------------------------------------------------------------------

namespace Scene

/-- The atom that names the file of a transfer. -/
def setFilename (filename : String) : Atom :=
  .mk (.plain "xfer_set_filename" .xfer 1 [Signature.title]) [.str filename] 0

/-- The atom that says how large the file is. -/
def setSize (size : UInt32) : Atom :=
  .mk (.plain "xfer_set_size" .xfer 2 [.dword]) [.int size] 0

/-- The atom that says what is going on. -/
def setStatus (text : String) : Atom :=
  .mk (.plain "xfer_set_status_text" .xfer 8 [Signature.title]) [.str text] 0

/-- The atom that starts a download. -/
def invokeDownload : Atom :=
  .mk (.plain "xfer_invoke_download" .xfer 3 []) [] 0

/-- What an announcement says in the status text. -/
def receiving (filename : String) : String :=
  "Receiving " ++ filename

/-- The atoms of an announcement. -/
def announced (id : UInt32) (filename : String) (size : UInt32) : List Atom :=
  [setId id, setFilename filename, setSize size, setStatus (receiving filename), invokeDownload,
    goOn]

theorem utf8ByteSize_receiving (filename : String) :
    (receiving filename).utf8ByteSize = filename.utf8ByteSize + 10 := by
  have hword : "Receiving ".utf8ByteSize = 10 := by decide
  rw [receiving, String.utf8ByteSize_append, hword, Nat.add_comm]

theorem make_setFilename (filename : String) :
    Atom.make "xfer_set_filename" [.str filename] =
      if filename.utf8ByteSize ≤ 255 then .ok (setFilename filename)
      else .error (.format (.textTooLong "xfer_set_filename" filename.utf8ByteSize 255)) :=
  Atom.make_text (s := .plain "xfer_set_filename" .xfer 1 [Signature.title]) rfl rfl rfl filename

theorem make_setStatus (text : String) :
    Atom.make "xfer_set_status_text" [.str text] =
      if text.utf8ByteSize ≤ 255 then .ok (setStatus text)
      else .error (.format (.textTooLong "xfer_set_status_text" text.utf8ByteSize 255)) :=
  Atom.make_text (s := .plain "xfer_set_status_text" .xfer 8 [Signature.title]) rfl rfl rfl text

variable {filename : String} (screenName : String) (id size : UInt32)

theorem isSimple_announced (h : filename.utf8ByteSize ≤ 245) :
    ∀ a ∈ announced id filename size, a.IsSimple := by
  have hmax : 255 ≤ Atom.maxData := by decide
  have hfilename : (setFilename filename).IsSimple :=
    Atom.isSimple_text rfl rfl rfl (by omega) hmax
  have hstatus : (setStatus (receiving filename)).IsSimple := by
    have hsize := utf8ByteSize_receiving filename
    exact Atom.isSimple_text rfl rfl rfl (by omega) hmax
  have hsize : (setSize size).IsSimple := by
    refine ⟨⟨"xfer_set_size", [.int size], rfl⟩, List.forall_mem_singleton.mpr nofun, ?_⟩
    show 4 + 0 ≤ Atom.maxData
    decide
  have hinvoke : invokeDownload.IsSimple :=
    ⟨⟨"xfer_invoke_download", [], rfl⟩, (fun _ hop => nomatch hop), Nat.zero_le _⟩
  simp only [announced, List.forall_mem_cons, List.not_mem_nil, false_imp_iff, implies_true,
    and_true]
  exact ⟨isSimple_setId id, hfilename, hsize, hstatus, hinvoke, isSimple_goOn⟩

/-- An announcement is built if the status text has room for the name, behind its first word. -/
theorem script_announce (h : filename.utf8ByteSize ≤ 255) :
    downloadAnnounce.script ⟨screenName, [("size", Text.number size.toNat), ("filename", filename)] ++
        [("xfer_id", Text.number id.toNat)]⟩ =
      if filename.utf8ByteSize ≤ 245 then .ok (.ofAtoms (announced id filename size))
      else .error (.format (.atom
        (.textTooLong "xfer_set_status_text" (filename.utf8ByteSize + 10) 255))) := by
  have hfilename := make_setFilename filename
  have hstatus := make_setStatus (receiving filename)
  rw [if_pos h] at hfilename
  rw [utf8ByteSize_receiving] at hstatus
  rw [announce_script]
  by_cases hfits : filename.utf8ByteSize ≤ 245
  · rw [if_pos (by omega)] at hstatus
    rw [if_pos hfits]
    have hmakes : List.Forall₂ Line.Makes (Dispatch.announcement id filename size).lines
        (announced id filename size) :=
      .cons rfl (.cons hfilename (.cons rfl (.cons hstatus (.cons rfl (.cons rfl .nil)))))
    have hsimple := isSimple_announced id size hfits
    refine Builder.build_of_makes hmakes (fun a ha => ⟨?_, (hsimple a ha).plain⟩) []
    simp only [announced, List.mem_cons, List.not_mem_nil, or_false] at ha
    rcases ha with rfl | rfl | rfl | rfl | rfl | rfl <;> rfl
  · rw [if_neg (by omega)] at hstatus
    rw [if_neg hfits]
    have hmakes : List.Forall₂ Line.Makes
        [⟨"xfer_set_id", [.int id]⟩, ⟨"xfer_set_filename", [.str filename]⟩,
          ⟨"xfer_set_size", [.int size]⟩]
        [setId id, setFilename filename, setSize size] :=
      .cons rfl (.cons hfilename (.cons rfl .nil))
    have hplain : ∀ a ∈ [setId id, setFilename filename, setSize size],
        a.effect = .none ∧ a.IsPlain := by
      simp only [List.forall_mem_cons, List.not_mem_nil, false_imp_iff, implies_true, and_true]
      refine ⟨⟨rfl, ?_⟩, ⟨rfl, ?_⟩, rfl, ?_⟩ <;>
        exact List.forall_mem_singleton.mpr OperandType.noConfusion
    let status : Line := ⟨"xfer_set_status_text", [.str (receiving filename)]⟩
    exact Builder.build_of_makes_of_error (l := status) hmakes hplain hstatus []

end Scene

-- ---------------------------------------------------------------------------
-- Downloads
-- ---------------------------------------------------------------------------

/-- What a client reads of the announcement of a download: the id of the transfer, the name and the size
of the file, and what to do. -/
def Scene.announcement (id : UInt32) (filename : String) (size : UInt32) : List Line :=
  [⟨"uni_start_stream", []⟩, ⟨"xfer_set_id", [.int id]⟩, ⟨"xfer_set_filename", [.str filename]⟩,
    ⟨"xfer_set_size", [.int size]⟩, ⟨"xfer_set_status_text", [.str (receiving filename)]⟩,
    ⟨"xfer_invoke_download", []⟩, ⟨"uni_wait_off", []⟩, ⟨"uni_end_stream", []⟩]

namespace Connection

variable (c : Connection) (limit : ℕ) {filename : String} (id size : UInt32)

/-- An announcement is given chunks if the status text has room for the name. -/
theorem sceneChunks_announce (hframes : Script.FitsFrames limit) (h : filename.utf8ByteSize ≤ 245) :
    ∃ after chunks, c.sceneChunks limit .downloadAnnounce id
        [("size", Text.number size.toNat), ("filename", filename)] = (after, .ok chunks) ∧
      ∃ read, Atom.decodeStream (Chunk.reassemble chunks) = .ok read ∧
        read.map Atom.toLine = Scene.announcement id filename size := by
  have hscript := Scene.script_announce c.screenName id size (h.trans (by decide : 245 ≤ 255))
  rw [if_pos h] at hscript
  obtain ⟨chunks, hchunks⟩ := sceneChunks_eq_ok hscript fun streamId label =>
    Script.succeeds_compile_ofAtoms (Scene.isSimple_announced id size h) hframes streamId label
  have hscene : c.sceneChunks limit .downloadAnnounce id
      [("size", Text.number size.toNat), ("filename", filename)] = (_, .ok chunks) :=
    Prod.ext rfl hchunks
  have hcarried : (Dispatch.announcement id filename size).CarriedBy limit chunks := ⟨c, _, hscene⟩
  obtain ⟨read, hread, hlines⟩ := Dispatch.read_of_carriedBy hcarried rfl
  exact ⟨_, chunks, hscene, read, hread, hlines.trans rfl⟩

/-- Otherwise the status text is at fault. -/
theorem sceneChunks_announce_of_long (hlong : 245 < filename.utf8ByteSize)
    (h : filename.utf8ByteSize ≤ 255) :
    c.sceneChunks limit .downloadAnnounce id
        [("size", Text.number size.toNat), ("filename", filename)] =
      (c, .error (.format (.atom
        (.textTooLong "xfer_set_status_text" (filename.utf8ByteSize + 10) 255)))) := by
  have hscript := Scene.script_announce c.screenName id size h
  rw [if_neg (Nat.not_le_of_lt hlong)] at hscript
  unfold sceneChunks
  dsimp only
  rw [hscript]

end Connection

namespace TransferService

section Storable

variable (service : TransferService) {c : Connection} (now : ℕ) {filename : String} {data : Bytes}

/-- A download of a file that can be stored is announced at once, unless its slot is taken. -/
theorem initiateDownload_eq (hfree : c.transfers.download.active = none)
    (hname : checkName filename = .ok ())
    (hsize : data.length ≤ min service.limits.maxFileSize (UInt32.size - 1)) :
    service.initiateDownload c now filename data =
      match (c.sweep service.limits now).1.sceneChunks service.limits.framePayload .downloadAnnounce
          service.nextId [("size", Text.number data.length), ("filename", filename)] with
      | (after, .error error) => (service.takeId.1, after, .error (.scene error))
      | (after, .ok chunks) =>
        let state := { TransferState.new service.nextId .download filename data.length now with
          status := .awaitingAck }
        let slot := { after.transfers.download with active := some ⟨state, .outgoing data⟩ }
        (service.takeId.1, (after.setSlot .download slot).send chunks, .ok state) := by
  have hslot : ((c.sweep service.limits now).1.transfers.slot .download).active = none :=
    (c.active_sweep_or service.limits now .download).elim (fun h => h.trans hfree) fun h => h
  unfold initiateDownload
  dsimp only
  rw [hname]
  dsimp only
  rw [if_neg (Nat.not_lt_of_le hsize), start, hslot]
  dsimp only [takeId]
  generalize (c.sweep service.limits now).1.sceneChunks service.limits.framePayload .downloadAnnounce
    service.nextId [("size", Text.number data.length), ("filename", filename)] = built
  obtain ⟨after, chunks | error⟩ := built <;> rfl

/-- The size of a file that may be downloaded is counted in 32 bits. -/
theorem toNat_size (hsize : data.length ≤ min service.limits.maxFileSize (UInt32.size - 1)) :
    (UInt32.ofNat data.length).toNat = data.length := by
  have hmax : UInt32.size - 1 < UInt32.size := by decide
  exact UInt32.toNat_ofNat_of_lt' ((hsize.trans (Nat.min_le_right ..)).trans_lt hmax)

/-- A name that leaves no room for the first word of the status text is refused. -/
theorem initiateDownload_of_long (hfree : c.transfers.download.active = none)
    (hname : checkName filename = .ok ())
    (hsize : data.length ≤ min service.limits.maxFileSize (UInt32.size - 1))
    (hlong : 245 < filename.utf8ByteSize) :
    service.initiateDownload c now filename data =
      (service.takeId.1, (c.sweep service.limits now).1, .error (.scene (.format (.atom
        (.textTooLong "xfer_set_status_text" (filename.utf8ByteSize + 10) 255))))) := by
  have hscene := (c.sweep service.limits now).1.sceneChunks_announce_of_long service.limits.framePayload
    service.nextId (UInt32.ofNat data.length) hlong (length_le_of_checkName hname)
  rw [service.toNat_size hsize] at hscene
  rw [service.initiateDownload_eq now hfree hname hsize, hscene]

/-- A download of a file that can be stored, into a free slot of an open connection, waits for the client
to acknowledge it and is announced with its name and size, if the status text has room for the name behind
its first word.  If it has not, the download is refused, for no other reason than that. -/
theorem initiateDownload_of_storable (hopen : c.pacer.closed = false)
    (hfree : c.transfers.download.active = none) (hframes : 8 ≤ service.limits.framePayload)
    (hname : checkName filename = .ok ())
    (hsize : data.length ≤ min service.limits.maxFileSize (UInt32.size - 1)) :
    (filename.utf8ByteSize ≤ 245 →
      ∃ final state size chunks read,
        service.initiateDownload c now filename data = (service.takeId.1, final, .ok state) ∧
        state = { TransferState.new service.nextId .download filename data.length now with
          status := .awaitingAck } ∧
        final.pacer.queue = (c.sweep service.limits now).1.pacer.queue ++ chunks ∧
        Atom.decodeStream (Chunk.reassemble chunks) = .ok read ∧
        read.map Atom.toLine = Scene.announcement service.nextId filename size ∧
        size.toNat = data.length) ∧
    (245 < filename.utf8ByteSize →
      service.initiateDownload c now filename data =
        (service.takeId.1, (c.sweep service.limits now).1, .error (.scene (.format (.atom
          (.textTooLong "xfer_set_status_text" (filename.utf8ByteSize + 10) 255)))))) := by
  refine ⟨fun hfits => ?_, service.initiateDownload_of_long now hfree hname hsize⟩
  obtain ⟨after, chunks, hscene, read, hread, hlines⟩ :=
    (c.sweep service.limits now).1.sceneChunks_announce _ service.nextId (UInt32.ofNat data.length)
      hframes hfits
  rw [service.toNat_size hsize] at hscene
  have hqueued := (c.sweep service.limits now).1.queued_sceneChunks service.limits.framePayload
    .downloadAnnounce service.nextId [("size", Text.number data.length), ("filename", filename)]
  rw [hscene] at hqueued
  have hpacer : after.pacer = (c.sweep service.limits now).1.pacer := by
    rw [hqueued.pacer_eq, Pacer.enqueue_nil]
  have hclosed : (c.sweep service.limits now).1.pacer.closed = false := by
    obtain ⟨queue, nextStream, hswept⟩ := (c.notified_sweep service.limits now).told
    rw [hswept]
    exact hopen
  have hbegun := service.initiateDownload_eq now hfree hname hsize
  rw [hscene] at hbegun
  refine ⟨_, _, UInt32.ofNat data.length, chunks, read, hbegun, rfl, ?_, hread, hlines,
    service.toNat_size hsize⟩
  show (after.pacer.enqueue chunks).queue = _
  rw [hpacer, Pacer.enqueue_of_open hclosed]

end Storable

/-- A short name, in a service with nothing under way: the download begins. -/
theorem initiateDownload_of_storable_short :
    let service : TransferService := ⟨⟨100, 1000, 256⟩, .memory .empty, 1⟩
    let c := Connection.new 1 "Ann" ⟨.mac, 1, true⟩ (.new 8) 4
    let data : Bytes := [104, 105]
    c.pacer.closed = false ∧ c.transfers.download.active = none ∧
      8 ≤ service.limits.framePayload ∧ checkName "a.txt" = .ok () ∧
      ∃ final state, service.initiateDownload c 0 "a.txt" data =
        (service.takeId.1, final, .ok state) ∧ state.status = .awaitingAck := by
  intro service c data
  have hname : checkName "a.txt" = .ok () := by decide +kernel
  have hframes : 8 ≤ service.limits.framePayload := by decide
  have hsize : data.length ≤ min service.limits.maxFileSize (UInt32.size - 1) := by decide
  obtain ⟨final, state, -, -, -, h, rfl, -⟩ :=
    (service.initiateDownload_of_storable 0 (c := c) rfl rfl hframes hname hsize).1 (by decide)
  exact ⟨rfl, rfl, hframes, hname, final, _, h, rfl⟩

/-- A name of 246 bytes can be stored.  A download under this name is refused, for its status text. -/
theorem initiateDownload_refuses_storable :
    let service : TransferService := ⟨⟨100, 1000, 256⟩, .memory .empty, 1⟩
    let c := Connection.new 1 "Ann" ⟨.mac, 1, true⟩ (.new 8) 4
    let data : Bytes := [104, 105]
    let name := String.ofList (List.replicate 246 'a')
    c.pacer.closed = false ∧ c.transfers.download.active = none ∧ checkName name = .ok () ∧
      ∃ error, (service.initiateDownload c 0 name data).2.2 = .error (.scene error) := by
  intro service c data name
  have hname : checkName name = .ok () := checkName_replicate (by decide) (by decide)
  have hlong : 245 < name.utf8ByteSize := by
    rw [utf8ByteSize_replicate]
    decide
  have hsize : data.length ≤ min service.limits.maxFileSize (UInt32.size - 1) := by decide
  have hrefused := service.initiateDownload_of_long 0 (c := c) rfl hname hsize hlong
  exact ⟨rfl, rfl, hname, _, by rw [hrefused]⟩

end TransferService

end Switchboard
