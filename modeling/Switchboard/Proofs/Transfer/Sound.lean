import Switchboard.Proofs.Transfer.Run

/-!
# What the slots hold

A slot is free or holds a transfer that is under way in its direction, with the bytes, sizes and names
that fit how far it has come.

Main result: `Transfers.slots_sound`, this holds of every connection in every run.
-/

namespace Switchboard

-- ---------------------------------------------------------------------------
-- Sound slots
-- ---------------------------------------------------------------------------

/-- A download that is under way: not yet accepted, or all of its file handed on. -/
structure ActiveTransfer.IsDownload (limits : TransferLimits) (a : ActiveTransfer) : Prop where
  direction : a.state.direction = .download
  unfailed : a.state.failure = none
  cargo : ∃ data, a.cargo = .outgoing data ∧ data.length = a.state.size
  fits : a.state.size ≤ min limits.maxFileSize (UInt32.size - 1)
  named : checkName a.state.filename = .ok ()
  phase : a.state.status = .awaitingAck ∧ a.state.offset = 0 ∨
    a.state.status = .streaming ∧ a.state.offset = a.state.size

/-- An upload that is under way: the client has yet to pick a file, or to tell its size, or to send
the rest of it. -/
structure ActiveTransfer.IsUpload (limits : TransferLimits) (a : ActiveTransfer) : Prop where
  direction : a.state.direction = .upload
  unfailed : a.state.failure = none
  cargo : ∃ latest, a.cargo = .incoming latest ∧ latest.length = a.state.offset
  phase : a.state.status = .awaitingFilePick ∧ a.state.size = 0 ∧ a.state.offset = 0 ∨
    a.state.status = .awaitingStats ∧ a.state.size = 0 ∧ a.state.offset = 0 ∧
      checkName a.state.filename = .ok () ∨
    a.state.status = .streaming ∧ a.state.offset ≤ a.state.size ∧
      a.state.size ≤ limits.maxFileSize ∧ checkName a.state.filename = .ok ()

/-- Slots whose transfers are under way, each in its direction, and not taken for each other. -/
structure TransferSlots.IsSound (limits : TransferLimits) (slots : TransferSlots) : Prop where
  download : ∀ a, slots.download.active = some a → a.IsDownload limits
  upload : ∀ a, slots.upload.active = some a → a.IsUpload limits
  distinct : ∀ d u, slots.download.active = some d → slots.upload.active = some u →
    d.state.id ≠ u.state.id

-- ---------------------------------------------------------------------------
-- Changes keep slots sound
-- ---------------------------------------------------------------------------

section Moves

variable {limits : TransferLimits} {now : Nat} {message : ClientMessage} {a next : ActiveTransfer}

namespace ActiveTransfer.IsUpload

theorem of_awaitingFilePick (h : a.IsUpload limits) (hstatus : a.state.status = .awaitingFilePick) :
    a.state.size = 0 ∧ a.state.offset = 0 := by
  rcases h.phase with ⟨-, hphase⟩ | ⟨hother, -⟩ | ⟨hother, -⟩
  · exact hphase
  · cases hstatus.symm.trans hother
  · cases hstatus.symm.trans hother

theorem of_awaitingStats (h : a.IsUpload limits) (hstatus : a.state.status = .awaitingStats) :
    a.state.size = 0 ∧ a.state.offset = 0 ∧ checkName a.state.filename = .ok () := by
  rcases h.phase with ⟨hother, -⟩ | ⟨-, hphase⟩ | ⟨hother, -⟩
  · cases hstatus.symm.trans hother
  · exact hphase
  · cases hstatus.symm.trans hother

theorem of_streaming (h : a.IsUpload limits) (hstatus : a.state.status = .streaming) :
    a.state.offset ≤ a.state.size ∧ a.state.size ≤ limits.maxFileSize ∧
      checkName a.state.filename = .ok () := by
  rcases h.phase with ⟨hother, -⟩ | ⟨hother, -⟩ | ⟨-, hphase⟩
  · cases hstatus.symm.trans hother
  · cases hstatus.symm.trans hother
  · exact hphase

end ActiveTransfer.IsUpload

/-- An upload that moves on stays under way. -/
theorem UploadMove.isUpload (h : UploadMove limits now message a next) (hsound : a.IsUpload limits) :
    next.IsUpload limits := by
  obtain ⟨latest, hcargo, hlength⟩ := hsound.cargo
  cases h with
  | picked hstatus hvalid =>
    -- nothing has been told or received before a file is picked
    obtain ⟨hsize, hoffset⟩ := hsound.of_awaitingFilePick hstatus
    exact ⟨hsound.direction, hsound.unfailed, ⟨latest, hcargo, hlength⟩,
      .inr (.inl ⟨rfl, hsize, hoffset, hvalid⟩)⟩
  | @sized _ size hstatus hfits =>
    obtain ⟨-, hoffset, hnamed⟩ := hsound.of_awaitingStats hstatus
    -- nothing has been received yet, so any size leaves room for it
    have hroom : a.state.offset ≤ size.toNat := by
      rw [hoffset]
      exact Nat.zero_le _
    exact ⟨hsound.direction, hsound.unfailed, ⟨latest, hcargo, hlength⟩,
      .inr (.inr ⟨rfl, hroom, hfits, hnamed⟩)⟩
  | @extended _ data hstatus hfits =>
    obtain ⟨-, hsize, hnamed⟩ := hsound.of_streaming hstatus
    refine ⟨hsound.direction, hsound.unfailed, ⟨data.reverseAux latest, ?_, ?_⟩,
      .inr (.inr ⟨hstatus, hfits, hsize, hnamed⟩)⟩
    · show a.cargo.extend data = _
      rw [hcargo]
      rfl
    -- the buffer grows by as much as the offset
    · show _ = a.state.offset + data.length
      rw [List.reverseAux_eq, List.length_append, List.length_reverse, hlength, Nat.add_comm]

theorem UploadMove.id_eq (h : UploadMove limits now message a next) :
    next.state.id = a.state.id := by
  cases h <;> rfl

end Moves

namespace Transfers

section Changes

variable {service after : TransferService} {now : Nat} {accepted : Option ClientMessage}
  {a : ActiveTransfer} {active final : Option ActiveTransfer}

theorem UploadChange.isUpload (h : UploadChange service after now accepted active final)
    (hsound : ∀ a, active = some a → a.IsUpload service.limits) :
    ∀ a, final = some a → a.IsUpload service.limits := by
  intro a ha
  cases h with
  | same => exact hsound a ha
  | ended => cases ha
  | begun =>
    cases ha
    exact ⟨rfl, rfl, ⟨[], rfl, rfl⟩, .inl ⟨rfl, rfl, rfl⟩⟩
  | moved move =>
    cases ha
    exact move.isUpload (hsound _ rfl)

theorem DownloadChange.isDownload (h : DownloadChange service after now active final)
    (hsound : ∀ a, active = some a → a.IsDownload service.limits) :
    ∀ a, final = some a → a.IsDownload service.limits := by
  intro a ha
  cases h with
  | same => exact hsound a ha
  | ended => cases ha
  | @begun filename data _ hvalid hfits =>
    cases ha
    exact ⟨rfl, rfl, ⟨data, rfl, rfl⟩, hfits, hvalid, .inl ⟨rfl, rfl⟩⟩
  | @acked before =>
    cases ha
    have hbefore := hsound before rfl
    exact ⟨hbefore.direction, hbefore.unfailed, hbefore.cargo, hbefore.fits, hbefore.named,
      .inr ⟨rfl, rfl⟩⟩
  | @touched before =>
    cases ha
    have hbefore := hsound before rfl
    exact ⟨hbefore.direction, hbefore.unfailed, hbefore.cargo, hbefore.fits, hbefore.named,
      hbefore.phase⟩

/-- A transfer in a slot was there before, or it has just been given its id. -/
theorem UploadChange.id_eq (h : UploadChange service after now accepted active final)
    (ha : final = some a) :
    (∃ before, active = some before ∧ a.state.id = before.state.id) ∨
      a.state.id = service.nextId ∧ after.nextId = service.nextId + 1 := by
  cases h with
  | same => exact .inl ⟨a, ha, rfl⟩
  | ended => cases ha
  | begun _ _ issued =>
    cases ha
    exact .inr ⟨rfl, issued⟩
  | moved move =>
    cases ha
    exact .inl ⟨_, rfl, move.id_eq⟩

theorem DownloadChange.id_eq (h : DownloadChange service after now active final)
    (ha : final = some a) :
    (∃ before, active = some before ∧ a.state.id = before.state.id) ∨
      a.state.id = service.nextId ∧ after.nextId = service.nextId + 1 := by
  cases h with
  | same => exact .inl ⟨a, ha, rfl⟩
  | ended => cases ha
  | begun _ _ _ issued =>
    cases ha
    exact .inr ⟨rfl, issued⟩
  | acked =>
    cases ha
    exact .inl ⟨_, rfl, rfl⟩
  | touched =>
    cases ha
    exact .inl ⟨_, rfl, rfl⟩

/-- An upload begins only if frames have room for a header. -/
theorem UploadChange.fitsFrames (h : UploadChange service after now accepted active final)
    (hframes : ∀ a, active = some a → Script.FitsFrames service.limits.framePayload)
    (ha : final = some a) : Script.FitsFrames service.limits.framePayload := by
  cases h with
  | same => exact hframes a ha
  | ended => cases ha
  | begun _ frames => exact frames
  | moved move => exact hframes _ rfl

end Changes

-- ---------------------------------------------------------------------------
-- Ids
-- ---------------------------------------------------------------------------

/-- The next number is another one, also where the numbers start again. -/
theorem ne_add_one (n : UInt32) : n ≠ n + 1 := by
  intro h
  have htoNat := congrArg UInt32.toNat h
  rw [UInt32.toNat_add] at htoNat
  have hlt := n.toNat_lt
  simp only [UInt32.toNat_one] at htoNat
  omega

namespace Operation

variable (op : Operation) (service : TransferService) (c : Connection) (now : Nat)

/-- Only an initiation changes the id of the next transfer, and it takes one. -/
theorem nextId_run :
    (op.run service c now).1.nextId = service.nextId ∨
      op.isInitiation = true ∧ (op.run service c now).1.nextId = service.nextId + 1 := by
  rcases op.service_run service c now with h | ⟨hop, h⟩ | ⟨id, store, -, h⟩
  · rw [h]
    exact .inl rfl
  · rw [h]
    exact .inr ⟨hop, rfl⟩
  · rw [h]
    exact .inl rfl

theorem limits_run : (op.run service c now).1.limits = service.limits := by
  rcases op.service_run service c now with h | ⟨-, h⟩ | ⟨id, store, -, h⟩ <;> rw [h]
  rfl

/-- No operation begins a transfer in both slots. -/
theorem one_begins {d u : ActiveTransfer}
    (hd : (op.run service c now).2.1.transfers.download.active = some d)
    (hu : (op.run service c now).2.1.transfers.upload.active = some u) :
    (∃ before, c.transfers.download.active = some before ∧ d.state.id = before.state.id) ∨
      ∃ before, c.transfers.upload.active = some before ∧ u.state.id = before.state.id := by
  cases op with
  | initiateDownload filename data =>
    have hmoved := service.movedIn_initiateDownload c now filename data
    have hu' : (c.sweep service.limits now).1.transfers.upload.active = some u := by
      rw [← hmoved.upload]
      exact hu
    -- only the download begins, so an upload that is there was there
    exact .inr ⟨u, Connection.active_before_sweep .upload hu', rfl⟩
  | initiateUpload =>
    have hmoved := service.movedIn_start (c.sweep service.limits now).1 now .upload
      .awaitingFilePick .uploadPicker [] "" 0 (.incoming [])
    have hd' : (c.sweep service.limits now).1.transfers.download.active = some d := by
      rw [← hmoved.download]
      exact hd
    -- only the upload begins, so a download that is there was there
    exact .inl ⟨d, Connection.active_before_sweep .download hd', rfl⟩
  | _ =>
    -- no id is taken, so neither transfer is new
    rcases (downloadChange _ service c now).id_eq hd with hold | ⟨-, hissued⟩
    · exact .inl hold
    · rcases nextId_run _ service c now with hsame | ⟨hop, -⟩
      · exact absurd (hsame.symm.trans hissued) (ne_add_one _)
      · cases hop

end Operation

-- ---------------------------------------------------------------------------
-- The invariant
-- ---------------------------------------------------------------------------

/-- Sound slots whose transfers have ids among the first `issued`; an upload began with room for
frames. -/
structure Held (limits : TransferLimits) (issued : Nat) (slots : TransferSlots) : Prop where
  sound : slots.IsSound limits
  frames : ∀ a, slots.upload.active = some a → Script.FitsFrames limits.framePayload
  downloadId : ∀ a, slots.download.active = some a → a.state.id.toNat ≤ issued
  uploadId : ∀ a, slots.upload.active = some a → a.state.id.toNat ≤ issued

namespace Held

/-- Free slots hold nothing that could be wrong. -/
theorem of_free {limits : TransferLimits} {slots : TransferSlots} (issued : Nat)
    (hdownload : slots.download.active = none) (hupload : slots.upload.active = none) :
    Held limits issued slots := by
  have hd (a : ActiveTransfer) : slots.download.active ≠ some a := by
    rw [hdownload]
    exact fun h => nomatch h
  have hu (a : ActiveTransfer) : slots.upload.active ≠ some a := by
    rw [hupload]
    exact fun h => nomatch h
  refine ⟨⟨?_, ?_, ?_⟩, ?_, ?_, ?_⟩
  · exact fun a ha => absurd ha (hd a)
  · exact fun a ha => absurd ha (hu a)
  · exact fun d u h _ => absurd h (hd d)
  · exact fun a ha => absurd ha (hu a)
  · exact fun a ha => absurd ha (hd a)
  · exact fun a ha => absurd ha (hu a)

theorem mono {limits : TransferLimits} {issued issued' : Nat} {slots : TransferSlots}
    (h : Held limits issued slots) (hle : issued ≤ issued') : Held limits issued' slots :=
  ⟨h.sound, h.frames, fun a ha => (h.downloadId a ha).trans hle,
    fun a ha => (h.uploadId a ha).trans hle⟩

end Held

/-- How many initiations may have happened after an operation. -/
def Operation.initiations (op : Operation) : Nat :=
  if op.isInitiation then 1 else 0

/-- An operation takes no id or the next one, which is larger than those that were issued. -/
theorem Operation.issued_run {service : TransferService} {op : Operation} {issued : Nat}
    (hnext : service.nextId.toNat = (issued + 1) % UInt32.size)
    (hroom : issued + op.initiations < UInt32.size) (c : Connection) (now : Nat) :
    ∃ issued', issued ≤ issued' ∧ issued' ≤ issued + op.initiations ∧
      (op.run service c now).1.nextId.toNat = (issued' + 1) % UInt32.size ∧
      ((op.run service c now).1.nextId = service.nextId + 1 →
        issued' = issued + 1 ∧ service.nextId.toNat = issued + 1) := by
  rcases op.nextId_run service c now with hsame | ⟨hop, hissued⟩
  · refine ⟨issued, Nat.le_refl _, Nat.le_add_right _ _, by rw [hsame, hnext], ?_⟩
    exact fun hissued => absurd (hsame.symm.trans hissued) (ne_add_one _)
  -- the next id was taken, which is still below the bound
  · have hinitiations : op.initiations = 1 := if_pos hop
    rw [hinitiations] at hroom ⊢
    refine ⟨issued + 1, Nat.le_succ _, Nat.le_refl _, ?_, fun _ => ⟨rfl, ?_⟩⟩
    · rw [hissued, UInt32.toNat_add, hnext]
      exact Nat.mod_add_mod (issued + 1) (UInt32.size) 1
    · rw [hnext, Nat.mod_eq_of_lt hroom]

/-- An operation keeps the invariant, and counts the ids it takes. -/
theorem Held.run {service : TransferService} {c : Connection} {issued : Nat} {op : Operation}
    (h : Held service.limits issued c.transfers)
    (hnext : service.nextId.toNat = (issued + 1) % UInt32.size)
    (hroom : issued + op.initiations < UInt32.size) (now : Nat) :
    ∃ issued', issued ≤ issued' ∧ issued' ≤ issued + op.initiations ∧
      (op.run service c now).1.nextId.toNat = (issued' + 1) % UInt32.size ∧
      Held service.limits issued' (op.run service c now).2.1.transfers := by
  have hdownload := op.downloadChange service c now
  have hupload := op.uploadChange service c now h.frames
  obtain ⟨issued', hle, hcount, hnext', hfresh⟩ := Operation.issued_run hnext hroom c now
  refine ⟨issued', hle, hcount, hnext', ?_, ?_, ?_, ?_⟩
  · refine ⟨hdownload.isDownload h.sound.download, hupload.isUpload h.sound.upload, ?_⟩
    -- a new id is larger than those that were there
    intro d u hd hu heq
    rcases hdownload.id_eq hd with ⟨d', hd', hdid⟩ | ⟨hdnew, hissued⟩
    · rcases hupload.id_eq hu with ⟨u', hu', huid⟩ | ⟨hunew, hissued⟩
      · exact h.sound.distinct d' u' hd' hu' (by rw [← hdid, ← huid, heq])
      · have hold := h.downloadId d' hd'
        rw [← hdid, heq, hunew, (hfresh hissued).2] at hold
        omega
    · rcases op.one_begins service c now hd hu with ⟨d', hd', hdid⟩ | ⟨u', hu', huid⟩
      · have hold := h.downloadId d' hd'
        rw [← hdid, hdnew, (hfresh hissued).2] at hold
        omega
      · have hold := h.uploadId u' hu'
        rw [← huid, ← heq, hdnew, (hfresh hissued).2] at hold
        omega
  · exact fun a ha => hupload.fitsFrames h.frames ha
  · intro a ha
    rcases hdownload.id_eq ha with ⟨before, hbefore, hid⟩ | ⟨hnew, hissued⟩
    · rw [hid]
      exact (h.downloadId before hbefore).trans hle
    · obtain ⟨rfl, hid⟩ := hfresh hissued
      rw [hnew, hid]
  · intro a ha
    rcases hupload.id_eq ha with ⟨before, hbefore, hid⟩ | ⟨hnew, hissued⟩
    · rw [hid]
      exact (h.uploadId before hbefore).trans hle
    · obtain ⟨rfl, hid⟩ := hfresh hissued
      rw [hnew, hid]

namespace World

/-- A world in which every connection keeps the invariant, and the next id follows those that were
issued. -/
structure IsHeld (limits : TransferLimits) (issued : Nat) (w : World) : Prop where
  limitsKept : w.server.transfers.limits = limits
  nextId : w.server.transfers.nextId.toNat = (issued + 1) % UInt32.size
  connections : ∀ c ∈ w.server.connections, Held limits issued c.transfers

variable {limits : TransferLimits} {issued : Nat} {w : World}

theorem isHeld_start (links : LinkLimits) (limits : TransferLimits) (directory : Directory)
    (store : Store) : (start links limits directory store).IsHeld limits 0 :=
  ⟨rfl, rfl, fun _ hc => nomatch hc⟩

/-- How many initiations a step is. -/
theorem countP_singleton_operate (position : Nat) (op : Operation) :
    [Step.operate position op].countP Step.isInitiation = op.initiations := by
  rw [List.countP_singleton]
  rfl

/-- A step keeps the invariant, and counts the ids it takes. -/
theorem IsHeld.step (h : w.IsHeld limits issued) {s : Step}
    (hroom : issued + [s].countP Step.isInitiation < UInt32.size) :
    ∃ issued', issued' ≤ issued + [s].countP Step.isInitiation ∧
      (w.step s).IsHeld limits issued' := by
  cases s with
  | connect screenName profile outbound burst =>
    refine ⟨issued, Nat.le_add_right _ _, h.limitsKept, h.nextId, ?_⟩
    intro c hc
    rcases List.mem_append.mp hc with hold | hnew
    · exact h.connections c hold
    · rw [List.mem_singleton.mp hnew]
      exact .of_free issued rfl rfl
  | advance milliseconds =>
    exact ⟨issued, Nat.le_add_right _ _, h.limitsKept, h.nextId, h.connections⟩
  | operate position op =>
    rw [countP_singleton_operate] at hroom ⊢
    show ∃ issued', _ ∧ (w.operate position op).IsHeld limits issued'
    cases hposition : w.server.connections[position]? with
    | none =>
      rw [operate_of_none hposition]
      exact ⟨issued, Nat.le_add_right _ _, h⟩
    | some c =>
      have hc := h.connections c (List.mem_of_getElem? hposition)
      rw [← h.limitsKept] at hc
      obtain ⟨issued', hle, hcount, hnext, hheld⟩ := hc.run h.nextId hroom w.now
      rw [operate_of_some hposition]
      refine ⟨issued', hcount, ?_, hnext, ?_⟩
      · exact (op.limits_run w.server.transfers c w.now).trans h.limitsKept
      · intro other hother
        -- the other connections are as they were, and ids issued meanwhile do no harm
        rcases List.mem_or_eq_of_mem_set hother with hold | rfl
        · exact (h.connections other hold).mono hle
        · rw [← h.limitsKept]
          exact hheld

/-- So does a run. -/
theorem IsHeld.run (h : w.IsHeld limits issued) (steps : List Step)
    (hroom : issued + steps.countP Step.isInitiation < UInt32.size) :
    ∃ issued', (w.run steps).IsHeld limits issued' := by
  induction steps generalizing w issued with
  | nil => exact ⟨issued, h⟩
  | cons s rest ih =>
    have hsplit : (s :: rest).countP Step.isInitiation =
        [s].countP Step.isInitiation + rest.countP Step.isInitiation := by
      rw [← List.countP_append]
      rfl
    rw [hsplit] at hroom
    obtain ⟨issued', hcount, hstep⟩ := h.step (s := s) (by omega)
    exact ih hstep (by omega)

end World

-- ---------------------------------------------------------------------------
-- Every run
-- ---------------------------------------------------------------------------

/-- In every run of fewer than 2³² initiations, on any number of connections and with any limits and
files, the slots of every connection are sound. -/
theorem slots_sound (links : LinkLimits) (limits : TransferLimits) (directory : Directory)
    (store : Store) (steps : List Step) (hcount : steps.countP Step.isInitiation < UInt32.size)
    (c : Connection)
    (hc : c ∈ ((World.start links limits directory store).run steps).server.connections) :
    c.transfers.IsSound limits := by
  have hstart := World.isHeld_start links limits directory store
  obtain ⟨issued, hheld⟩ := hstart.run steps (by rwa [Nat.zero_add])
  exact (hheld.connections c hc).sound

/-- A client with a transfer under way in either direction. -/
theorem slots_sound_both :
    let steps : List Step := [.connect "Ann" ⟨.mac, 1, true⟩ (.new 8) 4,
      .operate 0 (.initiateDownload "notes.txt" [1, 2, 3]), .operate 0 .initiateUpload]
    let limits : TransferLimits := ⟨100, 1000, 256⟩
    let w := (World.start ⟨4, 8⟩ limits (.ofNames []) (.memory .empty)).run steps
    steps.countP Step.isInitiation < UInt32.size ∧
      ∃ c ∈ w.server.connections, c.transfers.download.active.isSome ∧
        c.transfers.upload.active.isSome ∧ c.transfers.IsSound limits := by
  intro steps limits w
  have hcount : steps.countP Step.isInitiation < UInt32.size := by decide
  obtain ⟨c, hc, hdownload, hupload⟩ : ∃ c ∈ w.server.connections,
      c.transfers.download.active.isSome ∧ c.transfers.upload.active.isSome := by
    decide +kernel
  exact ⟨hcount, c, hc, hdownload, hupload,
    slots_sound ⟨4, 8⟩ limits (.ofNames []) (.memory .empty) steps hcount c hc⟩

end Transfers

end Switchboard
