import Switchboard.Proofs.Transfer.Trail

/-!
# The files of uploads

The only step that changes files is the one in which a client says that its upload is complete.  If the
client is told so, the file is what the client has sent, piece by piece, and no other file changes, save
that on disk a stored file with the name of the temporary file is lost.

Main results:

* `Transfers.World.store_step`: a step changes the store by the one write that it makes.
* `Transfers.upload_integrity`: what is written, and what becomes of the other files.
* `Transfers.upload_destroys_other`: an upload that destroys another file of its client.
-/

namespace Switchboard.Transfers

namespace World

/-- The write that a step makes, if it makes one. -/
def write? (w : World) : Step → Option (FileKey × Bytes)
  | .operate i op => w.server.connections[i]?.bind fun c => op.write? w.server.transfers c w.now
  | _ => none

/-- The step is the end of an upload, and is answered with the completed transfer. -/
structure Completes (w : World) (s : Step) (i : Nat) (id : UInt32) (state : TransferState) : Prop where
  step : s = .operate i (.handle (.uploadEnd id))
  answered : (w.step s).log = w.log ++ [⟨i, .uploadEnd id, .ok (some state)⟩]
  completed : state.status = .completed

/-- The upload that completes on a connection: it is what was accepted there last, it has the size
that was told, and it is written into the store under its own name and nowhere else. -/
structure Stores (limits : TransferLimits) (w : World) (i : Nat) (id : UInt32)
    (state : TransferState) (c : Connection) (r : Received) (after : Store) : Prop where
  connection : w.server.connections[i]? = some c
  accepted : ∃ earlier, w.accepted i = earlier ++ r.messages id
  valid : checkName (baseName r.picked) = .ok ()
  id : state.id = id
  named : state.filename = baseName r.picked
  length : r.data.length = r.size.toNat
  size : state.size = r.size.toNat
  offset : state.offset = r.size.toNat
  fits : r.size.toNat ≤ limits.maxFileSize
  written : w.server.transfers.store.IsWritten (r.key c.identity) r.data after

variable {limits : TransferLimits} {w : World} {s : Step}

/-- A step changes the store by the one write that it makes, if it makes one. -/
theorem store_step (w : World) (s : Step) :
    (w.step s).server.transfers.store = w.server.transfers.store.written (w.write? s) := by
  cases s with
  | connect screenName profile outbound burst => rfl
  | advance milliseconds => rfl
  | operate i op =>
    show (w.operate i op).server.transfers.store = _
    cases hconnection : w.server.connections[i]? with
    | none =>
      rw [operate_of_none hconnection, write?, hconnection]
      rfl
    | some c =>
      rw [operate_of_some hconnection, write?, hconnection]
      exact op.store_run w.server.transfers c w.now

/-- The end of an upload is answered in the log. -/
theorem log_uploadEnd {i : Nat} {c : Connection} (h : w.server.connections[i]? = some c)
    (id : UInt32) : (w.step (.operate i (.handle (.uploadEnd id)))).log =
      w.log ++ [⟨i, .uploadEnd id, (w.server.transfers.handle c w.now (.uploadEnd id)).2.2⟩] := by
  show (w.operate i (.handle (.uploadEnd id))).log = _
  rw [operate_of_some h]
  rfl

/-- A step that completes an upload is one on a connection, where it gives the answer. -/
theorem Completes.answer {i : Nat} {id : UInt32} {state : TransferState}
    (h : w.Completes s i id state) : ∃ c, w.server.connections[i]? = some c ∧
      (w.server.transfers.handle c w.now (.uploadEnd id)).2.2 = .ok (some state) := by
  obtain ⟨rfl, hanswered, -⟩ := h
  cases hconnection : w.server.connections[i]? with
  | none =>
    -- nobody is connected there, and nothing was added to the log
    change (w.operate i (.handle (.uploadEnd id))).log = _ at hanswered
    rw [operate_of_none hconnection] at hanswered
    have hlength := congrArg List.length hanswered
    rw [List.length_append, List.length_singleton] at hlength
    omega
  | some c =>
    rw [log_uploadEnd hconnection] at hanswered
    have hlast := List.append_cancel_left hanswered
    exact ⟨c, rfl, congrArg Exchange.answer (List.cons.inj hlast).1⟩

/-- An upload that is completed is stored. -/
theorem IsTraced.stores (h : w.IsTraced limits) {i : Nat} {id : UInt32} {state : TransferState}
    (hcompletes : w.Completes s i id state) : ∃ c r,
      w.write? s = some (r.key c.identity, r.data) ∧
      Stores limits w i id state c r (w.step s).server.transfers.store := by
  obtain ⟨c, hconnection, hanswer⟩ := hcompletes.answer
  obtain ⟨rfl, -, -⟩ := hcompletes
  rcases handle_uploadEnd w.server.transfers c w.now id with ⟨error, herror⟩ |
    ⟨a, key, data, after, hactive, hmade, hwrite, hok⟩
  · rw [hanswer] at herror
    cases herror
  obtain rfl : state = { a.state with status := .completed } := by
    rw [hanswer] at hok
    cases hok
    rfl
  obtain ⟨a', latest, hend, hactive', hcargo, hstatus, hcomplete, rfl, rfl⟩ :=
    Operation.of_write? hmade
  obtain rfl : a = a' := Option.some.inj (hactive.symm.trans hactive')
  obtain rfl : id = a.state.id := by
    cases hend
    rfl
  -- the upload in the slot agrees with what was accepted on its connection
  have htraced := h.uploads i c hconnection a hactive
  obtain ⟨earlier, r, haccepted, hreceived, hnamed, hsized⟩ := htraced.trail.received hstatus
  obtain ⟨-, hfits, hvalid⟩ := htraced.sound.of_streaming hstatus
  obtain rfl : latest = r.data.reverse := by
    rw [hcargo] at hreceived
    exact Cargo.incoming.inj hreceived
  -- the buffer is as long as the offset says, which has reached the size
  have hlength : r.data.length = r.size.toNat := by
    obtain ⟨buffer, hbuffer, hoffset⟩ := htraced.sound.cargo
    rw [hcargo] at hbuffer
    cases hbuffer
    rw [List.length_reverse] at hoffset
    rw [hoffset, hcomplete, hsized]
  rw [List.reverse_reverse, hnamed] at hwrite hmade
  have hmade' : w.write? (.operate i (.handle (.uploadEnd a.state.id))) =
      some (r.key c.identity, r.data) := by
    rw [write?, hconnection]
    exact hmade
  refine ⟨c, r, hmade', hconnection, ⟨earlier, haccepted⟩, hnamed ▸ hvalid, rfl, hnamed, hlength,
    hsized, hcomplete.trans hsized, hsized ▸ hfits, ?_⟩
  have hwritten := Store.isWritten_of_write h.rooted hwrite
  rw [store_step, hmade', Store.written]
  show w.server.transfers.store.IsWritten _ _
    (w.server.transfers.store.write ⟨uploadScope, c.identity, baseName r.picked⟩ r.data).1
  rw [hwrite]
  exact hwritten

/-- The write of a step that completes no upload fails. -/
theorem write_fails {key : FileKey} {data : Bytes}
    (hother : ∀ i id state, ¬w.Completes s i id state) (hmade : w.write? s = some (key, data)) :
    ∃ error, w.server.transfers.store.write key data =
      ((w.step s).server.transfers.store, .error error) := by
  rw [store_step, hmade, Store.written]
  cases hwrite : w.server.transfers.store.write key data with
  | mk after result =>
    cases result with
    | error error => exact ⟨error, rfl⟩
    | ok _ =>
      -- a write that succeeds is answered with a completed upload
      cases s with
      | connect => cases hmade
      | advance => cases hmade
      | operate i op =>
        rw [write?, Option.bind_eq_some_iff] at hmade
        obtain ⟨c, hconnection, hmade⟩ := hmade
        obtain ⟨a, -, rfl, -⟩ := Operation.of_write? hmade
        obtain ⟨state, hcompleted, hanswer⟩ := handle_of_write hmade hwrite
        refine absurd ⟨rfl, ?_, hcompleted⟩ (hother i a.state.id state)
        rw [log_uploadEnd hconnection, hanswer]

end World

/-- After every run, on any number of connections and with any files: a step that completes an upload
writes the file that its client has sent, and spares the others.  Every other step that makes no write
leaves the store, and if it makes one, the write fails and spares all files; so the store is left if it
is left by that write. -/
theorem upload_integrity (links : LinkLimits) (limits : TransferLimits) (directory : Directory)
    (store : Store) (hstore : store.IsRooted) (steps : List Step) (s : Step) :
    let w := (World.start links limits directory store).run steps
    let before := w.server.transfers.store
    let after := (w.step s).server.transfers.store
    (∀ i id state, w.Completes s i id state → ∃ c r,
      w.write? s = some (r.key c.identity, r.data) ∧ w.Stores limits i id state c r after) ∧
    ((∀ i id state, ¬w.Completes s i id state) →
      (w.write? s = none → after = before) ∧
      (∀ key data, w.write? s = some (key, data) →
        (∃ error, before.write key data = (after, .error error)) ∧
          ∀ other, before.Spares key after other) ∧
      ((∀ key data error, w.write? s = some (key, data) →
          (before.write key data).2 = .error error → (before.write key data).1 = before) →
        after = before)) := by
  intro w before after
  have htraced : w.IsTraced limits :=
    (World.isTraced_start links limits directory hstore).run steps
  have hunwritten (hnone : w.write? s = none) : after = before := by
    have hstep := w.store_step s
    rwa [hnone] at hstep
  refine ⟨fun i id state hcompletes => htraced.stores hcompletes, fun hother =>
    ⟨hunwritten, fun key data hmade => ?_, fun hfail => ?_⟩⟩
  · obtain ⟨error, hwrite⟩ := World.write_fails hother hmade
    exact ⟨⟨error, hwrite⟩, Store.spares_of_write_error htraced.rooted hwrite⟩
  · cases hmade : w.write? s with
    | none => exact hunwritten hmade
    | some write =>
      obtain ⟨error, hwrite⟩ := World.write_fails hother hmade
      have hsame := hfail write.1 write.2 error hmade (congrArg Prod.snd hwrite)
      exact (congrArg Prod.fst hwrite).symm.trans hsame

/-- A client is asked for a file, and sends it up to its end. -/
def sending (id : UInt32) (r : Received) : List Step :=
  .operate 0 .initiateUpload :: (r.messages id).map fun message => .operate 0 (.handle message)

/-- The client says that the file is complete. -/
def ending (id : UInt32) : Step := .operate 0 (.handle (.uploadEnd id))

/-- A server with one client that does some things. -/
def server (store : Store) (steps : List Step) : World :=
  (World.start ⟨4, 8⟩ ⟨100, 1000, 256⟩ (.ofNames []) store).run
    (.connect "Ann" ⟨.mac, 1, true⟩ (.new 8) 4 :: steps)

/-- A file of three bytes, which come in two pieces. -/
def notes : List Step := sending 1 ⟨"Disk:Folder:notes.txt", 3, [[1, 2], [3]]⟩

theorem completes_notes : (server (.memory .empty) notes).Completes (ending 1) 0 1
    { TransferState.new 1 .upload "notes.txt" 3 0 with offset := 3, status := .completed } :=
  ⟨rfl, by decide +kernel, rfl⟩

/-- A store that refuses changes refuses the file. -/
theorem refuses_notes : ∀ i id state,
    ¬(server (.memory .emptyReadOnly) notes).Completes (ending 1) i id state := by
  rintro i id state ⟨hstep, hanswered, -⟩
  cases hstep
  have hrefused : ((server (.memory .emptyReadOnly) notes).step (ending 1)).log =
      (server (.memory .emptyReadOnly) notes).log ++
        [⟨0, .uploadEnd 1, .error (.storage .readOnly)⟩] := by
    decide +kernel
  have hlast := List.append_cancel_left (hrefused.symm.trans hanswered)
  cases (List.cons.inj hlast).1

/-- The file is stored when the client says that it is complete; where it is refused, or where no end
was said, the files are left. -/
theorem upload_integrity_notes :
    let storing := server (.memory .empty) notes
    let refusing := server (.memory .emptyReadOnly) notes
    (Store.memory .empty).IsRooted ∧ (Store.memory .emptyReadOnly).IsRooted ∧
    (∃ state c r, storing.Completes (ending 1) 0 1 state ∧
      storing.write? (ending 1) = some (r.key c.identity, r.data) ∧
      storing.Stores ⟨100, 1000, 256⟩ 0 1 state c r
        (storing.step (ending 1)).server.transfers.store) ∧
    (∀ i id state, ¬refusing.Completes (ending 1) i id state) ∧
    refusing.write? (ending 1) = some (⟨"uploads", "ann", "notes.txt"⟩, [1, 2, 3]) ∧
    (∃ error, refusing.server.transfers.store.write ⟨"uploads", "ann", "notes.txt"⟩ [1, 2, 3] =
      ((refusing.step (ending 1)).server.transfers.store, .error error)) ∧
    (refusing.step (ending 1)).server.transfers.store = refusing.server.transfers.store ∧
    refusing.write? (.advance 1) = none ∧
    (refusing.step (.advance 1)).server.transfers.store = refusing.server.transfers.store := by
  intro storing refusing
  have hmemory : (Store.memory .empty).IsRooted := trivial
  have hreadOnly : (Store.memory .emptyReadOnly).IsRooted := trivial
  obtain ⟨c, r, hmade, hstores⟩ := (upload_integrity ⟨4, 8⟩ ⟨100, 1000, 256⟩ (.ofNames [])
    (.memory .empty) hmemory (.connect "Ann" ⟨.mac, 1, true⟩ (.new 8) 4 :: notes) (ending 1)).1 0 1 _
    completes_notes
  have hrefusing := upload_integrity ⟨4, 8⟩ ⟨100, 1000, 256⟩ (.ofNames [])
    (.memory .emptyReadOnly) hreadOnly (.connect "Ann" ⟨.mac, 1, true⟩ (.new 8) 4 :: notes)
  have hwrite : (server (.memory .emptyReadOnly) notes).write? (ending 1) =
      some (⟨"uploads", "ann", "notes.txt"⟩, [1, 2, 3]) := by
    decide +kernel
  obtain ⟨-, hfails, hleft⟩ := (hrefusing (ending 1)).2 refuses_notes
  -- a write that is refused leaves a memory
  have hsame := hleft fun key data error hmade _ => by
    cases hwrite.symm.trans hmade
    decide +kernel
  have hidle := ((hrefusing (.advance 1)).2 fun _ _ _ h => nomatch h.step).1 rfl
  exact ⟨hmemory, hreadOnly, ⟨_, c, r, completes_notes, hmade, hstores⟩, refuses_notes, hwrite,
    (hfails _ _ hwrite).1, hsame, rfl, hidle⟩

/-- On disk, a client that has stored a file under a temporary name loses it with the next upload. -/
theorem upload_destroys_other :
    let w := server (.disk ⟨.empty, 7⟩)
      (sending 1 ⟨".tmp-7-a", 1, [[1]]⟩ ++ [ending 1] ++ sending 2 ⟨"a", 1, [[2]]⟩)
    let after := (w.step (ending 2)).server.transfers.store
    let other : FileKey := ⟨"uploads", "ann", ".tmp-7-a"⟩
    (Store.disk ⟨.empty, 7⟩).IsRooted ∧ other.check = .ok () ∧
      w.Completes (ending 2) 0 2
        { TransferState.new 2 .upload "a" 1 0 with offset := 1, status := .completed } ∧
      w.write? (ending 2) = some (⟨"uploads", "ann", "a"⟩, [2]) ∧
      w.server.transfers.store.read other = .ok [1] ∧
      after.read ⟨"uploads", "ann", "a"⟩ = .ok [2] ∧
      after.read other = .error (.notFound "uploads/ann/.tmp-7-a") :=
  ⟨FileTree.isRooted_empty, by decide +kernel, ⟨rfl, by decide +kernel, rfl⟩, by decide +kernel,
    by decide +kernel, by decide +kernel, by decide +kernel⟩

end Switchboard.Transfers
