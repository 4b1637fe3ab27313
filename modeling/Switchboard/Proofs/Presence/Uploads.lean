import Switchboard.Proofs.Directory
import Switchboard.Proofs.Presence.Run
import Switchboard.Proofs.Storage.Confinement
import Switchboard.Proofs.Transfer.Trail

/-!
# Where uploads go

Whatever the clients of a server do, its files on disk change in one way only: an upload is stored in
the directory of the client that has sent it, under the last name of the path that the client has
picked.  The directory is named after the identity under which the client was admitted.

Main results:

* `Presence.World.IsServing.stores_step`: what one step does to the files.
* `Presence.uploads_stay_in_own_directory`: no name leads out of its directory.
-/

namespace Switchboard

open Transfers (Operation Trail)

-- ---------------------------------------------------------------------------
-- One connection
-- ---------------------------------------------------------------------------

namespace Connection

/-- What is known of the connection of a client that was admitted: under which name, and where the name
of the file comes from that it is sending. -/
structure IsServed (names : List String) (limits : TransferLimits) (c : Connection) : Prop where
  admitted : ∃ requested, (Directory.ofNames names).lookup requested = some c.screenName ∧
    c.identity = identityOf requested
  uploads : ∀ a, c.transfers.upload.active = some a →
    Script.FitsFrames limits.framePayload ∧ ∃ accepted, Trail a accepted

variable {names : List String} {limits : TransferLimits} {c after : Connection}

theorem IsServed.of_continues (h : c.IsServed names limits) (hcontinues : c.Continues after)
    (htransfers : after.transfers = c.transfers) : after.IsServed names limits where
  admitted := by
    rw [hcontinues.screenName_eq, hcontinues.identity_eq]
    exact h.admitted
  uploads := by
    rw [htransfers]
    exact h.uploads

theorem IsServed.close (h : c.IsServed names limits) : c.close.IsServed names limits where
  admitted := h.admitted
  uploads a ha := by
    rw [show c.close.transfers.upload.active = none from
      c.transfers.upload.active_finish .cancelled] at ha
    cases ha

/-- A client that is admitted has no transfers yet. -/
theorem isServed_greeted {server : Server} {requested screenName : String} (link : Link)
    (outbound : Channel) (rx : UInt8)
    (h : (Directory.ofNames names).lookup requested = some screenName) :
    (Link.greeted server.framePayload
      (Link.newcomer server link outbound rx screenName)).IsServed names limits := by
  have htold := Link.told_greeted server.framePayload (Link.newcomer server link outbound rx screenName)
  have hnew : (Link.newcomer server link outbound rx screenName).IsServed names limits :=
    ⟨⟨requested, h, Directory.identityOf_of_lookup h⟩, fun _ ha => nomatch ha⟩
  exact hnew.of_continues htold.continues htold.transfers

variable {service : TransferService} (now : Nat)

theorem IsServed.run (h : c.IsServed names limits) (hlimits : service.limits = limits)
    (op : Operation) : (op.run service c now).2.1.IsServed names limits := by
  subst hlimits
  have hframes := fun a ha => (h.uploads a ha).1
  have hchange := op.uploadChange service c now hframes
  refine ⟨?_, fun a ha => ⟨hchange.fitsFrames hframes ha, ?_⟩⟩
  · rcases op.continues_or_close service c now with hcontinues | hclosed
    · rw [hcontinues.screenName_eq, hcontinues.identity_eq]
      exact h.admitted
    · rw [hclosed]
      exact h.admitted
  -- a transfer that was under way has a trail, and a change makes it longer at most
  · cases hactive : c.transfers.upload.active with
    | none =>
      rw [hactive] at hchange
      have htrail : ∀ b, none = some b → Trail b [] := fun _ h => nomatch h
      exact ⟨_, hchange.trail htrail a ha⟩
    | some before =>
      obtain ⟨accepted, htrail⟩ := (h.uploads before hactive).2
      rw [hactive] at hchange
      exact ⟨_, hchange.trail (fun _ h => Option.some.inj h ▸ htrail) a ha⟩

/-- An operation leaves the files, or it writes one in the directory of the client, under a name from a
path that was picked. -/
theorem IsServed.store_run (h : c.IsServed names limits) (op : Operation) :
    (op.run service c now).1.store = service.store ∨ ∃ picked data,
      (op.run service c now).1.store =
        (service.store.write ⟨uploadScope, c.identity, baseName picked⟩ data).1 := by
  rw [op.store_run service c now]
  cases hwrite : op.write? service c now with
  | none => exact .inl rfl
  | some write =>
    obtain ⟨key, data⟩ := write
    obtain ⟨a, latest, -, hactive, -, hstatus, -, rfl, -⟩ := Transfers.Operation.of_write? hwrite
    -- the name is from the path that was picked for the upload
    obtain ⟨accepted, htrail⟩ := (h.uploads a hactive).2
    obtain ⟨-, r, -, -, hnamed, -⟩ := htrail.received hstatus
    rw [hnamed]
    exact .inr ⟨r.picked, data, rfl⟩

end Connection

namespace Presence

namespace World

variable {w after : World} {names : List String} {limits : TransferLimits}

-- ---------------------------------------------------------------------------
-- One step
-- ---------------------------------------------------------------------------

/-- A world in which all clients have been admitted and send files under names that they have picked. -/
structure IsServing (names : List String) (limits : TransferLimits) (w : World) : Prop where
  placed : w.IsPlaced
  directory : w.server.directory = .ofNames names
  limitsKept : w.server.transfers.limits = limits
  connections : ∀ c ∈ w.server.connections, c.IsServed names limits

/-- What a step does to the files: nothing, or a client stores an upload. -/
def Stores (w after : World) : Prop :=
  after.server.transfers.store = w.server.transfers.store ∨
    ∃ c ∈ w.server.connections, ∃ picked data, after.server.transfers.store =
      (w.server.transfers.store.write ⟨uploadScope, c.identity, baseName picked⟩ data).1

/-- One connection may have moved on, and what all connections share for their transfers. -/
theorem IsServing.of_put (h : w.IsServing names limits) {p : Nat} {c : Connection}
    {transfers : TransferService} (hplaced : after.IsPlaced)
    (hserver : after.server = { w.server with transfers }.put p c)
    (hlimits : transfers.limits = limits) (hc : c.IsServed names limits) :
    after.IsServing names limits := by
  refine ⟨hplaced, ?_, ?_, fun other hother => ?_⟩
  · rw [hserver]
    exact h.directory
  · rw [hserver]
    exact hlimits
  · rw [hserver] at hother
    rcases List.mem_or_eq_of_mem_set hother with hold | rfl
    · exact h.connections other hold
    · exact hc

/-- An operation on a connection, as it was found or with the number of a frame noted. -/
theorem IsServing.of_operation (h : w.IsServing names limits) {p : Nat} {c : Connection}
    (hplaced : after.IsPlaced) (hc : c.IsServed names limits)
    (hthere : ∃ found ∈ w.server.connections, found.identity = c.identity) (op : Operation)
    (hserver : after.server =
      { w.server with transfers := (op.run w.server.transfers c w.now).1 }.put p
        (op.run w.server.transfers c w.now).2.1) :
    after.IsServing names limits ∧ Stores w after := by
  have hlimits : (op.run w.server.transfers c w.now).1.limits = limits :=
    (op.limits_run w.server.transfers c w.now).trans h.limitsKept
  refine ⟨h.of_put hplaced hserver hlimits (hc.run w.now h.limitsKept op), ?_⟩
  have hstore : after.server.transfers.store = (op.run w.server.transfers c w.now).1.store := by
    rw [hserver]
    rfl
  obtain ⟨found, hfound, hidentity⟩ := hthere
  rw [Stores, hstore]
  refine (hc.store_run w.now op).imp_right ?_
  rintro ⟨picked, data, hwrite⟩
  exact ⟨found, hfound, picked, data, hidentity ▸ hwrite⟩

theorem IsServing.operate (h : w.IsServing names limits) (p : Nat) (op : Operation) :
    (w.operate p op).IsServing names limits ∧ Stores w (w.operate p op) := by
  cases hc : w.server.connections[p]? with
  | none =>
    rw [World.operate, hc]
    exact ⟨h, .inl rfl⟩
  | some c =>
    have hmem := List.mem_of_getElem? hc
    have hserver : (w.operate p op).server =
        { w.server with transfers := (op.run w.server.transfers c w.now).1 }.put p
          (op.run w.server.transfers c w.now).2.1 := by
      rw [operate_of_some hc]
    exact h.of_operation (h.placed.of_move (move_operate p op)) (h.connections c hmem)
      ⟨c, hmem, rfl⟩ op hserver

theorem IsServing.frame (h : w.IsServing names limits) (l : Nat) (f : Frame) :
    (w.frame l f).IsServing names limits ∧ Stores w (w.frame l f) := by
  have hplaced := h.placed.of_move (move_frame h.placed l f)
  cases hup : w.isUp l with
  | false =>
    rw [frame_of_not_isUp hup]
    exact ⟨h, .inl rfl⟩
  | true =>
    obtain ⟨link, hline⟩ := exists_of_isUp hup
    have hserver : (w.frame l f).server = (Link.onFrame w.server link w.now f).1 := by
      rw [frame_of_line hline]
    cases hlink : link.connection? with
    | some p =>
      have hp := h.placed.lines l p ((connectionOf?_of_line hline).trans hlink)
      have hmem := List.getElem_mem hp
      obtain ⟨noted, transfers, after, hcontinues, htransfers, htaken, htook, -⟩ :=
        Link.exists_noted_of_onFrame w.now f hlink (List.getElem?_eq_getElem hp)
      have hnoted := (h.connections _ hmem).of_continues hcontinues htransfers
      rw [htook] at hserver
      rcases htaken with ⟨rfl, rfl⟩ | ⟨message, rfl, rfl⟩
      · exact ⟨h.of_put hplaced hserver h.limitsKept hnoted, .inl (by rw [hserver]; rfl)⟩
      · exact h.of_operation hplaced hnoted ⟨_, hmem, hcontinues.identity_eq.symm⟩
          (.handle message) hserver
    | none =>
      cases hadmitted : f.signOn?.bind w.server.directory.lookup with
      | none =>
        obtain ⟨hsame, -⟩ := Link.onFrame_of_refused w.server w.now hlink hadmitted
        rw [hsame] at hserver
        exact ⟨⟨hplaced, by rw [hserver, h.directory], by rw [hserver, h.limitsKept],
          by rw [hserver]; exact h.connections⟩, .inl (by rw [hserver])⟩
      | some screenName =>
        obtain ⟨requested, -, hlookup⟩ := Option.bind_eq_some_iff.mp hadmitted
        rw [h.directory] at hlookup
        obtain ⟨outbound, hframe⟩ := exists_frame_of_admitted hline h.placed hlink hadmitted
        rw [hframe] at hplaced ⊢
        refine ⟨⟨hplaced, h.directory, h.limitsKept, ?_⟩, .inl rfl⟩
        -- one of the connections may have been closed, and the newcomer is new
        refine List.forall_mem_append.mpr ⟨fun c hc => ?_, List.forall_mem_singleton.mpr
          (Connection.isServed_greeted link outbound f.tx hlookup)⟩
        obtain ⟨p, hp⟩ := List.getElem?_of_mem hc
        rw [Server.getElem?_evicting] at hp
        split at hp
        · obtain ⟨before, hbefore, rfl⟩ := Option.map_eq_some_iff.mp hp
          exact (h.connections before (List.mem_of_getElem? hbefore)).close
        · exact h.connections c (List.mem_of_getElem? hp)

theorem IsServing.tearDown (h : w.IsServing names limits) (l : Nat) :
    (w.tearDown l).IsServing names limits ∧ Stores w (w.tearDown l) := by
  have hplaced := h.placed.of_move (move_tearDown h.placed l)
  cases hup : w.isUp l with
  | false =>
    rw [tearDown_of_not_isUp hup]
    exact ⟨h, .inl rfl⟩
  | true =>
    obtain ⟨link, hline⟩ := exists_of_isUp hup
    rw [tearDown_of_line hline] at hplaced ⊢
    cases hlink : link.connection? with
    | none =>
      rw [Link.teardown_of_greeting w.server hlink] at hplaced ⊢
      exact ⟨⟨hplaced, h.directory, h.limitsKept, h.connections⟩, .inl rfl⟩
    | some p =>
      have hp := h.placed.lines l p ((connectionOf?_of_line hline).trans hlink)
      have hclosed := (h.connections _ (List.getElem_mem hp)).close
      rw [Link.teardown_of_connection hlink (List.getElem?_eq_getElem hp), Server.unregister_eq]
        at hplaced ⊢
      refine ⟨⟨hplaced, h.directory, h.limitsKept, fun c hc => ?_⟩, .inl rfl⟩
      rcases List.mem_or_eq_of_mem_set hc with hold | rfl
      · exact h.connections c hold
      · exact hclosed

/-- A step goes on serving clients that were admitted, and stores one upload at most. -/
theorem IsServing.step (h : w.IsServing names limits) (s : Step) :
    (w.step s).IsServing names limits ∧ Stores w (w.step s) := by
  cases s with
  | comeUp =>
    exact ⟨⟨h.placed.of_move (.quiet quiet_comeUp), h.directory, h.limitsKept, h.connections⟩,
      .inl rfl⟩
  | frame l f => exact h.frame l f
  | tearDown l => exact h.tearDown l
  | operate p op => exact h.operate p op
  | advance milliseconds =>
    exact ⟨⟨h.placed.of_move (move h.placed (.advance milliseconds)), h.directory, h.limitsKept,
      h.connections⟩, .inl rfl⟩

-- ---------------------------------------------------------------------------
-- Runs
-- ---------------------------------------------------------------------------

theorem isServing_start (links : LinkLimits) (limits : TransferLimits) (names : List String)
    (store : Store) : (start links limits (.ofNames names) store).IsServing names limits :=
  ⟨isPlaced_start links limits _ store, rfl, rfl, List.forall_mem_nil _⟩

theorem IsServing.run (h : w.IsServing names limits) (steps : List Step) :
    (w.run steps).IsServing names limits := by
  induction steps generalizing w with
  | nil => exact h
  | cons s rest ih => exact ih (h.step s).1

end World

-- ---------------------------------------------------------------------------
-- Files on disk
-- ---------------------------------------------------------------------------

/-- An upload has been stored: its client is admitted, and whatever has changed on disk, at every stage,
lies directly in the directory of the client. -/
structure Stored (names : List String) (process : Nat) (w : World) (before after : FileTree)
    (c : Connection) (requested picked : String) (data : Bytes) : Prop where
  connection : c ∈ w.server.connections
  admitted : (Directory.ofNames names).lookup requested = some c.screenName
  identity : c.identity = identityOf requested
  owner : IsPlainName c.identity
  name : IsPlainName (baseName picked)
  temporary : IsPlainName (DiskStore.temporaryName process (baseName picked))
  last : after = ((DiskStore.stages ⟨before, process⟩
    ⟨uploadScope, c.identity, baseName picked⟩ data).getLast?).getD before
  within : ∀ stage ∈ DiskStore.stages ⟨before, process⟩ ⟨uploadScope, c.identity, baseName picked⟩
      data,
    before.ChangesWithin stage uploadScope c.identity
      [baseName picked, DiskStore.temporaryName process (baseName picked)]

namespace World

variable {w : World} {names : List String} {limits : TransferLimits}

/-- What a step does to a tree in which all entries lie in directories. -/
theorem IsServing.tree_step (h : w.IsServing names limits) {before : FileTree} {process : Nat}
    (hrooted : before.IsRooted) (hdisk : w.server.transfers.store = .disk ⟨before, process⟩)
    (s : Step) :
    ∃ after : FileTree, after.IsRooted ∧
      (w.step s).server.transfers.store = .disk ⟨after, process⟩ ∧
      (after = before ∨ ∃ c requested picked data,
        Stored names process w before after c requested picked data) := by
  rcases (h.step s).2 with hsame | ⟨c, hc, picked, data, hwrite⟩
  · exact ⟨before, hrooted, hsame.trans hdisk, .inl rfl⟩
  · have hbefore : Store.IsRooted (.disk ⟨before, process⟩) := hrooted
    have hwritten := hbefore.write ⟨uploadScope, c.identity, baseName picked⟩ data
    rw [hdisk] at hwrite
    rw [← hwrite] at hwritten
    have hstore : (w.step s).server.transfers.store = .disk (DiskStore.write ⟨before, process⟩
        ⟨uploadScope, c.identity, baseName picked⟩ data).1 := hwrite
    rcases DiskStore.write_cases ⟨before, process⟩ ⟨uploadScope, c.identity, baseName picked⟩ data
      with hsame | ⟨hcheck, hstages⟩
    · exact ⟨before, hrooted, by rw [hstore, hsame], .inl rfl⟩
    · rw [hstages] at hstore
      rw [hstore] at hwritten
      obtain ⟨requested, hadmitted, hidentity⟩ := (h.connections c hc).admitted
      have hplain := FileKey.isPlainName_of_check hcheck
      simp only [FileKey.components, List.forall_mem_cons] at hplain
      exact ⟨_, hwritten, hstore, .inr ⟨c, requested, picked, data, hc, hadmitted, hidentity,
        hplain.2.1, hplain.2.2.1, isPlainName_temporaryName process hplain.2.2.1, rfl,
        fun stage hstage => DiskStore.changesWithin_of_mem_stages hrooted hstage⟩⟩

/-- A server that keeps its files on disk goes on to do so. -/
theorem IsServing.tree_run (h : w.IsServing names limits) {before : FileTree} {process : Nat}
    (hrooted : before.IsRooted) (hdisk : w.server.transfers.store = .disk ⟨before, process⟩)
    (steps : List Step) :
    ∃ after : FileTree, after.IsRooted ∧
      (w.run steps).server.transfers.store = .disk ⟨after, process⟩ := by
  induction steps generalizing w before with
  | nil => exact ⟨before, hrooted, hdisk⟩
  | cons s rest ih =>
    obtain ⟨after, hafter, hstep, -⟩ := h.tree_step hrooted hdisk s
    exact ih (h.step s).1 hafter hstep

end World

/-- The path of a key is the path of the root with three plain names behind it, and tells the key.  And
whatever the clients of a server do, a step of it leaves the files on disk or stores one upload, and
then all that changes at any stage lies directly in the directory of a client that was admitted. -/
theorem uploads_stay_in_own_directory (root : String) (links : LinkLimits) (limits : TransferLimits)
    (names : List String) {tree : FileTree} (htree : tree.IsRooted) (process : Nat)
    (steps : List Step) (s : Step) :
    (∀ key : FileKey, (∃ path, key.pathUnder root = .ok path) ↔ key.check = .ok ()) ∧
    (∀ (key : FileKey) (path : String), key.pathUnder root = .ok path →
      root.toList <+: path.toList ∧
      pathNames path = pathNames root ++ [key.scope, key.owner, key.name] ∧
      IsPlainName key.scope ∧ IsPlainName key.owner ∧ IsPlainName key.name) ∧
    (∀ (key other : FileKey) (path : String), key.pathUnder root = .ok path →
      other.pathUnder root = .ok path → key = other) ∧
    let w := (World.start links limits (.ofNames names) (.disk ⟨tree, process⟩)).run steps
    ∃ before after : FileTree, w.server.transfers.store = .disk ⟨before, process⟩ ∧
      (w.step s).server.transfers.store = .disk ⟨after, process⟩ ∧
      (after = before ∨ ∃ c requested picked data,
        Stored names process w before after c requested picked data) := by
  have hstart := World.isServing_start links limits names (.disk ⟨tree, process⟩)
  obtain ⟨before, hbefore, hdisk⟩ := hstart.tree_run htree rfl steps
  obtain ⟨after, -, hstep, hstored⟩ := (hstart.run steps).tree_step hbefore hdisk s
  refine ⟨fun key => ?_, fun key path hpath => ?_, fun key other path => FileKey.eq_of_pathUnder,
    before, after, hdisk, hstep, hstored⟩
  · simp only [FileKey.pathUnder_eq_ok_iff, exists_and_left, exists_eq, and_true]
  · obtain ⟨hnames, hroot⟩ := FileKey.pathNames_pathUnder hpath
    have hplain := FileKey.isPlainName_of_check (FileKey.pathUnder_eq_ok_iff.mp hpath).1
    simp only [FileKey.components, List.forall_mem_cons] at hplain
    exact ⟨hroot, hnames, hplain.1, hplain.2.1, hplain.2.2.1⟩

/-- A client signs on, is asked for a file, picks a path that leads upwards, and sends two bytes. -/
def climbing : List Step :=
  [.comeUp, .frame 0 ((ClientMessage.signOn " .. Ann ").frame 16 0), .operate 0 .initiateUpload,
    .frame 0 ((ClientMessage.uploadPicked 1 "/etc/../.. \\ passwd ").frame 17 0),
    .frame 0 ((ClientMessage.uploadStats 1 2).frame 18 0),
    .frame 0 ((ClientMessage.uploadData 1 [1, 2]).frame 19 0)]

/-- When the client says that the file is complete, it is stored as one of its own. -/
theorem uploads_stay_in_own_directory_climbing :
    FileTree.empty.IsRooted ∧ ∃ (before after : FileTree) (c : Connection)
      (requested picked : String) (data : Bytes),
      before.at? ["uploads", "..ann", "passwd"] = none ∧
      after.at? ["uploads", "..ann", "passwd"] = some (.file [1, 2]) ∧
      Stored [] 7 ((World.start ⟨4, 8⟩ ⟨100, 1000, 256⟩ (.ofNames []) (.disk ⟨.empty, 7⟩)).run climbing)
        before after c requested picked data := by
  let w := (World.start ⟨4, 8⟩ ⟨100, 1000, 256⟩ (.ofNames []) (.disk ⟨.empty, 7⟩)).run climbing
  let s : Step := .frame 0 ((ClientMessage.uploadEnd 1).frame 20 0)
  let shown (store : Store) : Option TreeEntry :=
    match store with
    | .disk disk => disk.tree.at? ["uploads", "..ann", "passwd"]
    | .memory _ => none
  obtain ⟨-, -, -, before, after, hbefore, hafter, hstored⟩ :=
    uploads_stay_in_own_directory "/srv/files" ⟨4, 8⟩ ⟨100, 1000, 256⟩ [] FileTree.isRooted_empty 7
      climbing s
  have hnone : shown w.server.transfers.store = none := by decide +kernel
  have hfile : shown (w.step s).server.transfers.store = some (.file [1, 2]) := by decide +kernel
  change w.server.transfers.store = _ at hbefore
  change (w.step s).server.transfers.store = _ at hafter
  rw [hbefore] at hnone
  rw [hafter] at hfile
  change before.at? ["uploads", "..ann", "passwd"] = none at hnone
  change after.at? ["uploads", "..ann", "passwd"] = some (.file [1, 2]) at hfile
  rcases hstored with rfl | ⟨c, requested, picked, data, hstored⟩
  · cases hnone.symm.trans hfile
  · exact ⟨FileTree.isRooted_empty, before, after, c, requested, picked, data, hnone, hfile, hstored⟩

end Presence

end Switchboard
