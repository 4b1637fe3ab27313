import Switchboard.Proofs.Presence.Online

/-!
# When ids come round

Ids of connections are 64 bits wide.  With one sign-on more than there are ids the last connection has
the id of the first one, so taking down the link of the first client takes the last one out of the
registry.  What holds of fewer sign-ons does not hold of any number.

Main results:

* `World.IsCrowd.run`: clients sign on under one name, each over a link of its own.
* `Presence.latest_unregistered_with_first`: at the end of such a run, the registry takes one connection
  for another.
-/

namespace Switchboard.Presence

/-- Links come up one after another, and each takes the same frame. -/
def arrivals (f : Frame) : Nat → List Step
  | 0 => []
  | n + 1 => arrivals f n ++ [.comeUp, .frame n f]

namespace World

/-- Clients have signed on under one name, each over a link of its own, and all links are up. -/
structure IsCrowd (names : Directory) (screenName : String) (n : Nat) (w : World) : Prop where
  orderly : w.IsOrderly
  directory : w.server.directory = names
  lines : w.lines.length = n
  signOns : w.signOns = (List.range n).map fun l => ⟨l, l⟩
  up : ∀ l < n, w.isUp l = true
  named : ∀ (p : Nat) (c : Connection), w.server.connections[p]? = some c →
    c.screenName = screenName

variable {w : World} {names : Directory} {screenName : String} {n : Nat} {f : Frame}

namespace IsCrowd

theorem length_connections (h : w.IsCrowd names screenName n) :
    w.server.connections.length = n := by
  rw [← h.orderly.length_signOns, h.signOns, List.length_map, List.length_range]

theorem connectionOf?_of_lt (h : w.IsCrowd names screenName n) {l : Nat} (hl : l < n) :
    w.connectionOf? l = some l := by
  rw [← h.orderly.lines, h.signOns]
  exact List.mem_map_of_mem (List.mem_range.mpr hl)

theorem exists_connection (h : w.IsCrowd names screenName n) {l : Nat} (hl : l < n) :
    ∃ c, w.server.connections[l]? = some c ∧ c.id.toNat = (l + 1) % UInt64.size ∧
      c.identity = identityOf screenName := by
  have hc := List.getElem?_eq_getElem (h.length_connections.symm ▸ hl)
  have hnumbered := h.orderly.numbered _ _ hc
  exact ⟨_, hc, hnumbered.id, by rw [hnumbered.identity, h.named _ _ hc]⟩

theorem latest?_eq (h : w.IsCrowd names screenName (n + 1)) :
    w.latest? (identityOf screenName) = some ⟨n, n⟩ := by
  have hall : ∀ s ∈ w.signOns, w.isUnder (identityOf screenName) s = true := by
    intro s hs
    have hc := List.getElem?_eq_getElem (h.orderly.lt_of_mem hs)
    exact isUnder_iff.mpr ⟨_, hc, by rw [h.named _ _ hc]⟩
  rw [latest?, List.filter_eq_self.mpr hall, h.signOns, List.range_succ, List.map_append]
  exact List.getLast?_concat

theorem get?_eq (h : w.IsCrowd names screenName (n + 1)) :
    w.server.registry.get? (identityOf screenName) = some n := by
  rw [h.orderly.latest, h.latest?_eq, Option.filter_some, h.up n (Nat.lt_succ_self n)]
  rfl

/-- One more link comes up, and its client signs on. -/
theorem step (h : w.IsCrowd names screenName n)
    (hadmitted : f.signOn?.bind names.lookup = some screenName) :
    (w.run [.comeUp, .frame n f]).IsCrowd names screenName (n + 1) := by
  have hquiet : Quiet w (w.step .comeUp) := quiet_comeUp
  have horderly : (w.step .comeUp).IsOrderly := h.orderly.of_quiet hquiet
  have hline : (w.step .comeUp).lines[n]? = some ⟨.new w.server.links.window, true⟩ := by
    rw [← h.lines]
    exact List.getElem?_concat_length
  have hlookup : f.signOn?.bind (w.step .comeUp).server.directory.lookup = some screenName := by
    rw [← hadmitted, ← h.directory]
    rfl
  obtain ⟨outbound, hframe⟩ := exists_frame_of_admitted hline horderly.isPlaced rfl hlookup
  obtain ⟨c, hname, hadmits⟩ := admits_frame hline horderly.isPlaced rfl hlookup
  show ((w.step .comeUp).frame n f).IsCrowd names screenName (n + 1)
  refine ⟨horderly.of_admits hadmits, ?_, ?_, ?_, fun l hl => ?_, fun p c' hc' => ?_⟩
  · rw [hframe]
    exact h.directory
  · rw [hframe]
    show ((w.lines ++ [_]).set n _).length = n + 1
    rw [List.length_set, List.length_append, h.lines]
    rfl
  · rw [hadmits.signOns]
    show w.signOns ++ [⟨n, w.server.connections.length⟩] = _
    rw [h.signOns, h.length_connections, List.range_succ, List.map_append]
    rfl
  · rcases Nat.lt_succ_iff_lt_or_eq.mp hl with hold | rfl
    · rw [hadmits.up l (Nat.ne_of_gt hold), hquiet.up l l (h.connectionOf?_of_lt hold), h.up l hold]
    · exact hadmits.here
  · rcases cases_of_admits hadmits hc' with ⟨before, hbefore, hremains, -⟩ | ⟨-, rfl⟩
    · rw [hremains.screenName_eq]
      exact h.named p before hbefore
    · exact hname

theorem run (links : LinkLimits) (limits : TransferLimits) (store : Store) (n : Nat)
    (hadmitted : f.signOn?.bind names.lookup = some screenName) :
    ((start links limits names store).run (arrivals f n)).IsCrowd names screenName n := by
  induction n with
  | zero =>
    refine ⟨isOrderly_start links limits names store, rfl, rfl, rfl, fun l hl => ?_, fun p c hc => ?_⟩
    · cases hl
    · cases hc
  | succ n ih =>
    rw [World.run, arrivals, List.foldl_append]
    exact ih.step hadmitted

/-- The last connection has the id of the first one, so it is unregistered in its place. -/
theorem get?_tearDown (h : w.IsCrowd names screenName (UInt64.size + 1)) :
    (w.step (.tearDown 0)).server.registry.get? (identityOf screenName) = none := by
  have hpos : 0 < UInt64.size + 1 := Nat.succ_pos _
  obtain ⟨first, hfirst, hfirstId, hidentity⟩ := h.exists_connection hpos
  obtain ⟨last, hlast, hlastId, -⟩ := h.exists_connection (Nat.lt_succ_self _)
  have hid : last.id = first.id := by
    apply UInt64.toNat_inj.mp
    rw [hlastId, hfirstId]
    exact Nat.add_mod_left UInt64.size 1
  have hregistered : (w.server.put 0 first.close).isRegistered first.identity first.id = true := by
    refine Server.isRegistered_iff.mpr ⟨UInt64.size, last, ?_, ?_, hid⟩
    · rw [hidentity]
      exact h.get?_eq
    · show (w.server.connections.set 0 first.close)[UInt64.size]? = some last
      rw [List.getElem?_set_ne (by decide), hlast]
  rw [server_tearDown (h.up 0 hpos) (h.connectionOf?_of_lt hpos) hfirst, Server.get?_unregister,
    if_pos ⟨hidentity.symm, hregistered⟩]

end IsCrowd

end World

/-- With one sign-on more than there are ids, and all clients under one name, taking the first link down
takes the latest client out of the registry, whose link is up. -/
theorem latest_unregistered_with_first (links : LinkLimits) (limits : TransferLimits)
    (names : Directory) (store : Store) {f : Frame} {screenName : String}
    (hadmitted : f.signOn?.bind names.lookup = some screenName) :
    let w := (World.start links limits names store).run (arrivals f (UInt64.size + 1))
    w.latest? (identityOf screenName) = some ⟨UInt64.size, UInt64.size⟩ ∧
      w.isUp UInt64.size = true ∧
      w.server.registry.get? (identityOf screenName) = some UInt64.size ∧
      (w.step (.tearDown 0)).server.registry.get? (identityOf screenName) = none := by
  have h := World.IsCrowd.run links limits store (UInt64.size + 1) hadmitted
  exact ⟨h.latest?_eq, h.up _ (Nat.lt_succ_self _), h.get?_eq, h.get?_tearDown⟩

end Switchboard.Presence
