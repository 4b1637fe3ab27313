import Mathlib.Data.List.Nodup
import Mathlib.Data.Nat.ModEq
import Switchboard.Proofs.Presence.Run

/-!
# Who is online

The registry agrees with the sign-ons that were accepted: under each identity it has the connection of
the latest one, until the link of that one is taken down.  All other connections have been closed.  Ids
of connections come from a counter, so an evicted connection is not taken for the one in its place as
long as the counter has not come round.

Main results:

* `World.IsOrderly.of_move`: every move keeps the registry in agreement with the sign-ons.
* `Presence.latest_sign_on_online`: what holds in every run, and what each step of it does.
-/

namespace Switchboard.Presence

-- ---------------------------------------------------------------------------
-- Connections after a step
-- ---------------------------------------------------------------------------

namespace Remains

variable {before after : Connection}

theorem id_eq (h : Remains before after) : after.id = before.id := by
  rcases h with h | rfl
  · exact h.id_eq
  · rfl

theorem screenName_eq (h : Remains before after) : after.screenName = before.screenName := by
  rcases h with h | rfl
  · exact h.screenName_eq
  · rfl

theorem identity_eq (h : Remains before after) : after.identity = before.identity := by
  rcases h with h | rfl
  · exact h.identity_eq
  · rfl

/-- What has been closed stays closed. -/
theorem closed (h : Remains before after)
    (hclosed : before.closing = true ∧ before.pacer.closed = true) :
    after.closing = true ∧ after.pacer.closed = true := by
  rcases h with h | rfl
  · exact ⟨h.closing_eq.trans hclosed.1, h.closed hclosed.2⟩
  · exact ⟨rfl, rfl⟩

/-- What has just been closed has no transfers. -/
theorem emptied (h : Remains before after) (hbefore : before.closing = false)
    (hafter : after.closing = true) :
    after.pacer.closed = true ∧ after.transfers.download.active = none ∧
      after.transfers.upload.active = none := by
  rcases h with h | rfl
  · cases hbefore.symm.trans (h.closing_eq.symm.trans hafter)
  · exact ⟨rfl, Slot.active_finish _ _, Slot.active_finish _ _⟩

end Remains

namespace Remain

variable {before after : List Connection}

theorem exists_before (h : Remain before after) {p : Nat} {c' : Connection}
    (hc' : after[p]? = some c') : ∃ c, before[p]? = some c ∧ Remains c c' := by
  have hlt : p < before.length := by
    rw [h.1]
    exact (List.getElem?_eq_some_iff.mp hc').1
  exact ⟨before[p], List.getElem?_eq_getElem hlt, h.2 p _ c' (List.getElem?_eq_getElem hlt) hc'⟩

theorem map_screenName (h : Remain before after) (p : Nat) :
    after[p]?.map (·.screenName) = before[p]?.map (·.screenName) := by
  cases hc' : after[p]? with
  | none =>
    have hge : before.length ≤ p := by
      rw [h.1]
      exact List.getElem?_eq_none_iff.mp hc'
    rw [List.getElem?_eq_none hge]
  | some c' =>
    obtain ⟨c, hc, hremains⟩ := h.exists_before hc'
    rw [hc, Option.map_some, Option.map_some, hremains.screenName_eq]

end Remain

theorem remain_evicting (server : Server) (identity : String) :
    Remain server.connections (server.evicting identity) := by
  refine ⟨(server.length_evicting identity).symm, fun p c c' hc hc' => ?_⟩
  rw [server.getElem?_evicting, hc] at hc'
  split at hc'
  · cases hc'
    exact .inr rfl
  · cases hc'
    exact .inl (.refl c)

namespace World

-- ---------------------------------------------------------------------------
-- Sign-ons
-- ---------------------------------------------------------------------------

/-- Whether a client has signed on under an identity. -/
def isUnder (w : World) (identity : String) (s : SignOn) : Bool :=
  (w.server.connections[s.connection]?.map (·.screenName)).any (identityOf · = identity)

/-- The latest sign-on under an identity. -/
def latest? (w : World) (identity : String) : Option SignOn :=
  (w.signOns.filter (w.isUnder identity)).getLast?

/-- A connection that stands where its id says, under the identity of its screen name. -/
structure IsNumbered (p : Nat) (c : Connection) : Prop where
  id : c.id.toNat = (p + 1) % UInt64.size
  identity : c.identity = identityOf c.screenName

theorem IsNumbered.of_remains {p : Nat} {c c' : Connection} (h : IsNumbered p c)
    (hremains : Remains c c') : IsNumbered p c' :=
  ⟨hremains.id_eq ▸ h.id, by rw [hremains.identity_eq, hremains.screenName_eq, h.identity]⟩

/-- A world whose registry agrees with the sign-ons. -/
structure IsOrderly (w : World) : Prop where
  nextId : w.server.nextConnectionId.toNat = (w.server.connections.length + 1) % UInt64.size
  numbered : ∀ p c, w.server.connections[p]? = some c → IsNumbered p c
  positions : w.signOns.map (·.connection) = List.range w.server.connections.length
  lines : ∀ l p, ⟨l, p⟩ ∈ w.signOns ↔ w.connectionOf? l = some p
  keys : w.server.registry.keys.Nodup
  latest : ∀ k, w.server.registry.get? k =
    ((w.latest? k).filter fun s => w.isUp s.line).map (·.connection)
  closed : ∀ p c, w.server.connections[p]? = some c → w.server.registry.get? c.identity ≠ some p →
    c.closing = true ∧ c.pacer.closed = true

variable {w after : World} {k : String} {p l : Nat} {c : Connection} {s : SignOn}

theorem mem_of_latest? (h : w.latest? k = some s) : s ∈ w.signOns ∧ w.isUnder k s = true :=
  List.mem_filter.mp (List.mem_of_getLast? h)

theorem isUnder_iff : w.isUnder k s = true ↔
    ∃ c, w.server.connections[s.connection]? = some c ∧ identityOf c.screenName = k := by
  simp [isUnder, Option.any_eq_true]

namespace IsOrderly

theorem connectionOf?_of_mem (h : w.IsOrderly) (hs : s ∈ w.signOns) :
    w.connectionOf? s.line = some s.connection :=
  (h.lines s.line s.connection).mp hs

theorem lt_of_mem (h : w.IsOrderly) (hs : s ∈ w.signOns) :
    s.connection < w.server.connections.length := by
  have hmem := List.mem_map_of_mem (f := (·.connection)) hs
  rw [h.positions] at hmem
  exact List.mem_range.mp hmem

theorem eq_of_connection (h : w.IsOrderly) {s' : SignOn} (hs : s ∈ w.signOns) (hs' : s' ∈ w.signOns)
    (heq : s.connection = s'.connection) : s = s' := by
  have hnodup : (w.signOns.map (·.connection)).Nodup := by
    rw [h.positions]
    exact List.nodup_range
  exact List.inj_on_of_nodup_map hnodup hs hs' heq

/-- Who is online has signed on, latest of all under that identity, over a link that is up. -/
theorem of_get? (h : w.IsOrderly) (hp : w.server.registry.get? k = some p) :
    ∃ s, w.latest? k = some s ∧ w.isUp s.line = true ∧ s.connection = p := by
  rw [h.latest, Option.map_eq_some_iff] at hp
  obtain ⟨s, hs, rfl⟩ := hp
  obtain ⟨hlatest, hup⟩ := Option.filter_eq_some_iff.mp hs
  exact ⟨s, hlatest, hup, rfl⟩

/-- Who is online is so under the identity of its own screen name. -/
theorem own (h : w.IsOrderly) (hp : w.server.registry.get? k = some p) :
    ∃ c, w.server.connections[p]? = some c ∧ identityOf c.screenName = k := by
  obtain ⟨s, hlatest, -, rfl⟩ := h.of_get? hp
  exact isUnder_iff.mp (mem_of_latest? hlatest).2

theorem isPlaced (h : w.IsOrderly) : w.IsPlaced := by
  refine ⟨fun k p hp => ?_, fun l p hp => ?_⟩
  · obtain ⟨c, hc, -⟩ := h.own hp
    exact (List.getElem?_eq_some_iff.mp hc).1
  · exact h.lt_of_mem ((h.lines l p).mpr hp)

theorem length_signOns (h : w.IsOrderly) : w.signOns.length = w.server.connections.length := by
  have hlength := congrArg List.length h.positions
  rwa [List.length_map, List.length_range] at hlength

end IsOrderly

-- ---------------------------------------------------------------------------
-- Moves keep the registry in agreement
-- ---------------------------------------------------------------------------

theorem isUnder_congr (h : ∀ p : Nat, after.server.connections[p]?.map (·.screenName) =
    w.server.connections[p]?.map (·.screenName)) : after.isUnder k = w.isUnder k := by
  funext s
  rw [isUnder, isUnder, h]

/-- The latest sign-on counts if its link is still up. -/
theorem filter_isUp_congr {found : Option SignOn}
    (h : ∀ s, found = some s → after.isUp s.line = w.isUp s.line) :
    (found.filter fun s => after.isUp s.line) = found.filter fun s => w.isUp s.line := by
  cases found with
  | none => rfl
  | some s => rw [Option.filter_some, Option.filter_some, h s rfl]

theorem numbered_of_remain {before connections : List Connection} (h : Remain before connections)
    (hnumbered : ∀ p c, before[p]? = some c → IsNumbered p c) :
    ∀ p c, connections[p]? = some c → IsNumbered p c := by
  intro p c' hc'
  obtain ⟨c, hc, hremains⟩ := h.exists_before hc'
  exact (hnumbered p c hc).of_remains hremains

theorem IsOrderly.of_quiet (h : w.IsOrderly) (hmove : Quiet w after) : after.IsOrderly := by
  have hlength := hmove.connections.1
  have hlatest (k : String) : after.latest? k = w.latest? k := by
    rw [latest?, hmove.signOns, isUnder_congr hmove.connections.map_screenName, latest?]
  refine ⟨?_, numbered_of_remain hmove.connections h.numbered, ?_, ?_, ?_, ?_, ?_⟩
  · rw [hmove.nextId, ← hlength, h.nextId]
  · rw [hmove.signOns, ← hlength, h.positions]
  · intro l p
    rw [hmove.signOns, hmove.connectionOf, h.lines]
  · rw [hmove.registry]
    exact h.keys
  · intro k
    rw [hmove.registry, h.latest, hlatest, filter_isUp_congr fun s hs => ?_]
    have hmem := (mem_of_latest? hs).1
    exact (hmove.up s.line s.connection (h.connectionOf?_of_mem hmem)).symm
  · intro p c' hc' hother
    obtain ⟨c, hc, hremains⟩ := hmove.connections.exists_before hc'
    rw [hmove.registry, hremains.identity_eq] at hother
    exact hremains.closed (h.closed p c hc hother)

section Admission

variable (hmove : Admits w after l c)
include hmove

theorem length_of_admits :
    after.server.connections.length = w.server.connections.length + 1 := by
  rw [hmove.connections, List.length_append, w.server.length_evicting, List.length_singleton]

theorem getElem?_of_admits_lt (hlt : p < w.server.connections.length) :
    after.server.connections[p]? = (w.server.evicting c.identity)[p]? := by
  rw [hmove.connections]
  exact List.getElem?_append_left (by rwa [w.server.length_evicting])

theorem getElem?_of_admits_length :
    after.server.connections[w.server.connections.length]? = some c := by
  rw [hmove.connections, ← w.server.length_evicting c.identity]
  exact List.getElem?_concat_length

/-- A connection is one that was there, and that has been closed if it was online under the identity,
or the new one. -/
theorem cases_of_admits {c' : Connection} (hc' : after.server.connections[p]? = some c') :
    (∃ before, w.server.connections[p]? = some before ∧ Remains before c' ∧
      (w.server.registry.get? c.identity = some p → c' = before.close)) ∨
    p = w.server.connections.length ∧ c' = c := by
  have hlt := (List.getElem?_eq_some_iff.mp hc').1
  rw [length_of_admits hmove] at hlt
  rcases Nat.lt_succ_iff_lt_or_eq.mp hlt with hold | rfl
  · rw [getElem?_of_admits_lt hmove hold] at hc'
    obtain ⟨before, hbefore, hremains⟩ := (remain_evicting w.server c.identity).exists_before hc'
    refine .inl ⟨before, hbefore, hremains, fun honline => ?_⟩
    rw [w.server.getElem?_evicting, if_pos honline, hbefore] at hc'
    exact (Option.some.inj hc').symm
  · rw [getElem?_of_admits_length hmove] at hc'
    exact .inr ⟨rfl, (Option.some.inj hc').symm⟩

/-- The new sign-on is the latest one under its identity. -/
theorem IsOrderly.latest?_of_admits (h : w.IsOrderly) (k : String) :
    after.latest? k =
      if k = c.identity then some ⟨l, w.server.connections.length⟩ else w.latest? k := by
  have hold : ∀ s ∈ w.signOns, after.isUnder k s = w.isUnder k s := by
    intro s hs
    rw [isUnder, getElem?_of_admits_lt hmove (h.lt_of_mem hs),
      (remain_evicting w.server c.identity).map_screenName, isUnder]
  have hnew : after.isUnder k ⟨l, w.server.connections.length⟩ = true ↔ k = c.identity := by
    rw [isUnder_iff, getElem?_of_admits_length hmove, hmove.identity]
    simp [eq_comm]
  rw [latest?, hmove.signOns, List.filter_append, List.filter_congr hold]
  split
  · next hk => rw [List.filter_cons_of_pos (hnew.mpr hk), List.filter_nil, List.getLast?_concat]
  · next hk =>
    rw [List.filter_cons_of_neg (fun hunder => hk (hnew.mp hunder)), List.filter_nil, List.append_nil,
      latest?]

theorem IsOrderly.of_admits (h : w.IsOrderly) : after.IsOrderly := by
  refine ⟨?_, ?_, ?_, ?_, ?_, ?_, ?_⟩
  · rw [hmove.nextId, UInt64.toNat_add, h.nextId, length_of_admits hmove]
    exact Nat.mod_add_mod (w.server.connections.length + 1) UInt64.size 1
  · intro p c' hc'
    rcases cases_of_admits hmove hc' with ⟨before, hbefore, hremains, -⟩ | ⟨rfl, rfl⟩
    · exact (h.numbered p before hbefore).of_remains hremains
    · exact ⟨hmove.id ▸ h.nextId, hmove.identity⟩
  · rw [hmove.signOns, List.map_append, h.positions, length_of_admits hmove, List.range_succ]
    rfl
  · intro other p
    rw [hmove.signOns, List.mem_append, h.lines, List.mem_singleton, hmove.connectionOf]
    split
    · next heq =>
      -- nobody had signed on over this link
      subst heq
      simp [hmove.free, eq_comm]
    · next hne => simp [Ne.symm hne]
  · rw [hmove.registry]
    exact Dictionary.nodup_keys_put h.keys _ _
  · intro k
    rw [hmove.registry, Dictionary.get?_put, h.latest?_of_admits hmove]
    split
    · rw [Option.filter_some, hmove.here]
      rfl
    · rw [h.latest, filter_isUp_congr fun s hs => ?_]
      have hmem := (mem_of_latest? hs).1
      have hconnection := h.connectionOf?_of_mem hmem
      refine (hmove.up s.line fun heq => ?_).symm
      rw [← heq, hmove.free] at hconnection
      cases hconnection
  · intro p c' hc' hother
    rw [hmove.registry, Dictionary.get?_put] at hother
    rcases cases_of_admits hmove hc' with ⟨before, hbefore, hremains, hevicted⟩ | ⟨rfl, rfl⟩
    · by_cases honline : w.server.registry.get? before.identity = some p
      · -- it was online, so it is no longer only if it has been evicted
        have hidentity : before.identity = c.identity := by
          by_contra hne
          rw [hremains.identity_eq, if_neg hne] at hother
          exact hother honline
        rw [hevicted (hidentity ▸ honline)]
        exact ⟨rfl, rfl⟩
      · exact hremains.closed (h.closed p before hbefore honline)
    · rw [if_pos rfl] at hother
      exact absurd rfl hother

end Admission

-- ---------------------------------------------------------------------------
-- Taking a link down
-- ---------------------------------------------------------------------------

section Leaving

variable (h : w.IsOrderly) (hcount : w.server.connections.length ≤ UInt64.size)
include h hcount

/-- Only the connection itself has its id. -/
theorem IsOrderly.eq_of_id {q : Nat} {other : Connection} (hc : w.server.connections[p]? = some c)
    (hother : w.server.connections[q]? = some other) (hid : other.id = c.id) : q = p := by
  have hp := (List.getElem?_eq_some_iff.mp hc).1
  have hq := (List.getElem?_eq_some_iff.mp hother).1
  have heq := congrArg UInt64.toNat hid
  rw [(h.numbered p c hc).id, (h.numbered q other hother).id] at heq
  have hmod : q ≡ p [MOD UInt64.size] := Nat.ModEq.add_right_cancel' 1 heq
  exact hmod.eq_of_lt_of_lt (hq.trans_le hcount) (hp.trans_le hcount)

/-- Unregistering a connection takes its identity out if it is online, and nothing if another one has
taken its place. -/
theorem IsOrderly.get?_unregister (hc : w.server.connections[p]? = some c) (k : String) :
    ((w.server.put p c.close).unregister c.identity c.id).1.registry.get? k =
      if w.server.registry.get? k = some p then none else w.server.registry.get? k := by
  have hregistered : (w.server.put p c.close).isRegistered c.identity c.id = true ↔
      w.server.registry.get? c.identity = some p := by
    rw [Server.isRegistered_iff]
    constructor
    · rintro ⟨q, after, hq, hafter, hid⟩
      obtain ⟨other, hother, hremains⟩ := (Remain.set hc (.inr rfl)).exists_before hafter
      rwa [h.eq_of_id hcount hc hother (hremains.id_eq.symm.trans hid)] at hq
    · exact fun honline => ⟨p, c.close, honline, Server.getElem?_put hc _, rfl⟩
  rw [Server.get?_unregister]
  by_cases honline : w.server.registry.get? k = some p
  · -- it is online under its own identity only
    have hk : k = c.identity := by
      obtain ⟨c', hc', hidentity⟩ := h.own honline
      cases hc.symm.trans hc'
      rw [(h.numbered p c hc).identity, hidentity]
    rw [if_pos ⟨hk, hregistered.mpr (hk ▸ honline)⟩, if_pos honline]
  · have hother : ¬(k = c.identity ∧
        (w.server.put p c.close).isRegistered c.identity c.id = true) :=
      fun hboth => honline (hboth.1 ▸ hregistered.mp hboth.2)
    rw [if_neg honline, if_neg hother]
    rfl

theorem IsOrderly.of_leaves (hmove : Leaves w after l p c) : after.IsOrderly := by
  have hc := hmove.there
  have hregistry (k : String) : after.server.registry.get? k =
      if w.server.registry.get? k = some p then none else w.server.registry.get? k := by
    rw [hmove.server]
    exact h.get?_unregister hcount hc k
  have hconnections : after.server.connections = w.server.connections.set p c.close := by
    rw [hmove.server, Server.unregister_eq]
    rfl
  have hremain : Remain w.server.connections after.server.connections := by
    rw [hconnections]
    exact .set hc (.inr rfl)
  have hlatest (k : String) : after.latest? k = w.latest? k := by
    rw [latest?, hmove.signOns, isUnder_congr hremain.map_screenName, latest?]
  -- the sign-on over the link that was taken down
  have hline {s : SignOn} (hs : s ∈ w.signOns) : l = s.line ↔ s.connection = p := by
    have hof := h.connectionOf?_of_mem hs
    constructor
    · rintro rfl
      exact Option.some.inj (hof.symm.trans hmove.taken)
    · intro heq
      have htaken := (h.lines l p).mpr hmove.taken
      exact (congrArg SignOn.line (h.eq_of_connection hs htaken heq)).symm
  refine ⟨?_, numbered_of_remain hremain h.numbered, ?_, ?_, ?_, fun k => ?_, ?_⟩
  · rw [← hremain.1, hmove.server, Server.unregister_eq]
    exact h.nextId
  · rw [hmove.signOns, ← hremain.1, h.positions]
  · intro other q
    rw [hmove.signOns, hmove.connectionOf, h.lines]
  · rw [hmove.server]
    exact Server.nodup_keys_unregister _ _ _ h.keys
  · rw [hregistry, hlatest]
    by_cases honline : w.server.registry.get? k = some p
    · -- the latest sign-on is the one over this link, which is down now
      obtain ⟨s, hs, -, hconnection⟩ := h.of_get? honline
      have hl := (hline (mem_of_latest? hs).1).mpr hconnection
      rw [if_pos honline, hs, Option.filter_some, ← hl, hmove.gone]
      rfl
    · rw [if_neg honline, h.latest, filter_isUp_congr fun s hs => ?_]
      have hmem := (mem_of_latest? hs).1
      refine (hmove.up s.line fun hl => honline ?_).symm
      -- were it the one over this link, it would be online
      rw [h.latest, hs, Option.filter_some, ← hl, hmove.here, if_pos rfl, Option.map_some,
        (hline hmem).mp hl]
  · intro q c' hc' hother
    obtain ⟨before, hbefore, hremains⟩ := hremain.exists_before hc'
    by_cases hq : q = p
    · subst hq
      rw [hconnections, List.getElem?_set_self (List.getElem?_eq_some_iff.mp hc).1] at hc'
      cases hc'
      exact ⟨rfl, rfl⟩
    · refine hremains.closed (h.closed q before hbefore fun honline => hother ?_)
      have hne : some q ≠ some p := fun heq => hq (Option.some.inj heq)
      rw [hregistry, hremains.identity_eq, honline, if_neg hne]

end Leaving

theorem IsOrderly.of_move (h : w.IsOrderly) (hcount : w.server.connections.length ≤ UInt64.size)
    (hmove : Move w after) : after.IsOrderly := by
  cases hmove with
  | quiet hquiet => exact h.of_quiet hquiet
  | signedOn hadmits => exact h.of_admits hadmits
  | tornDown hleaves => exact h.of_leaves hcount hleaves

/-- Whatever happens, a connection goes on or has just been closed. -/
theorem remains_of_move (hmove : Move w after) {c' : Connection}
    (hc : w.server.connections[p]? = some c) (hc' : after.server.connections[p]? = some c') :
    Remains c c' := by
  cases hmove with
  | quiet hquiet => exact hquiet.connections.2 p c c' hc hc'
  | signedOn hadmits =>
    rcases cases_of_admits hadmits hc' with ⟨before, hbefore, hremains, -⟩ | ⟨rfl, -⟩
    · cases hc.symm.trans hbefore
      exact hremains
    · exact absurd (List.getElem?_eq_some_iff.mp hc).1 (Nat.lt_irrefl _)
  | tornDown hleaves =>
    rw [hleaves.server, Server.unregister_eq] at hc'
    exact (Remain.set hleaves.there (.inr rfl)).2 p c c' hc hc'

-- ---------------------------------------------------------------------------
-- Runs
-- ---------------------------------------------------------------------------

theorem isOrderly_start (links : LinkLimits) (limits : TransferLimits) (directory : Directory)
    (store : Store) : (start links limits directory store).IsOrderly := by
  refine ⟨rfl, fun p c hc => ?_, rfl, fun l p => ?_, List.nodup_nil, fun k => rfl, fun p c hc => ?_⟩
  · cases hc
  · exact iff_of_false nofun nofun
  · cases hc

/-- Sign-ons are not forgotten. -/
theorem length_signOns_step (w : World) (s : Step) : w.signOns.length ≤ (w.step s).signOns.length := by
  cases s with
  | comeUp => exact Nat.le_refl _
  | advance milliseconds => exact Nat.le_refl _
  | frame l f =>
    show w.signOns.length ≤ (w.frame l f).signOns.length
    unfold frame
    split
    · exact (List.length_append ▸ Nat.le_add_right _ _)
    · exact Nat.le_refl _
  | tearDown l =>
    show w.signOns.length ≤ (w.tearDown l).signOns.length
    unfold tearDown
    split <;> exact Nat.le_refl _
  | operate position op =>
    show w.signOns.length ≤ (w.operate position op).signOns.length
    unfold operate
    split <;> exact Nat.le_refl _

theorem length_signOns_run (w : World) (steps : List Step) :
    w.signOns.length ≤ (w.run steps).signOns.length := by
  induction steps generalizing w with
  | nil => exact Nat.le_refl _
  | cons s rest ih => exact (w.length_signOns_step s).trans (ih _)

/-- In every run with no more sign-ons than ids, the registry agrees with the sign-ons. -/
theorem IsOrderly.run (h : w.IsOrderly) (steps : List Step)
    (hcount : (w.run steps).signOns.length ≤ UInt64.size) : (w.run steps).IsOrderly := by
  induction steps generalizing w with
  | nil => exact h
  | cons s rest ih =>
    have hbefore : w.signOns.length ≤ UInt64.size :=
      (w.length_signOns_run (s :: rest)).trans hcount
    rw [h.length_signOns] at hbefore
    exact ih (h.of_move hbefore (move h.isPlaced s)) hcount

-- ---------------------------------------------------------------------------
-- Every run
-- ---------------------------------------------------------------------------

/-- Who is online, seen against the sign-ons: every connection comes from one, no two of them over the
same link. -/
structure IsSettled (w : World) : Prop where
  positions : w.signOns.map (·.connection) = List.range w.server.connections.length
  once : (w.signOns.map (·.line)).Nodup
  keys : w.server.registry.keys.Nodup
  own : ∀ k p, w.server.registry.get? k = some p →
    ∃ c, w.server.connections[p]? = some c ∧ identityOf c.screenName = k
  latest : ∀ k, w.server.registry.get? k =
    ((w.latest? k).filter fun s => w.isUp s.line).map (·.connection)
  evicted : ∀ p c, w.server.connections[p]? = some c →
    w.server.registry.get? (identityOf c.screenName) ≠ some p →
    c.closing = true ∧ c.pacer.closed = true

theorem IsOrderly.isSettled (h : w.IsOrderly) : w.IsSettled := by
  refine ⟨h.positions, ?_, h.keys, fun k p => h.own, h.latest, fun p c hc hother => ?_⟩
  · have hnodup : w.signOns.Nodup := by
      refine List.Nodup.of_map (·.connection) ?_
      rw [h.positions]
      exact List.nodup_range
    refine hnodup.map_on fun s hs s' hs' hline => h.eq_of_connection hs hs' ?_
    -- a link has one connection
    have hof := h.connectionOf?_of_mem hs
    rw [show s.line = s'.line from hline, h.connectionOf?_of_mem hs'] at hof
    exact (Option.some.inj hof).symm
  · rw [← (h.numbered p c hc).identity] at hother
    exact h.closed p c hc hother

/-- What the next step does to connections and to who is online. -/
structure Proceeds (w : World) : Prop where
  /-- A connection that is closed loses its transfers in that step. -/
  closes : ∀ (s : Step) (p : Nat) (c c' : Connection), w.server.connections[p]? = some c →
    (w.step s).server.connections[p]? = some c' → c.closing = false → c'.closing = true →
    c'.pacer.closed = true ∧ c'.transfers.download.active = none ∧
      c'.transfers.upload.active = none
  /-- Taking a link down closes its connection and takes it out of the registry, if it is still there,
  and leaves all others. -/
  leaves : ∀ (l p : Nat) (c : Connection), w.isUp l = true → w.connectionOf? l = some p →
    w.server.connections[p]? = some c →
    (w.step (.tearDown l)).server.connections = w.server.connections.set p c.close ∧
    ∀ k, (w.step (.tearDown l)).server.registry.get? k =
      if w.server.registry.get? k = some p then none else w.server.registry.get? k
  /-- A sign-on under a name that is admitted makes a connection. -/
  admits : ∀ (l : Nat) (f : Frame) (screenName : String), w.isUp l = true →
    w.connectionOf? l = none → f.signOn?.bind w.server.directory.lookup = some screenName →
    (w.step (.frame l f)).signOns = w.signOns ++ [⟨l, w.server.connections.length⟩] ∧
    ∃ c, (w.step (.frame l f)).server.connections[w.server.connections.length]? = some c ∧
      c.screenName = screenName
  /-- Every other frame before changes nothing that links share. -/
  refuses : ∀ (l : Nat) (f : Frame), w.isUp l = true → w.connectionOf? l = none →
    f.signOn?.bind w.server.directory.lookup = none →
    (w.step (.frame l f)).server = w.server ∧ (w.step (.frame l f)).signOns = w.signOns
  /-- Of a sign-on after it the connection notes the number of the frame, and what is idle expires, as
  with all frames and messages; nothing else happens. -/
  again : ∀ (l p : Nat) (c : Connection) (f : Frame) (requested : String), w.isUp l = true →
    w.connectionOf? l = some p → w.server.connections[p]? = some c → f.signOn? = some requested →
    w.step (.frame l f) = { w with
      server := w.server.put p ((c.setRx f.tx).sweep w.server.transfers.limits w.now).1 }

section Next

variable {f : Frame} (hup : w.isUp l = true)
include hup

theorem IsOrderly.frame_of_admitted (h : w.IsOrderly) {screenName : String}
    (hfree : w.connectionOf? l = none)
    (hadmitted : f.signOn?.bind w.server.directory.lookup = some screenName) :
    (w.step (.frame l f)).signOns = w.signOns ++ [⟨l, w.server.connections.length⟩] ∧
    ∃ c, (w.step (.frame l f)).server.connections[w.server.connections.length]? = some c ∧
      c.screenName = screenName := by
  obtain ⟨link, hline⟩ := exists_of_isUp hup
  have hlink : link.connection? = none := (connectionOf?_of_line hline).symm.trans hfree
  obtain ⟨c, hname, hadmits⟩ := admits_frame hline h.isPlaced hlink hadmitted
  exact ⟨hadmits.signOns, c, getElem?_of_admits_length hadmits, hname⟩

theorem frame_of_refused (hfree : w.connectionOf? l = none)
    (hrefused : f.signOn?.bind w.server.directory.lookup = none) :
    (w.step (.frame l f)).server = w.server ∧ (w.step (.frame l f)).signOns = w.signOns := by
  obtain ⟨link, hline⟩ := exists_of_isUp hup
  have hlink : link.connection? = none := (connectionOf?_of_line hline).symm.trans hfree
  have hframe : w.step (.frame l f) = _ := frame_of_line hline
  obtain ⟨hserver, hafter⟩ := Link.onFrame_of_refused w.server w.now hlink hrefused
  rw [hframe, hserver]
  refine ⟨rfl, ?_⟩
  show w.signOns ++ newSignOns l link _ = _
  rw [newSignOns, hlink, hafter, List.append_nil]

theorem frame_signOn_again {requested : String} (htaken : w.connectionOf? l = some p)
    (hc : w.server.connections[p]? = some c) (hrequested : f.signOn? = some requested) :
    w.step (.frame l f) = { w with
      server := w.server.put p ((c.setRx f.tx).sweep w.server.transfers.limits w.now).1 } := by
  obtain ⟨link, hline⟩ := exists_of_isUp hup
  have hlink : link.connection? = some p := (connectionOf?_of_line hline).symm.trans htaken
  -- the link is as it was, and nobody new has signed on
  have hlines : w.lines.set l ⟨link, true⟩ = w.lines := by
    obtain ⟨hlt, hthere⟩ := List.getElem?_eq_some_iff.mp hline
    rw [← hthere, List.set_getElem_self]
  have hnew : newSignOns l link link = [] := by
    rw [newSignOns, hlink]
  have hframe : w.step (.frame l f) = _ := frame_of_line hline
  rw [hframe, Link.onFrame_signOn_again w.now hlink hc hrequested, put]
  dsimp only
  rw [hlines, hnew, List.append_nil]

theorem server_tearDown (htaken : w.connectionOf? l = some p)
    (hc : w.server.connections[p]? = some c) :
    (w.step (.tearDown l)).server =
      ((w.server.put p c.close).unregister c.identity c.id).1 := by
  obtain ⟨link, hline⟩ := exists_of_isUp hup
  have hlink : link.connection? = some p := (connectionOf?_of_line hline).symm.trans htaken
  show (w.tearDown l).server = _
  rw [tearDown_of_line hline, Link.teardown_of_connection hlink hc]

end Next

theorem IsOrderly.proceeds (h : w.IsOrderly) (hcount : w.server.connections.length ≤ UInt64.size) :
    w.Proceeds where
  closes s p c c' hc hc' hopen hclosing :=
    (remains_of_move (move h.isPlaced s) hc hc').emptied hopen hclosing
  leaves l p c hup htaken hc := by
    rw [server_tearDown hup htaken hc]
    refine ⟨?_, h.get?_unregister hcount hc⟩
    rw [Server.unregister_eq]
    rfl
  admits l f screenName hup hfree hadmitted := h.frame_of_admitted hup hfree hadmitted
  refuses l f hup hfree hrefused := frame_of_refused hup hfree hrefused
  again l p c f requested hup htaken hc hrequested := frame_signOn_again hup htaken hc hrequested

end World

/-- In every run of links with no more than 2⁶⁴ sign-ons, whatever else happens to their connections, the
registry has one connection under each identity, that of the latest sign-on, until its link is taken
down; and every next step treats connections as `World.Proceeds` says. -/
theorem latest_sign_on_online (links : LinkLimits) (limits : TransferLimits) (directory : Directory)
    (store : Store) (steps : List Step)
    (hcount : ((World.start links limits directory store).run steps).signOns.length ≤ UInt64.size) :
    ((World.start links limits directory store).run steps).IsSettled ∧
      ((World.start links limits directory store).run steps).Proceeds := by
  have h := (World.isOrderly_start links limits directory store).run steps hcount
  have hconnections := hcount
  rw [h.length_signOns] at hconnections
  exact ⟨h.isSettled, h.proceeds hconnections⟩

/-- Somebody signs on under the name of a client that is online. -/
def twice : World :=
  (World.start ⟨4, 8⟩ ⟨100, 1000, 256⟩ (.ofNames []) (.memory .empty)).run
    [.comeUp, .frame 0 ((ClientMessage.signOn "Ann").frame 16 0), .comeUp,
      .frame 1 ((ClientMessage.signOn " ANN").frame 16 0)]

/-- The first client is evicted, and taking its link down later leaves the second one online. -/
theorem latest_sign_on_online_twice :
    twice.signOns.length ≤ UInt64.size ∧ twice.latest? "ann" = some ⟨1, 1⟩ ∧
      twice.server.registry.get? "ann" = some 1 ∧
      (∃ c, twice.server.connections[0]? = some c ∧ c.closing = true ∧ c.pacer.closed = true) ∧
      (twice.step (.tearDown 0)).server.registry.get? "ann" = some 1 := by
  have hcount : twice.signOns.length ≤ UInt64.size := by decide +kernel
  have hlatest : twice.latest? "ann" = some ⟨1, 1⟩ := by decide +kernel
  have hup : twice.isUp 0 = true ∧ twice.isUp 1 = true ∧ twice.connectionOf? 0 = some 0 := by
    decide +kernel
  have hfirst : twice.server.connections[0]?.any (fun c => identityOf c.screenName = "ann") = true := by
    decide +kernel
  obtain ⟨c, hc, hidentity⟩ := (Option.any_eq_true _ _).mp hfirst
  have hidentity : identityOf c.screenName = "ann" := of_decide_eq_true hidentity
  obtain ⟨hsettled, hproceeds⟩ : twice.IsSettled ∧ twice.Proceeds :=
    latest_sign_on_online _ _ _ _ _ hcount
  have honline : twice.server.registry.get? "ann" = some 1 := by
    rw [hsettled.latest, hlatest, Option.filter_some, hup.2.1]
    rfl
  have hne : some 1 ≠ some 0 := by decide
  refine ⟨hcount, hlatest, honline, ⟨c, hc, hsettled.evicted 0 c hc ?_⟩, ?_⟩
  · rw [hidentity, honline]
    exact hne
  · rw [(hproceeds.leaves 0 0 c hup.1 hup.2.2 hc).2, honline, if_neg hne]

/-- A client has left a download waiting for longer than the limit. -/
def waiting : World :=
  (World.start ⟨4, 8⟩ ⟨100, 1000, 256⟩ (.ofNames []) (.memory .empty)).run
    [.comeUp, .frame 0 ((ClientMessage.signOn "Ann").frame 16 0),
      .operate 0 (.initiateDownload "notes.txt" [1, 2, 3]), .advance 1000]

/-- A later sign-on can change the connection: a download that has been idle expires. -/
theorem download_expires_on_later_sign_on :
    let later : Frame := (ClientMessage.signOn "Ann").frame 17 0
    waiting.isUp 0 = true ∧ waiting.connectionOf? 0 = some 0 ∧ later.signOn? = some "Ann" ∧
      waiting.server.connections[0]?.any (·.transfers.download.active.isSome) = true ∧
      (waiting.step (.frame 0 later)).server.connections[0]?.any
        (·.transfers.download.active.isSome) = false ∧
      (waiting.step (.frame 0 later)).server ≠ waiting.server := by
  intro later
  have hbefore : waiting.server.connections[0]?.any (·.transfers.download.active.isSome) = true := by
    decide +kernel
  have hafter : (waiting.step (.frame 0 later)).server.connections[0]?.any
      (·.transfers.download.active.isSome) = false := by
    decide +kernel
  refine ⟨by decide +kernel, by decide +kernel, by decide +kernel, hbefore, hafter, fun heq => ?_⟩
  rw [heq, hbefore] at hafter
  cases hafter

end Switchboard.Presence
