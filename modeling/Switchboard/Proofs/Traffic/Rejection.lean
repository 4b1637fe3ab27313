import Mathlib.Data.List.TakeDrop
import Switchboard.Link
import Switchboard.Proofs.Dispatch.Notice
import Switchboard.Proofs.Traffic.Size

/-!
# Rejections

A client that is not admitted is told so in one burst, and then its link is hung up.  What the burst
does not take never leaves, since nobody looks after its queue any more.  So the message arrives as a
whole only if it fits into a burst and into the channel; otherwise it breaks off.

Main results:

* `Link.areMessage_of_rejectionChunks`: the message ends with a chunk that says so.
* `Link.rejection_sent`: how much of it leaves.
* `Link.rejection_breaks_off`: it does not always leave as a whole.
-/

namespace Switchboard

/-- Of a whole message the part at the front has no chunk that ends it, unless it is all of it. -/
theorem Chunk.AreMessage.eq_or_unfinished {chunks front : List Chunk} (h : AreMessage chunks)
    (hfront : front <+: chunks) : front = chunks ∨ ∀ chunk ∈ front, chunk.last = false := by
  obtain ⟨earlier, final, rfl, -, hearlier⟩ := h
  rcases List.prefix_concat_iff.mp hfront with rfl | hshorter
  · exact .inl rfl
  · exact .inr fun chunk hmem => hearlier chunk (hshorter.subset hmem)

namespace Link

/-- What a client is told that is not admitted. -/
def rejectionLines (requested : String) : List Line :=
  [⟨"async_alert", [.int 1, .str ("\"" ++ requested ++ "\" is not a registered screen name.")]⟩,
    ⟨"uni_wait_off", []⟩]

theorem isPlain_rejectionLines (requested : String) :
    ∀ l ∈ rejectionLines requested, l.IsPlain := by
  simp [rejectionLines, Line.IsPlain, Operand.type]

variable {limit : Nat} {requested : String} {chunks : List Chunk}

/-- The message is compiled from its lines. -/
theorem exists_build_of_rejectionChunks (h : rejectionChunks limit requested = .ok chunks) :
    ∃ script, ((rejectionLines requested).foldl Builder.line Builder.empty.stream).endStream.build =
        .ok script ∧ script.compile limit 1 "sign_on_rejected" = .ok chunks := by
  rw [rejectionChunks] at h
  exact bind_eq_ok_iff.mp h

/-- What a client reads if it gets the whole message. -/
theorem read_of_rejectionChunks (h : rejectionChunks limit requested = .ok chunks) :
    ∃ read, Atom.decodeStream (Chunk.reassemble chunks) = .ok read ∧
      read.map Atom.toLine =
        Line.opening :: ((rejectionLines requested).map Line.kept ++ [Line.closing]) := by
  obtain ⟨script, hbuild, hcompile⟩ := exists_build_of_rejectionChunks h
  obtain ⟨atoms, hmakes, rfl⟩ := Builder.makes_of_build hbuild
  exact Script.lines_of_compile hmakes (isPlain_rejectionLines requested) hcompile

/-- The message ends with a chunk that says so, and no other chunk does. -/
theorem areMessage_of_rejectionChunks (h : rejectionChunks limit requested = .ok chunks) :
    Chunk.AreMessage chunks := by
  obtain ⟨script, -, hcompile⟩ := exists_build_of_rejectionChunks h
  obtain ⟨read, hread, hlines⟩ := read_of_rejectionChunks h
  refine Chunk.areMessage_of_compile hcompile hread ?_
  rintro rfl
  cases hlines

theorem fitsFrame_of_rejectionChunks (h : rejectionChunks limit requested = .ok chunks)
    (hlimit : limit ≤ maxFramePayload) : ∀ chunk ∈ chunks, chunk.FitsFrame := by
  obtain ⟨script, -, hcompile⟩ := exists_build_of_rejectionChunks h
  exact fun chunk hmem => (Script.payloadLength_of_compile hcompile chunk hmem).trans hlimit

-- ---------------------------------------------------------------------------
-- One burst
-- ---------------------------------------------------------------------------

/-- The chunks of a message that leave in one burst into a channel: those at the front that fit frames,
as many as the burst may hold and the channel has places for. -/
def leaving (burst : Nat) (outbound : Channel) (chunks : List Chunk) : List Chunk :=
  if outbound.received then (chunks.filter (·.FitsFrame)).take (min burst outbound.room) else []

/-- A rejection puts into the channel what leaves in one burst. -/
theorem frames_reject (server : Server) (outbound : Channel) (rx : UInt8)
    (h : rejectionChunks server.framePayload requested = .ok chunks) :
    (reject server outbound rx requested).frames = outbound.frames ++
      (Chunk.framesAfter rx Frame.lastSeq (leaving server.links.burst outbound chunks)).map
        Frame.bytes := by
  let pacer : Pacer := ⟨server.links.burst, chunks, Frame.lastSeq, rx, false⟩
  have hreject : reject server outbound rx requested =
      (pacer.drain outbound server.links.burst).2.1 := by
    -- its equation is not asked for: proving that would evaluate the message
    delta reject
    rw [h]
    rfl
  have hsent : (pacer.drain outbound server.links.burst).2.2 =
      leaving server.links.burst outbound chunks := by
    rw [leaving]
    cases hreceived : outbound.received with
    | true => exact Pacer.sent_drain_of_open rfl hreceived server.links.burst
    | false => exact congrArg Prod.snd (pacer.sent_drain_of_abandoned hreceived server.links.burst)
  rw [hreject, (pacer.sent_drain outbound server.links.burst).2, hsent]

variable {burst : Nat} {outbound : Channel}

theorem leaving_eq_nil_iff : leaving burst outbound chunks = [] ↔
    outbound.received = false ∨ burst = 0 ∨ outbound.room = 0 ∨
      ∀ chunk ∈ chunks, ¬chunk.FitsFrame := by
  rw [leaving]
  cases outbound.received with
  | false => simp
  | true =>
    have hmin : min burst outbound.room = 0 ↔ burst = 0 ∨ outbound.room = 0 := by omega
    simp [List.take_eq_nil_iff, hmin, or_assoc]

theorem leaving_eq_self_iff (hchunks : chunks ≠ []) : leaving burst outbound chunks = chunks ↔
    outbound.received = true ∧ (∀ chunk ∈ chunks, chunk.FitsFrame) ∧
      chunks.length ≤ burst ∧ chunks.length ≤ outbound.room := by
  rw [leaving]
  cases outbound.received with
  | false => simpa using hchunks.symm
  | true =>
    rw [if_pos rfl]
    have hself (h : ∀ chunk ∈ chunks, chunk.FitsFrame) : chunks.filter (·.FitsFrame) = chunks :=
      List.filter_eq_self.mpr (by simpa using h)
    constructor
    · intro h
      have hfits : ∀ chunk ∈ chunks, chunk.FitsFrame := by
        intro chunk hmem
        rw [← h] at hmem
        simpa using (List.mem_filter.mp (List.mem_of_mem_take hmem)).2
      rw [hself hfits, List.take_eq_self_iff] at h
      exact ⟨rfl, hfits, by omega, by omega⟩
    · rintro ⟨-, hfits, hburst, hroom⟩
      rw [hself hfits, List.take_eq_self_iff]
      omega

/-- A message of which all chunks fit frames leaves as a whole, or the chunk that ends it stays. -/
theorem leaving_eq_or_of_fitsFrame (h : Chunk.AreMessage chunks)
    (hfits : ∀ chunk ∈ chunks, chunk.FitsFrame) :
    leaving burst outbound chunks = chunks ∨
      ∀ chunk ∈ leaving burst outbound chunks, chunk.last = false := by
  refine h.eq_or_unfinished ?_
  rw [leaving, List.filter_eq_self.mpr (by simpa using hfits)]
  split
  · exact List.take_prefix _ _
  · exact List.nil_prefix

/-- A client that the directory does not know is hung up on.  Whatever the limits of the server are and
whatever is in the channel: if the message for the client can be compiled, what leaves of it is what one
burst takes.  That is all of it or nothing only if the channel is not received from, if the burst may
hold nothing, if the channel has no place, if no chunk fits a frame, or if all chunks fit frames, the
burst and the channel together.  Of a message that breaks off, the chunk that ends it never leaves, if
frames can hold what the limit allows. -/
theorem rejection_sent (server : Server) (link : Link) (outbound : Channel) (rx : UInt8)
    (requested : String) (hrefused : server.directory.lookup requested = none) :
    let after := reject server outbound rx requested
    signOn server link outbound rx requested =
        (server, { link with phase := .greeting after rx }, .hangUp) ∧
      (∀ error, rejectionChunks server.framePayload requested = .error error → after = outbound) ∧
      ∀ chunks, rejectionChunks server.framePayload requested = .ok chunks →
        let sent := leaving server.links.burst outbound chunks
        after.frames =
            outbound.frames ++ (Chunk.framesAfter rx Frame.lastSeq sent).map Frame.bytes ∧
          (sent = [] ∨ sent = chunks ↔
            outbound.received = false ∨ server.links.burst = 0 ∨ outbound.room = 0 ∨
              (∀ chunk ∈ chunks, ¬chunk.FitsFrame) ∨
              (∀ chunk ∈ chunks, chunk.FitsFrame) ∧ chunks.length ≤ server.links.burst ∧
                chunks.length ≤ outbound.room) ∧
          Chunk.AreMessage chunks ∧
          (server.framePayload ≤ maxFramePayload →
            sent = chunks ∨ ∀ chunk ∈ sent, chunk.last = false) := by
  intro after
  refine ⟨?_, fun error herror => ?_, fun chunks hchunks => ?_⟩
  · rw [signOn, hrefused]
  · show reject server outbound rx requested = outbound
    delta reject
    rw [herror]
  · intro sent
    have hmessage := areMessage_of_rejectionChunks hchunks
    have hne : chunks ≠ [] := by
      obtain ⟨earlier, final, rfl, -, -⟩ := hmessage
      exact List.append_ne_nil_of_right_ne_nil earlier (List.cons_ne_nil final [])
    refine ⟨frames_reject server outbound rx hchunks, ?_, hmessage, fun hlimit => ?_⟩
    · rw [leaving_eq_nil_iff, leaving_eq_self_iff hne]
      cases outbound.received <;> simp [or_assoc]
    · exact leaving_eq_or_of_fitsFrame hmessage (fitsFrame_of_rejectionChunks hchunks hlimit)

/-- A server that admits one client, with the given limit for bursts and frames of 30 bytes. -/
def guarded (burst : Nat) : Server :=
  .new ⟨burst, 8⟩ ⟨100, 1000, 30⟩ (.ofNames ["guest"]) (.memory .empty)

theorem lookup_guarded (burst : Nat) : (guarded burst).directory.lookup "nobody" = none := by
  show (Directory.ofNames ["guest"]).lookup "nobody" = none
  decide +kernel

theorem exists_chunks_of_nobody :
    ∃ chunks, rejectionChunks 30 "nobody" = .ok chunks ∧ chunks.length = 3 ∧
      ∀ chunk ∈ chunks, chunk.FitsFrame := by
  have hcompiled : (rejectionChunks 30 "nobody").toOption.any (·.length = 3) = true := by
    decide +kernel
  obtain ⟨chunks, hchunks, hlength⟩ := exists_of_any hcompiled
  exact ⟨chunks, hchunks, of_decide_eq_true hlength,
    fitsFrame_of_rejectionChunks hchunks (by decide)⟩

/-- Under the usual limit for bursts the message leaves as a whole. -/
theorem rejection_sent_nobody :
    (guarded 16).directory.lookup "nobody" = none ∧
    ∃ chunks, rejectionChunks 30 "nobody" = .ok chunks ∧ chunks.length = 3 ∧
      (reject (guarded 16) (.new 8) 16 "nobody").frames =
        (Chunk.framesAfter 16 Frame.lastSeq chunks).map Frame.bytes := by
  obtain ⟨chunks, hchunks, hlength, hfits⟩ := exists_chunks_of_nobody
  have hrefused := lookup_guarded 16
  obtain ⟨hframes, -⟩ :=
    (rejection_sent (guarded 16) (.new 8) (.new 8) 16 "nobody" hrefused).2.2 chunks hchunks
  have hall : leaving (guarded 16).links.burst (.new 8) chunks = chunks := by
    refine (leaving_eq_self_iff (List.ne_nil_of_length_eq_add_one hlength)).mpr ⟨rfl, hfits, ?_, ?_⟩
    · rw [hlength]
      decide
    · rw [hlength]
      decide
  rw [hall] at hframes
  exact ⟨hrefused, chunks, hchunks, hlength, hframes⟩

/-- With bursts of one chunk it breaks off after the first one, and the link is hung up. -/
theorem rejection_breaks_off :
    (signOn (guarded 1) (.new 8) (.new 8) 16 "nobody").2.2 = .hangUp ∧
    ∃ chunks, rejectionChunks 30 "nobody" = .ok chunks ∧ chunks.length = 3 ∧
      (reject (guarded 1) (.new 8) 16 "nobody").frames =
        (Chunk.framesAfter 16 Frame.lastSeq (chunks.take 1)).map Frame.bytes ∧
      ∀ chunk ∈ chunks.take 1, chunk.last = false := by
  obtain ⟨chunks, hchunks, hlength, hfits⟩ := exists_chunks_of_nobody
  have hfirst : leaving (guarded 1).links.burst (.new 8) chunks = chunks.take 1 := by
    rw [leaving, List.filter_eq_self.mpr (by simpa using hfits)]
    rfl
  have hframes := frames_reject (guarded 1) (.new 8) 16 hchunks
  rw [hfirst] at hframes
  refine ⟨?_, chunks, hchunks, hlength, hframes, ?_⟩
  · rw [signOn, lookup_guarded]
  · refine ((areMessage_of_rejectionChunks hchunks).eq_or_unfinished (List.take_prefix 1 _)).resolve_left
      fun hwhole => ?_
    have hone := congrArg List.length hwhole
    rw [List.length_take, hlength] at hone
    cases hone

end Link

end Switchboard
