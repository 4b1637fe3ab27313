import Switchboard.Proofs.Dispatch.Basic
import Switchboard.Proofs.Pacer
import Switchboard.Proofs.Transfer.Delivery

/-!
# How large chunks are

Streams are cut into chunks whose payload keeps to the limit for frames.  Files are cut by another
rule, which reckons with at least one byte of the file in each segment and does not look at the end
marker: just above the smallest limit these chunks are larger.

Main results:

* `Script.payloadLength_of_compile`: the chunks of a script keep to the limit.
* `Dispatch.isSized_of_carriedBy`: so do those of a transfer, but for segments and end markers under
  the smallest limits.
-/

namespace Switchboard

namespace Chunk

variable {limit : Nat}

-- ---------------------------------------------------------------------------
-- Streams
-- ---------------------------------------------------------------------------

/-- Chunks of a stream keep to the limit. -/
theorem payloadLength_of_ofStream {token : Token} {streamId : UInt16} {encoded : Encoded}
    {label : String} {chunks : List Chunk}
    (h : ofStream token streamId encoded limit label = .ok chunks) :
    ∀ chunk ∈ chunks, chunk.payloadLength ≤ limit := by
  unfold ofStream at h
  split at h
  · next hlimit =>
    cases h
    intro chunk hmem
    have hbody := length_of_mem_cut (List.forall_mem_nil _) _ (body_of_mem_number hmem)
    rw [payloadLength]
    simp only [headLength, maxHeader] at hlimit hbody ⊢
    omega
  · cases h

-- ---------------------------------------------------------------------------
-- Files
-- ---------------------------------------------------------------------------

/-- No piece of a file is larger than asked for. -/
theorem length_of_mem_pieces {size : Nat} (hsize : 0 < size) {done : List Bytes} {data : Bytes}
    (hdone : ∀ piece ∈ done, piece.length ≤ size) :
    ∀ piece ∈ pieces size done data, piece.length ≤ size := by
  fun_induction pieces size done data with
  | case1 done => exact fun piece hmem => hdone piece (List.mem_reverse.mp hmem)
  | case2 done byte rest ih =>
    refine ih (List.forall_mem_cons.mpr ⟨?_, hdone⟩)
    rw [List.length_cons, List.length_take]
    omega

/-- A file that is no larger than a piece stays in one. -/
theorem pieces_of_length_le {size : Nat} {data : Bytes} (hdata : data ≠ [])
    (h : data.length ≤ size) : pieces size [] data = [data] := by
  obtain ⟨byte, rest, rfl⟩ := List.exists_cons_of_ne_nil hdata
  have hrest : rest.length ≤ size - 1 := Nat.le_sub_one_of_lt h
  rw [pieces, List.take_of_length_le hrest, List.drop_of_length_le hrest, pieces]
  rfl

/-- The sizes of the smallest segment, with one byte of the file, and of an end marker. -/
def leastSegment : Nat := headLength + segmentHead + 1

@[inherit_doc leastSegment]
def endMarker : Nat := headLength + segmentHead + 4

/-- A chunk of a download that is larger than the limit. -/
inductive IsOversized (limit : Nat) (chunk : Chunk) : Prop where
  | segment (token : chunk.token = .downloadData) (size : chunk.payloadLength = leastSegment)
      (room : Script.FitsFrames limit) (small : limit < leastSegment)
  | ending (token : chunk.token = .downloadEnd) (size : chunk.payloadLength = endMarker)
      (room : Script.FitsFrames limit) (small : limit < endMarker)

/-- A chunk that keeps to the limit, or is one of those that downloads make too large. -/
def IsSized (limit : Nat) (chunk : Chunk) : Prop :=
  chunk.payloadLength ≤ limit ∨ chunk.IsOversized limit

/-- In a limit that frames keep to, every chunk can be framed. -/
theorem IsSized.fitsFrame {chunk : Chunk} (h : chunk.IsSized limit)
    (hlimit : limit ≤ maxFramePayload) : chunk.FitsFrame := by
  rw [FitsFrame]
  rcases h with hle | ⟨-, hsize, -, -⟩ | ⟨-, hsize, -, -⟩
  · exact hle.trans hlimit
  · rw [hsize]
    decide
  · rw [hsize]
    decide

theorem payloadLength_segment (streamId : UInt16) (id : UInt32) (piece : Bytes) :
    (single .downloadData streamId (downloadSegment id piece) "xfer_download").payloadLength =
      headLength + segmentHead + piece.length := by
  rw [payloadLength, single, downloadSegment, List.length_append, ← Nat.add_assoc]
  rfl

section Downloads

variable {streamId : UInt16} {id : UInt32} {data : Bytes} {chunk : Chunk}

/-- A download consists of segments, which hold at least one byte and take what room there is, and of
an end marker. -/
theorem size_of_mem_downloadChunks (h : chunk ∈ downloadChunks limit streamId id data) :
    (chunk.token = .downloadData ∧ leastSegment ≤ chunk.payloadLength ∧
      chunk.payloadLength ≤ max limit leastSegment) ∨
    (chunk.token = .downloadEnd ∧ chunk.payloadLength = endMarker) := by
  rcases List.mem_append.mp h with hsegment | hend
  · obtain ⟨piece, hpiece, rfl⟩ := List.mem_map.mp hsegment
    have hone : 0 < segmentRoom limit := Nat.lt_of_lt_of_le Nat.one_pos (Nat.le_max_left ..)
    have hle := length_of_mem_pieces hone (List.forall_mem_nil _) piece hpiece
    have hne := List.length_pos_iff.mpr (ne_nil_of_mem_pieces (List.forall_mem_nil _) piece hpiece)
    have hsize := payloadLength_segment streamId id piece
    refine .inl ⟨rfl, ?_⟩
    simp only [hsize, leastSegment, segmentRoom] at *
    omega
  · rw [List.mem_singleton.mp hend]
    exact .inr ⟨rfl, rfl⟩

/-- The chunks of a download keep to the limit, but for small limits. -/
theorem isSized_of_mem_downloadChunks (hlimit : Script.FitsFrames limit)
    (h : chunk ∈ downloadChunks limit streamId id data) : chunk.IsSized limit := by
  rcases size_of_mem_downloadChunks h with ⟨htoken, hleast, hmost⟩ | ⟨htoken, hsize⟩
  · by_cases hsmall : limit < leastSegment
    · rw [Nat.max_eq_right (Nat.le_of_lt hsmall)] at hmost
      exact .inr (.segment htoken (Nat.le_antisymm hmost hleast) hlimit hsmall)
    · rw [Nat.max_eq_left (Nat.le_of_not_lt hsmall)] at hmost
      exact .inl hmost
  · by_cases hsmall : limit < endMarker
    · exact .inr (.ending htoken hsize hlimit hsmall)
    · exact .inl (by rw [hsize]; exact Nat.le_of_not_lt hsmall)

end Downloads

end Chunk

/-- The chunks of a script keep to the limit. -/
theorem Script.payloadLength_of_compile {script : Script} {limit : Nat} {streamId : UInt16}
    {label : String} {chunks : List Chunk} (h : script.compile limit streamId label = .ok chunks) :
    ∀ chunk ∈ chunks, chunk.payloadLength ≤ limit := by
  obtain ⟨flat, encoded, -, -, hchunks⟩ := compile_eq_ok_iff.mp h
  exact Chunk.payloadLength_of_ofStream hchunks

namespace Dispatch

variable {limit : Nat} {chunks : List Chunk}

/-- What clients are told about transfers keeps to the limit, but for small limits. -/
theorem isSized_of_carriedBy {d : Dispatch} (h : d.CarriedBy limit chunks)
    (hlimit : d.isScene = false → Script.FitsFrames limit) :
    ∀ chunk ∈ chunks, chunk.IsSized limit := by
  cases hscene : d.isScene with
  | true =>
    obtain ⟨streamId, label, script, -, hcompile⟩ := build_of_carriedBy h hscene
    exact fun chunk hmem => .inl (Script.payloadLength_of_compile hcompile chunk hmem)
  | false =>
    cases d with
    | file id data =>
      obtain ⟨streamId, rfl⟩ := h
      exact fun chunk hmem => Chunk.isSized_of_mem_downloadChunks (hlimit hscene) hmem
    | _ => cases hscene

/-- Each of the batches in which dispatches were sent holds one of them. -/
theorem exists_of_mem_batches {ds : List Dispatch} {batches : List (List Chunk)}
    (h : List.Forall₂ (fun d chunks => d.CarriedBy limit chunks) ds batches)
    (hmem : chunks ∈ batches) : ∃ d ∈ ds, d.CarriedBy limit chunks := by
  induction h with
  | nil => cases hmem
  | cons hfirst _ ih =>
    rcases List.mem_cons.mp hmem with rfl | hrest
    · exact ⟨_, List.mem_cons_self, hfirst⟩
    · obtain ⟨d, hd, hcarried⟩ := ih hrest
      exact ⟨d, List.mem_cons_of_mem _ hd, hcarried⟩

end Dispatch

end Switchboard
