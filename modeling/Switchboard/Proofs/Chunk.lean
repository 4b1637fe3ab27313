import Switchboard.Chunk
import Switchboard.Proofs.Except

/-!
# The bytes of chunks

Main results:

* `Chunk.reassemble_of_ofStream`: the bodies of the chunks of a stream, one after the other, are its
  bytes.
* `Chunk.length_of_mem_cut`: no piece of a stream is larger than the capacity.
* `Chunk.succeeds_ofStream_iff`: a stream is refused only if frames are too small for a header.
* `Chunk.head_of_ofStream`: all chunks of a stream travel under its token and its id.
-/

namespace Switchboard.Chunk

/-- Cutting loses nothing and keeps the order. -/
theorem flatten_cut (capacity : Nat) (positive : 0 < capacity) (pos : Nat) (spans : List Span)
    (done : List Bytes) (rest : Bytes) :
    (cut capacity positive pos spans done rest).flatten = done.reverse.flatten ++ rest := by
  induction pos, spans, done, rest using cut.induct capacity positive with
  | case1 pos spans done => rw [cut, List.append_nil]
  | case2 pos spans done byte more rest stop later size ih =>
    -- the piece joins those before it, and what is left to cut follows
    rw [cut, ih, List.reverse_cons, List.flatten_append, List.flatten_singleton, List.append_assoc,
      List.take_append_drop]

theorem reassemble_number (token : Token) (streamId : UInt16) (label : String) (index : Nat)
    (bodies : List Bytes) :
    reassemble (number token streamId label index bodies) = bodies.flatten := by
  induction index, bodies using number.induct with
  | case1 index => rfl
  | case2 index body =>
    rw [number, reassemble, List.flatMap_singleton, List.flatten_singleton]
  | case3 index body next rest ih =>
    rw [reassemble] at ih
    rw [number, reassemble, List.flatMap_cons, ih]
    rfl

theorem head_of_mem_number {token : Token} {streamId : UInt16} {label : String} {index : Nat}
    {bodies : List Bytes} {chunk : Chunk}
    (h : chunk ∈ number token streamId label index bodies) :
    chunk.token = token ∧ chunk.streamId = streamId := by
  induction index, bodies using number.induct with
  | case1 index => cases h
  | case2 index body =>
    rw [List.mem_singleton.mp h]
    exact ⟨rfl, rfl⟩
  | case3 index body next rest ih =>
    rcases List.mem_cons.mp h with rfl | hrest
    · exact ⟨rfl, rfl⟩
    · exact ih hrest

theorem pieceSize_le (pos stop : Nat) (spans : List Span) : pieceSize pos stop spans ≤ stop - pos := by
  unfold pieceSize
  split
  · exact Nat.le_refl _
  · split <;> omega

/-- No piece of a stream is larger than the capacity. -/
theorem length_of_mem_cut {capacity : Nat} {positive : 0 < capacity} {pos : Nat} {spans : List Span}
    {done : List Bytes} {rest : Bytes} (hdone : ∀ piece ∈ done, piece.length ≤ capacity) :
    ∀ piece ∈ cut capacity positive pos spans done rest, piece.length ≤ capacity := by
  induction pos, spans, done, rest using cut.induct capacity positive with
  | case1 pos spans done =>
    rw [cut]
    exact fun piece hmem => hdone piece (List.mem_reverse.mp hmem)
  | case2 pos spans done byte more rest stop later size ih =>
    rw [cut]
    refine ih (List.forall_mem_cons.mpr ⟨?_, hdone⟩)
    -- a piece reaches at most to where the capacity ends
    have hsize : size ≤ stop - pos := pieceSize_le pos stop later
    have hstop : stop = pos + (rest.take capacity).length := rfl
    rw [List.length_take] at hstop ⊢
    omega

theorem body_of_mem_number {token : Token} {streamId : UInt16} {label : String} {index : Nat}
    {bodies : List Bytes} {chunk : Chunk}
    (h : chunk ∈ number token streamId label index bodies) : chunk.body ∈ bodies := by
  induction index, bodies using number.induct with
  | case1 index => cases h
  | case2 index body =>
    rw [List.mem_singleton.mp h]
    exact List.mem_singleton.mpr rfl
  | case3 index body next rest ih =>
    rcases List.mem_cons.mp h with rfl | hrest
    · exact List.mem_cons_self
    · exact List.mem_cons_of_mem _ (ih hrest)

variable {token : Token} {streamId : UInt16} {encoded : Encoded} {limit : Nat} {label : String}

/-- The chunks of a stream hold its bytes. -/
theorem reassemble_of_ofStream {chunks : List Chunk}
    (h : ofStream token streamId encoded limit label = .ok chunks) :
    reassemble chunks = encoded.bytes := by
  unfold ofStream at h
  split at h
  · cases h
    rw [reassemble_number, flatten_cut]
    rfl
  · cases h

/-- The chunks of a stream carry its token and its id. -/
theorem head_of_ofStream {chunks : List Chunk}
    (h : ofStream token streamId encoded limit label = .ok chunks) :
    ∀ chunk ∈ chunks, chunk.token = token ∧ chunk.streamId = streamId := by
  unfold ofStream at h
  split at h
  · cases h
    exact fun _ hmem => head_of_mem_number hmem
  · cases h

theorem succeeds_ofStream_iff :
    Succeeds (ofStream token streamId encoded limit label) ↔ headLength + maxHeader ≤ limit := by
  unfold ofStream
  split
  · next h => exact iff_of_true (succeeds_ok _) h
  · next h => exact iff_of_false (not_succeeds_error _) h

end Switchboard.Chunk
