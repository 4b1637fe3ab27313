import Mathlib.Algebra.Group.Nat.Defs
import Switchboard.Proofs.Atom.Spans
import Switchboard.Proofs.Chunk

/-!
# How a stream is cut

A piece of a stream reaches as far as the capacity goes, unless a header would be cut there: then it
ends before that header.  As a header always fits into a piece, cutting goes on, and no header comes to
lie in two pieces.

Main results:

* `Chunk.cut_keeps_headers`: no piece ends inside a header.
* `Chunk.chunks_of_encodeStream`: what the chunks of a stream are, and when there are none.
-/

namespace Switchboard.Chunk

-- ---------------------------------------------------------------------------
-- One piece
-- ---------------------------------------------------------------------------

/-- Where a piece that starts at `pos` ends if no header is in the way. -/
def reach (capacity pos : Nat) (rest : Bytes) : Nat :=
  pos + (rest.take capacity).length

/-- The spans of atoms whose header does not end by `stop`. -/
def ahead (stop : Nat) (spans : List Span) : List Span :=
  spans.dropWhile fun span => span.offset + span.headerLength ≤ stop

/-- The size of the piece that starts at `pos`. -/
def nextSize (capacity pos : Nat) (spans : List Span) (rest : Bytes) : Nat :=
  pieceSize pos (reach capacity pos rest) (ahead (reach capacity pos rest) spans)

section Piece

variable {capacity pos : Nat} {spans : List Span} {rest : Bytes}

theorem pos_lt_reach (positive : 0 < capacity) (hrest : rest ≠ []) : pos < reach capacity pos rest := by
  have hlength := List.length_pos_iff.mpr hrest
  rw [reach, List.length_take]
  omega

theorem nextSize_pos (positive : 0 < capacity) (pos : Nat) (spans : List Span)
    (hrest : rest ≠ []) :
    0 < nextSize capacity pos spans rest :=
  pieceSize_pos (pos_lt_reach positive hrest) _

theorem nextSize_le (capacity pos : Nat) (spans : List Span) (rest : Bytes) :
    nextSize capacity pos spans rest ≤ rest.length := by
  have hle := pieceSize_le pos (reach capacity pos rest) (ahead (reach capacity pos rest) spans)
  rw [reach, List.length_take] at hle
  rw [nextSize, reach, List.length_take]
  omega

/-- The header of the first atom ahead ends later. -/
theorem lt_of_ahead_eq_cons {stop : Nat} {first : Span} {others : List Span}
    (h : ahead stop spans = first :: others) : stop < first.offset + first.headerLength := by
  induction spans with
  | nil => cases h
  | cons s spans ih =>
    rw [ahead, List.dropWhile_cons] at h
    split at h
    · exact ih h
    · next hnot =>
      cases h
      rw [decide_eq_true_eq] at hnot
      exact Nat.lt_of_not_le hnot

/-- A piece ends after the headers that it leaves behind, and before those ahead. -/
theorem nextSize_keeps_headers (hcapacity : 4 ≤ capacity) (hrest : rest ≠ [])
    (hspans : AreWithin pos (pos + rest.length) spans) :
    (∀ s ∈ spans, s ∈ ahead (reach capacity pos rest) spans ∨
      s.offset + s.headerLength ≤ pos + nextSize capacity pos spans rest) ∧
    ∀ s ∈ ahead (reach capacity pos rest) spans,
      pos + nextSize capacity pos spans rest ≤ s.offset := by
  have hpos : pos < reach capacity pos rest := pos_lt_reach (by omega) hrest
  have hreach : reach capacity pos rest = pos + min capacity rest.length := by
    rw [reach, List.length_take]
  have hsplit : spans.takeWhile (fun s => s.offset + s.headerLength ≤ reach capacity pos rest) ++
      ahead (reach capacity pos rest) spans = spans := List.takeWhile_append_dropWhile
  have hbehind : ∀ s ∈ spans.takeWhile
      (fun s => s.offset + s.headerLength ≤ reach capacity pos rest),
      s.offset + s.headerLength ≤ reach capacity pos rest := by
    intro s hs
    have hend := List.mem_takeWhile_imp hs
    exact of_decide_eq_true hend
  cases hahead : ahead (reach capacity pos rest) spans with
  | nil =>
    rw [nextSize, hahead, pieceSize]
    rw [hahead, List.append_nil] at hsplit
    rw [hsplit] at hbehind
    refine ⟨fun s hs => .inr ?_, nofun⟩
    have hend := hbehind s hs
    omega
  | cons first others =>
    rw [hahead] at hsplit
    have hapart := hspans.apart
    rw [← hsplit] at hapart
    obtain ⟨-, hothers, hbetween⟩ := List.pairwise_append.mp hapart
    have hfirst : first ∈ spans := hsplit ▸ List.mem_append_right _ List.mem_cons_self
    have hlower := hspans.lower first hfirst
    have hupper := hspans.upper first hfirst
    have hheader := hspans.header first hfirst
    have hlate := lt_of_ahead_eq_cons hahead
    -- the piece ends where the first header ahead starts, or as far as it reaches, but before it
    have hsize : pos + nextSize capacity pos spans rest ≤ first.offset ∧
        (nextSize capacity pos spans rest = reach capacity pos rest - pos ∨
          pos + nextSize capacity pos spans rest = first.offset) := by
      rw [nextSize, hahead, pieceSize]
      split <;> omega
    refine ⟨fun s hs => ?_, fun s hs => ?_⟩
    · rw [← hsplit] at hs
      rcases List.mem_append.mp hs with hs | hs
      · have hbefore := hbetween s hs first List.mem_cons_self
        have hend := hbehind s hs
        refine .inr ?_
        omega
      · exact .inl hs
    · rcases List.mem_cons.mp hs with rfl | hs
      · exact hsize.1
      · have hafter := (List.pairwise_cons.mp hothers).1 s hs
        omega

/-- What is ahead lies in the rest of the stream. -/
theorem within_ahead (hcapacity : 4 ≤ capacity) (hrest : rest ≠ [])
    (hspans : AreWithin pos (pos + rest.length) spans) :
    AreWithin (pos + nextSize capacity pos spans rest)
      (pos + nextSize capacity pos spans rest +
        (rest.drop (nextSize capacity pos spans rest)).length)
      (ahead (reach capacity pos rest) spans) := by
  have hsublist : (ahead (reach capacity pos rest) spans).Sublist spans :=
    (List.dropWhile_suffix _).sublist
  have hend : pos + nextSize capacity pos spans rest +
      (rest.drop (nextSize capacity pos spans rest)).length = pos + rest.length := by
    have hle := nextSize_le capacity pos spans rest
    rw [List.length_drop]
    omega
  rw [hend]
  exact ⟨hspans.apart.sublist hsublist, fun s hs => hspans.header s (hsublist.subset hs),
    (nextSize_keeps_headers hcapacity hrest hspans).2,
    fun s hs => hspans.upper s (hsublist.subset hs)⟩

end Piece

-- ---------------------------------------------------------------------------
-- All pieces
-- ---------------------------------------------------------------------------

section Cut

variable {capacity : Nat} {positive : 0 < capacity} {pos : Nat} {spans : List Span} {rest : Bytes}

/-- Induction along the pieces, whatever was cut before. -/
theorem cut_induction (positive : 0 < capacity) {motive : Nat → List Span → Bytes → Prop}
    (nil : ∀ pos spans, motive pos spans [])
    (cons : ∀ pos spans rest, rest ≠ [] →
      motive (pos + nextSize capacity pos spans rest) (ahead (reach capacity pos rest) spans)
        (rest.drop (nextSize capacity pos spans rest)) → motive pos spans rest)
    (pos : Nat) (spans : List Span) (rest : Bytes) : motive pos spans rest :=
  cut.induct capacity positive (fun pos spans _ rest => motive pos spans rest)
    (fun pos spans _ => nil pos spans)
    (fun pos spans _ byte more ih => cons pos spans (byte :: more) (List.cons_ne_nil _ _) ih)
    pos spans [] rest

theorem cut_nil (pos : Nat) (spans : List Span) : cut capacity positive pos spans [] [] = [] := by
  rw [cut, List.reverse_nil]

/-- The first piece, and those that are cut from what is left. -/
theorem cut_eq_cons (hrest : rest ≠ []) :
    cut capacity positive pos spans [] rest =
      rest.take (nextSize capacity pos spans rest) ::
        cut capacity positive (pos + nextSize capacity pos spans rest)
          (ahead (reach capacity pos rest) spans) [] (rest.drop (nextSize capacity pos spans rest)) := by
  -- pieces that were cut before stand in front
  have honto (pos : Nat) (spans : List Span) (rest : Bytes) : ∀ done,
      cut capacity positive pos spans done rest =
        done.reverse ++ cut capacity positive pos spans [] rest := by
    induction pos, spans, rest using cut_induction positive with
    | nil pos spans =>
      intro done
      rw [cut, cut_nil, List.append_nil]
    | cons pos spans rest hrest ih =>
      intro done
      obtain ⟨byte, more, rfl⟩ := List.exists_cons_of_ne_nil hrest
      rw [cut, cut]
      refine (ih (_ :: done)).trans ?_
      rw [List.reverse_cons, List.append_assoc]
      exact congrArg (done.reverse ++ ·) (ih [_]).symm
  obtain ⟨byte, more, rfl⟩ := List.exists_cons_of_ne_nil hrest
  rw [cut, honto]
  rfl

theorem ne_nil_of_mem_cut : ∀ piece ∈ cut capacity positive pos spans [] rest, piece ≠ [] := by
  induction pos, spans, rest using cut_induction positive with
  | nil pos spans =>
    rw [cut_nil]
    exact nofun
  | cons pos spans rest hrest ih =>
    rw [cut_eq_cons hrest]
    refine List.forall_mem_cons.mpr ⟨?_, ih⟩
    have hsize := nextSize_pos positive pos spans hrest
    have hlength := List.length_pos_iff.mpr hrest
    refine List.ne_nil_of_length_pos ?_
    rw [List.length_take]
    omega

theorem length_le_flatten {pieces : List Bytes} (h : ∀ piece ∈ pieces, piece ≠ []) :
    pieces.length ≤ pieces.flatten.length := by
  induction pieces with
  | nil => exact Nat.le_refl 0
  | cons piece pieces ih =>
    have hrest := ih (fun p hp => h p (List.mem_cons_of_mem piece hp))
    have hpiece := List.length_pos_iff.mpr (h piece List.mem_cons_self)
    rw [List.flatten_cons, List.length_append, List.length_cons]
    omega

/-- What fits into one piece is not cut. -/
theorem cut_of_fits (hrest : rest ≠ []) (hfits : rest.length ≤ capacity)
    (hspans : AreWithin pos (pos + rest.length) spans) :
    cut capacity positive pos spans [] rest = [rest] := by
  have hreach : reach capacity pos rest = pos + rest.length := by
    rw [reach, List.take_of_length_le hfits]
  -- all headers end within the piece
  have hahead : ahead (reach capacity pos rest) spans = [] := by
    rw [ahead, List.dropWhile_eq_nil_iff, hreach]
    exact fun s hs => decide_eq_true (hspans.upper s hs)
  have hsize : nextSize capacity pos spans rest = rest.length := by
    rw [nextSize, hahead, pieceSize, hreach, Nat.add_sub_cancel_left]
  rw [cut_eq_cons hrest, hsize, List.take_length, List.drop_length, cut_nil]

/-- Where more than one piece is cut, one cannot hold everything. -/
theorem lt_length_of_cut (hspans : AreWithin pos (pos + rest.length) spans)
    {first piece : Bytes} {before after : List Bytes}
    (hcut : cut capacity positive pos spans [] rest = first :: before ++ piece :: after) :
    capacity < rest.length := by
  by_contra hsmall
  have hrest : rest ≠ [] := by
    rintro rfl
    rw [cut_nil] at hcut
    cases hcut
  rw [cut_of_fits hrest (Nat.le_of_not_lt hsmall) hspans] at hcut
  have hlength := congrArg List.length hcut
  simp only [List.length_append, List.length_cons, List.length_nil] at hlength
  omega

/-- No piece ends inside a header. -/
theorem cut_keeps_headers (hcapacity : 4 ≤ capacity)
    (hspans : AreWithin pos (pos + rest.length) spans) {before after : List Bytes}
    (hcut : cut capacity positive pos spans [] rest = before ++ after) :
    ∀ s ∈ spans, pos + before.flatten.length ≤ s.offset ∨
      s.offset + s.headerLength ≤ pos + before.flatten.length := by
  induction pos, spans, rest using cut_induction positive generalizing before with
  | nil pos spans =>
    rw [cut_nil] at hcut
    obtain ⟨rfl, -⟩ := List.append_eq_nil_iff.mp hcut.symm
    exact fun s hs => .inl (hspans.lower s hs)
  | cons pos spans rest hrest ih =>
    cases before with
    | nil => exact fun s hs => .inl (hspans.lower s hs)
    | cons piece before =>
      rw [cut_eq_cons hrest] at hcut
      obtain ⟨rfl, hothers⟩ := List.cons.inj hcut
      have hlater := ih (within_ahead hcapacity hrest hspans) hothers
      have hlength : (rest.take (nextSize capacity pos spans rest)).length =
          nextSize capacity pos spans rest := by
        rw [List.length_take, Nat.min_eq_left (nextSize_le ..)]
      intro s hs
      rw [List.flatten_cons, List.length_append, hlength, ← Nat.add_assoc]
      rcases (nextSize_keeps_headers hcapacity hrest hspans).1 s hs with hahead | hbehind
      · exact hlater s hahead
      · exact .inr (hbehind.trans (Nat.le_add_right ..))

end Cut

-- ---------------------------------------------------------------------------
-- Pieces as chunks
-- ---------------------------------------------------------------------------

section Number

variable {token : Token} {streamId : UInt16} {label : String} {index : Nat} {bodies : List Bytes}

theorem map_body_number : (number token streamId label index bodies).map (·.body) = bodies := by
  induction index, bodies using number.induct with
  | case1 index => rfl
  | case2 index body => rfl
  | case3 index body next rest ih =>
    rw [number, List.map_cons, ih]

theorem length_number : (number token streamId label index bodies).length = bodies.length := by
  rw [← List.length_map, map_body_number]

/-- A split of the chunks splits the pieces. -/
theorem bodies_of_number_eq_append {before after : List Chunk}
    (h : number token streamId label index bodies = before ++ after) :
    bodies = before.map (·.body) ++ after.map (·.body) := by
  rw [← List.map_append, ← h, map_body_number]

/-- The chunks are counted, and the final one is marked. -/
theorem getElem?_number (i : Nat) :
    (number token streamId label index bodies)[i]? = bodies[i]?.map fun body =>
      ⟨token, streamId, (UInt32.ofNat (index + i)).toNat, decide (i + 1 = bodies.length), body,
        label⟩ := by
  induction index, bodies using number.induct generalizing i with
  | case1 index => rfl
  | case2 index body => cases i <;> simp [number]
  | case3 index body next rest ih =>
    cases i with
    | zero => simp [number]
    | succ i =>
      rw [number, List.getElem?_cons_succ, ih]
      simp [Nat.add_comm, Nat.add_left_comm]

end Number

-- ---------------------------------------------------------------------------
-- The chunks of a stream
-- ---------------------------------------------------------------------------

/-- Chunks that carry the encoded form of atoms in frames with payloads of at most `limit` bytes. -/
structure Carry (token : Token) (streamId : UInt16) (label : String) (limit : Nat)
    (atoms : List Atom) (encoded : Encoded) (chunks : List Chunk) : Prop where
  whole : reassemble chunks = encoded.bytes
  sizes : ∀ chunk ∈ chunks, chunk.body ≠ [] ∧ chunk.body.length ≤ limit - headLength
  marks : ∀ chunk ∈ chunks,
    chunk.token = token ∧ chunk.streamId = streamId ∧ chunk.label = label
  count : ∀ i chunk, chunks[i]? = some chunk →
    chunk.index = (UInt32.ofNat i).toNat ∧ (chunk.last = true ↔ i + 1 = chunks.length)
  /-- The positions are 0, 1, 2 and so on, for all chunks that 32 bits can count. -/
  counted : ∀ i chunk, chunks[i]? = some chunk → i < 2 ^ 32 → chunk.index = i
  none : chunks = [] ↔ encoded.bytes = []
  /-- If 32 bits can count the bytes, they can count the chunks. -/
  few : chunks.length ≤ encoded.bytes.length
  /-- Wherever an atom stands, its bytes are there, and its header does not lie in two chunks. -/
  headers : ∀ (a : Atom) place, a.StandsAt place atoms →
    (∃ own, a.encode = .ok own ∧ own.bytes <+: encoded.bytes.drop place) ∧
    ∀ before after, chunks = before ++ after →
      (reassemble before).length ≤ place ∨ place + a.headerLength ≤ (reassemble before).length
  /-- Where the headers end can be counted in as many bits as the bytes. -/
  ends : ∀ span ∈ encoded.spans, span.offset + span.headerLength ≤ encoded.bytes.length
  /-- Where a chunk could end at most can be counted in 64 bits, for any limit of 64 bits. -/
  reaches : limit < 2 ^ 64 → encoded.bytes.length < 2 ^ 63 →
    ∀ before chunk after, chunks = before ++ chunk :: after →
      (reassemble before).length + (limit - headLength) < 2 ^ 64

section Stream

variable {atoms : List Atom} {encoded : Encoded} {token : Token} {streamId : UInt16} {limit : Nat}
  {label : String}

theorem reassemble_eq_flatten (chunks : List Chunk) :
    reassemble chunks = (chunks.map (·.body)).flatten :=
  List.flatMap_def

theorem carry_of_encodeStream (h : Atom.encodeStream atoms = .ok encoded)
    (positive : 0 < limit - headLength) (hlimit : headLength + maxHeader ≤ limit) :
    Carry token streamId label limit atoms encoded (number token streamId label 0
      (cut (limit - headLength) positive 0 encoded.spans [] encoded.bytes)) := by
  have hcapacity : 4 ≤ limit - headLength := by
    simp only [headLength, maxHeader] at hlimit ⊢
    omega
  have hwithin : AreWithin 0 (0 + encoded.bytes.length) encoded.spans := by
    rw [Nat.zero_add]
    exact Encoded.within_spans h
  have hwhole : reassemble (number token streamId label 0
      (cut (limit - headLength) positive 0 encoded.spans [] encoded.bytes)) = encoded.bytes := by
    rw [reassemble_number, flatten_cut]
    rfl
  refine ⟨hwhole, ?_, ?_, ?_, ?_, ?_, ?_, ?_, (Encoded.within_spans h).upper, ?_⟩
  · intro chunk hmem
    have hbody := body_of_mem_number hmem
    exact ⟨ne_nil_of_mem_cut _ hbody, length_of_mem_cut (List.forall_mem_nil _) _ hbody⟩
  · intro chunk hmem
    obtain ⟨i, hi⟩ := List.mem_iff_getElem?.mp hmem
    rw [getElem?_number] at hi
    obtain ⟨body, -, rfl⟩ := Option.map_eq_some_iff.mp hi
    exact ⟨rfl, rfl, rfl⟩
  · intro i chunk hi
    rw [getElem?_number, Nat.zero_add] at hi
    obtain ⟨body, -, rfl⟩ := Option.map_eq_some_iff.mp hi
    rw [length_number]
    exact ⟨rfl, decide_eq_true_iff⟩
  · intro i chunk hi hfew
    rw [getElem?_number, Nat.zero_add] at hi
    obtain ⟨body, -, rfl⟩ := Option.map_eq_some_iff.mp hi
    rw [UInt32.toNat_ofNat']
    exact Nat.mod_eq_of_lt hfew
  · constructor
    · intro hnil
      rw [← hwhole, hnil]
      rfl
    · intro hnil
      rw [hnil, cut_nil]
      rfl
  · rw [length_number]
    have hflat := congrArg List.length (flatten_cut _ positive 0 encoded.spans [] encoded.bytes)
    exact (length_le_flatten ne_nil_of_mem_cut).trans_eq hflat
  · intro a place hplace
    refine ⟨hplace.isPrefix h, fun before after hchunks => ?_⟩
    have hkept := cut_keeps_headers hcapacity hwithin (bodies_of_number_eq_append hchunks) _
      (hplace.mem_spans h)
    rw [← reassemble_eq_flatten, Nat.zero_add] at hkept
    exact hkept
  · intro hwidth hbytes before chunk after hchunks
    cases before with
    | nil =>
      show 0 + (limit - headLength) < 2 ^ 64
      omega
    | cons first before =>
      -- the first chunk does not hold everything, so the limit is below the number of bytes
      have hlarge : limit - headLength < encoded.bytes.length :=
        lt_length_of_cut hwithin (bodies_of_number_eq_append hchunks)
      have hle : (reassemble (first :: before)).length ≤ encoded.bytes.length := by
        rw [← hwhole, hchunks, reassemble_eq_flatten, reassemble_eq_flatten, List.map_append,
          List.flatten_append, List.length_append]
        exact Nat.le_add_right ..
      omega

/-- The chunks of a stream, if frames have room for a header. -/
theorem chunks_of_encodeStream (h : Atom.encodeStream atoms = .ok encoded) (token : Token)
    (streamId : UInt16) (label : String) (limit : Nat) :
    (8 ≤ limit → ∃ chunks, ofStream token streamId encoded limit label = .ok chunks ∧
      Carry token streamId label limit atoms encoded chunks) ∧
    (limit < 8 → ofStream token streamId encoded limit label = .error (.frameTooSmall limit)) := by
  have hroom : headLength + maxHeader = 8 := rfl
  rw [ofStream]
  constructor
  · intro hlimit
    rw [dif_pos (hroom ▸ hlimit)]
    exact ⟨_, rfl, carry_of_encodeStream h _ hlimit⟩
  · intro hlimit
    rw [dif_neg (Nat.not_le.mpr (hroom ▸ hlimit))]

theorem chunks_of_encodeStream_nested :
    let action : Signature := .plain "act_replace_select_action" .act 3 [.stream]
    let skip : Signature := .plain "uni_sync_skip" .uni 14 [.num]
    let nested : Atom := .mk skip [.int 500] 2
    let atoms : List Atom := [.mk action [.stream [nested]] 1]
    let encoded : Encoded := ⟨[2, 3, 5, 0, 14, 2, 1, 244], [⟨0, 3, 8⟩, ⟨3, 3, 5⟩]⟩
    Atom.encodeStream atoms = .ok encoded ∧ nested.StandsAt 3 atoms ∧
      (∃ chunks, ofStream .stream 1 encoded 8 "scene" = .ok chunks ∧
        Carry .stream 1 "scene" 8 atoms encoded chunks) ∧
      ofStream .stream 1 encoded 7 "scene" = .error (.frameTooSmall 7) := by
  intro action skip nested atoms encoded
  have hencoded : Atom.encodeStream atoms = .ok encoded := by
    cbv
  -- the data of the outer atom starts after its header
  have hheader : (Atom.mk action [.stream [nested]] 1).headerLength = 3 := by
    cbv
  have hplace : nested.StandsAt ((Atom.mk action [.stream [nested]] 1).headerLength + (0 + 0)) atoms :=
    .inside .first .here
  rw [hheader] at hplace
  exact ⟨hencoded, hplace,
    (chunks_of_encodeStream hencoded _ _ _ 8).1 (by decide),
    (chunks_of_encodeStream hencoded _ _ _ 7).2 (by decide)⟩

/-- A stream that fits one frame travels in one chunk. -/
theorem ofStream_of_fits (h : Atom.encodeStream atoms = .ok encoded) (hbytes : encoded.bytes ≠ [])
    (hroom : headLength + maxHeader ≤ limit) (hfits : headLength + encoded.bytes.length ≤ limit)
    (token : Token) (streamId : UInt16) (label : String) :
    ofStream token streamId encoded limit label =
      .ok [single token streamId encoded.bytes label] := by
  have hwithin : AreWithin 0 (0 + encoded.bytes.length) encoded.spans := by
    rw [Nat.zero_add]
    exact Encoded.within_spans h
  rw [ofStream, dif_pos hroom]
  dsimp only
  rw [cut_of_fits hbytes (Nat.le_sub_of_add_le' hfits) hwithin]
  rfl

end Stream

end Switchboard.Chunk
