import Switchboard.Proofs.Atom.Decoding
import Switchboard.Proofs.Atom.Spans

/-!
# Beginnings of a stream

What a reader makes of the first bytes of a stream, before the others have arrived: it knows the atoms
that lie wholly in them, or it says where the first atom starts that does not.

Main results:

* `splitAtom?_cut`: in an atom that is cut, at whatever byte, no atom is found.
* `Atom.decodeFrom_append`: the reader gets through atoms that were written, and goes on behind them.
* `Atom.decodeStream_take`: what the reader makes of the first bytes of a stream, for any number of
  them.
-/

namespace Switchboard

-- ---------------------------------------------------------------------------
-- Atoms that are cut
-- ---------------------------------------------------------------------------

/-- A header that is cut is no header: each of its bytes is needed. -/
theorem splitHeader?_cut (tag : Tag) {count size : Nat} (hsize : size ≤ Atom.maxData)
    (hcut : count < (AtomLayout.header tag size).length) :
    splitHeader? ((AtomLayout.header tag size).take count) = none := by
  rw [AtomLayout.header, AtomLayout.lengthField] at hcut ⊢
  rw [Atom.maxData] at hsize
  by_cases hshort : size < 0x80
  · rw [if_pos hshort] at hcut ⊢
    -- less than three bytes
    obtain rfl | rfl | rfl : count = 0 ∨ count = 1 ∨ count = 2 := by
      simp only [List.length_cons, List.length_nil] at hcut
      omega
    all_goals rfl
  · have hfirst : (UInt8.ofNat (0x80 + size / 256)).toNat = 0x80 + size / 256 := by
      rw [UInt8.toNat_ofNat']
      omega
    have hlong : ¬UInt8.ofNat (0x80 + size / 256) < 0x80 := by
      rw [UInt8.lt_iff_toNat_lt, hfirst]
      show ¬0x80 + size / 256 < 128
      omega
    rw [if_neg hshort] at hcut ⊢
    obtain rfl | rfl | rfl | rfl : count = 0 ∨ count = 1 ∨ count = 2 ∨ count = 3 := by
      simp only [List.length_cons, List.length_nil] at hcut
      omega
    · rfl
    · rfl
    · rfl
    -- the third byte says that the length takes another one
    · exact if_neg hlong

/-- In an atom that is cut no atom is found, wherever it is cut. -/
theorem splitAtom?_cut (tag : Tag) {count size : Nat} (data : Bytes) (hsize : size ≤ Atom.maxData)
    (hcut : count < (AtomLayout.header tag size).length + size) :
    splitAtom? count ((AtomLayout.header tag size ++ data).take count) = none := by
  rw [splitAtom?]
  rcases Nat.lt_or_ge count (AtomLayout.header tag size).length with hheader | hdata
  · rw [List.take_append_of_le_length hheader.le, splitHeader?_cut tag hsize hheader]
    rfl
  -- the header is read, and announces more data than there is
  · rw [List.take_append, List.take_of_length_le hdata, splitHeader?_header tag _ hsize,
      Option.filter_some, if_neg (by simpa using hcut)]

-- ---------------------------------------------------------------------------
-- Parts of a stream
-- ---------------------------------------------------------------------------

namespace Atom

theorem streamLength_cons (a : Atom) (atoms : List Atom) :
    streamLength (a :: atoms) = a.wireLength + streamLength atoms := rfl

theorem layoutEach_append_eq_ok {whole part : List Atom} {layouts : List AtomLayout} :
    layoutEach [] (whole ++ part) = .ok layouts ↔
      ∃ first rest, layoutEach [] whole = .ok first ∧ layoutEach [] part = .ok rest ∧
        layouts = first ++ rest := by
  induction whole generalizing layouts with
  | nil => simp [layoutEach_nil_eq_ok]
  | cons a whole ih =>
    simp only [List.cons_append, layoutEach_cons_eq_ok, ih]
    constructor
    · rintro ⟨layout, -, ha, ⟨first, rest, hfirst, hrest, rfl⟩, rfl⟩
      exact ⟨layout :: first, rest, ⟨layout, first, ha, hfirst, rfl⟩, hrest, rfl⟩
    · rintro ⟨-, rest, ⟨layout, first, ha, hfirst, rfl⟩, hrest, rfl⟩
      exact ⟨layout, first ++ rest, ha, ⟨first, rest, hfirst, hrest, rfl⟩, rfl⟩

theorem bytesEach_append (first rest : List AtomLayout) :
    AtomLayout.bytesEach (first ++ rest) =
      AtomLayout.bytesEach first ++ AtomLayout.bytesEach rest := by
  induction first with
  | nil => rfl
  | cons layout first ih =>
    rw [List.cons_append, AtomLayout.bytesEach, AtomLayout.bytesEach, ih, List.append_assoc]

/-- The depths of atoms do not depend on those that follow. -/
theorem assignFrom_take (base depth : UInt16) (k : Nat) (atoms : List Atom) :
    assignFrom base depth [] (atoms.take k) = (assignFrom base depth [] atoms).take k := by
  induction atoms generalizing depth k with
  | nil => rw [List.take_nil, assignFrom, List.reverse_nil, List.take_nil]
  | cons a atoms ih =>
    cases k with
    | zero => rw [List.take_zero, List.take_zero, assignFrom, List.reverse_nil]
    | succ k => rw [List.take_succ_cons, assignFrom_cons, assignFrom_cons, List.take_succ_cons, ih]

/-- An atom stands behind those before it. -/
theorem standsAt_append (whole : List Atom) (a : Atom) (part : List Atom) :
    a.StandsAt (streamLength whole) (whole ++ a :: part) := by
  induction whole with
  | nil => exact .here
  | cons b whole ih => exact .after ih

/-- A number of bytes is where some atom of a stream starts, or the stream ends, unless it lies in an
atom. -/
theorem cut_of_le_streamLength {n : Nat} {atoms : List Atom} (h : n ≤ streamLength atoms) :
    (∃ k ≤ atoms.length, n = streamLength (atoms.take k)) ∨
      ∃ k a, atoms[k]? = some a ∧ streamLength (atoms.take k) < n ∧
        n < streamLength (atoms.take k) + a.wireLength := by
  induction atoms generalizing n with
  | nil => exact .inl ⟨0, Nat.le_refl 0, Nat.eq_zero_of_le_zero h⟩
  | cons a atoms ih =>
    rw [streamLength_cons] at h
    rcases Nat.eq_zero_or_pos n with rfl | hpos
    · exact .inl ⟨0, Nat.zero_le _, rfl⟩
    rcases Nat.lt_or_ge n a.wireLength with hwithin | hbehind
    · refine .inr ⟨0, a, rfl, hpos, ?_⟩
      rw [List.take_zero, streamLength, Nat.zero_add]
      exact hwithin
    -- behind the first atom the others are counted from its end
    obtain ⟨m, rfl⟩ := Nat.exists_eq_add_of_le hbehind
    obtain ⟨k, hk, rfl⟩ | ⟨k, b, hb, hlower, hupper⟩ := ih (Nat.le_of_add_le_add_left h)
    · refine .inl ⟨k + 1, Nat.succ_le_succ hk, ?_⟩
      rw [List.take_succ_cons, streamLength_cons]
    · refine .inr ⟨k + 1, b, hb, ?_, ?_⟩ <;> rw [List.take_succ_cons, streamLength_cons] <;> omega

-- ---------------------------------------------------------------------------
-- Reading on
-- ---------------------------------------------------------------------------

section Reading

variable {offset : Nat} {base depth : UInt16} {pos : Nat} {done : List Atom}

/-- The reader gets through an atom that was written, with `count` more bytes of the stream behind
it. -/
theorem decodeFrom_layout {a : Atom} {layout : AtomLayout} (hmade : AreMade [a])
    (hlayout : a.layout = .ok layout) (count : Nat) (more : Bytes) :
    decodeFrom offset base pos depth done (layout.bytes.length + count) (layout.bytes ++ more) =
      decodeFrom offset base (pos + layout.bytes.length)
        (a.effect.depthAfter (a.effect.depthAt base depth))
        (a.atDepth (a.effect.depthAt base depth) :: done) count more := by
  obtain ⟨s, ops, old⟩ := a
  obtain ⟨hfirst, hinner, -⟩ := everywhere_cons.mp hmade
  obtain ⟨fields, hfields, hsize, rfl⟩ := layout_eq_ok.mp hlayout
  obtain ⟨hname, -, -⟩ := isMade_iff.mp hfirst
  obtain ⟨htotal, hlength⟩ := Operand.length_of_layoutEach hfields
  rw [← htotal] at hlength
  exact decodeFrom_layout_of_fields (Signature.byTag?_tag (Signature.mem_of_byName? hname)) hlength
    hsize (Operand.decodeFields_layoutEach (Operand.fills_of_isMade hfirst) hinner hfields)

/-- The reader gets through atoms that were written, and goes on behind them. -/
theorem decodeFrom_append {atoms : List Atom} {layouts : List AtomLayout} (hmade : AreMade atoms)
    (hlayouts : layoutEach [] atoms = .ok layouts) (count : Nat) (more : Bytes) :
    ∃ behind, decodeFrom offset base pos depth done
        ((AtomLayout.bytesEach layouts).length + count) (AtomLayout.bytesEach layouts ++ more) =
      decodeFrom offset base (pos + (AtomLayout.bytesEach layouts).length) behind
        ((assignFrom base depth [] atoms).reverse ++ done) count more := by
  induction atoms generalizing pos depth done layouts with
  | nil =>
    rw [layoutEach_nil_eq_ok.mp hlayouts, List.reverse_nil, AtomLayout.bytesEach, assignFrom]
    exact ⟨depth, by rw [List.length_nil, Nat.zero_add]; rfl⟩
  | cons a atoms ih =>
    obtain ⟨layout, layouts, hlayout, hrest, rfl⟩ := layoutEach_cons_eq_ok.mp hlayouts
    obtain ⟨ha, hatoms⟩ := everywhere_cons_iff.mp hmade
    obtain ⟨behind, hbehind⟩ := ih hatoms hrest
    refine ⟨behind, ?_⟩
    rw [AtomLayout.bytesEach, List.length_append, Nat.add_assoc, List.append_assoc,
      decodeFrom_layout ha hlayout, hbehind, assignFrom_cons, List.reverse_cons, List.append_assoc,
      Nat.add_assoc]
    rfl

/-- Of an atom that is cut the reader says where it starts. -/
theorem decodeFrom_cut {a : Atom} {layout : AtomLayout} (hlayout : a.layout = .ok layout)
    {count : Nat} (hpos : 0 < count) (hcut : count < a.wireLength) (more : Bytes) :
    decodeFrom offset base pos depth done count ((layout.bytes ++ more).take count) =
      .error (.truncated (offset + pos)) := by
  obtain ⟨s, ops, old⟩ := a
  rw [← length_bytes_of_layout hlayout] at hcut
  obtain ⟨fields, hfields, hsize, rfl⟩ := layout_eq_ok.mp hlayout
  obtain ⟨htotal, hlength⟩ := Operand.length_of_layoutEach hfields
  rw [AtomLayout.bytes, List.length_append, hlength, ← htotal] at hcut
  have hnone := splitAtom?_cut s.tag (FieldLayout.bytesEach fields ++ more) hsize hcut
  rw [← List.append_assoc] at hnone
  rw [decodeFrom, if_neg hpos.ne', AtomLayout.bytes]
  split
  · rfl
  · next hsome =>
    rw [hnone] at hsome
    cases hsome

end Reading

-- ---------------------------------------------------------------------------
-- The first bytes of a stream
-- ---------------------------------------------------------------------------

section Prefixes

variable {atoms whole part : List Atom} {encoded : Encoded} {n : Nat}

/-- In front of the first atoms of a stream stand their own bytes, and behind them those of the
others. -/
theorem bytes_of_encodeStream_append (h : encodeStream (whole ++ part) = .ok encoded) :
    ∃ first rest, layoutEach [] whole = .ok first ∧ layoutEach [] part = .ok rest ∧
      (AtomLayout.bytesEach first).length = streamLength whole ∧
      encoded.bytes = AtomLayout.bytesEach first ++ AtomLayout.bytesEach rest := by
  obtain ⟨layouts, hlayouts, rfl⟩ := encodeStream_eq_ok_iff.mp h
  obtain ⟨first, rest, hfirst, hrest, rfl⟩ := layoutEach_append_eq_ok.mp hlayouts
  refine ⟨first, rest, hfirst, hrest, (length_of_layoutEach hfirst).2, ?_⟩
  rw [Encoded.bytes_ofLayout, bytesEach_append]

/-- The bytes of the first atoms of a stream are read as these atoms. -/
theorem decodeStream_take_whole (hmade : AreMade (whole ++ part))
    (h : encodeStream (whole ++ part) = .ok encoded) :
    decodeStream (encoded.bytes.take (streamLength whole)) = .ok (assignDepths 0 whole) := by
  obtain ⟨first, rest, hfirst, -, hlength, hbytes⟩ := bytes_of_encodeStream_append h
  have hwhole : encodeStream whole = .ok (.ofLayout first) :=
    encodeStream_eq_ok_iff.mpr ⟨first, hfirst, rfl⟩
  rw [hbytes, List.take_left' hlength, ← Encoded.bytes_ofLayout]
  exact decodeStream_encodeStream (everywhere_append.mp hmade).1 hwhole

/-- If the bytes end in an atom, the reader says where that atom starts. -/
theorem decodeStream_take_cut {a : Atom} (hmade : AreMade (whole ++ a :: part))
    (h : encodeStream (whole ++ a :: part) = .ok encoded) (hlower : streamLength whole < n)
    (hupper : n < streamLength whole + a.wireLength) :
    decodeStream (encoded.bytes.take n) = .error (.truncated (streamLength whole)) := by
  obtain ⟨first, rest, hfirst, hrest, hlength, hbytes⟩ := bytes_of_encodeStream_append h
  obtain ⟨layout, rest, hlayout, -, rfl⟩ := layoutEach_cons_eq_ok.mp hrest
  obtain ⟨count, rfl⟩ := Nat.exists_eq_add_of_lt hlower
  have hcount : count + 1 < a.wireLength := by omega
  have htake : encoded.bytes.take (streamLength whole + count + 1) =
      AtomLayout.bytesEach first ++
        (layout.bytes ++ AtomLayout.bytesEach rest).take (count + 1) := by
    rw [hbytes, AtomLayout.bytesEach, ← hlength, Nat.add_assoc, List.take_length_add_append]
  have hsize : ((layout.bytes ++ AtomLayout.bytesEach rest).take (count + 1)).length =
      count + 1 := by
    rw [List.length_take, List.length_append, length_bytes_of_layout hlayout]
    omega
  -- the reader gets through the atoms before, and comes to the one that is cut
  obtain ⟨behind, hread⟩ := @decodeFrom_append 0 0 0 0 [] whole first
    (everywhere_append.mp hmade).1 hfirst (count + 1)
    ((layout.bytes ++ AtomLayout.bytesEach rest).take (count + 1))
  rw [decodeStream, htake, List.length_append, hsize, hread,
    decodeFrom_cut hlayout (Nat.succ_pos count) hcount, Nat.zero_add, Nat.zero_add, hlength]

/-- What the reader makes of the first `n` bytes of a stream.  If they end with an atom, or are none,
these are the atoms before, with the depths that they have in the whole stream.  If they do not, the
reader fails, and says where the first atom starts that does not lie wholly in them, which is where
the spans note it. -/
theorem decodeStream_take (hmade : AreMade atoms) (h : encodeStream atoms = .ok encoded)
    (hn : n ≤ encoded.bytes.length) :
    (∀ k ≤ atoms.length, n = streamLength (atoms.take k) →
      decodeStream (encoded.bytes.take n) = .ok ((assignDepths 0 atoms).take k)) ∧
    ((∀ k ≤ atoms.length, n ≠ streamLength (atoms.take k)) →
      ∃ k a, atoms[k]? = some a ∧ streamLength (atoms.take k) < n ∧
        n < streamLength (atoms.take k) + a.wireLength ∧
        a.span (streamLength (atoms.take k)) ∈ encoded.spans ∧
        decodeStream (encoded.bytes.take n) = .error (.truncated (streamLength (atoms.take k)))) := by
  refine ⟨?_, fun hends => ?_⟩
  · rintro k - rfl
    rw [assignDepths, ← assignFrom_take]
    rw [← List.take_append_drop k atoms] at hmade h
    exact decodeStream_take_whole hmade h
  · obtain ⟨layouts, hlayouts, rfl⟩ := encodeStream_eq_ok_iff.mp h
    rw [Encoded.bytes_ofLayout, (length_of_layoutEach hlayouts).2] at hn
    obtain ⟨k, hk, hend⟩ | ⟨k, a, ha, hlower, hupper⟩ := cut_of_le_streamLength hn
    · exact absurd hend (hends k hk)
    have hsplit : atoms.take k ++ a :: atoms.drop (k + 1) = atoms := by
      obtain ⟨hk, rfl⟩ := List.getElem?_eq_some_iff.mp ha
      rw [List.getElem_cons_drop, List.take_append_drop]
    refine ⟨k, a, ha, hlower, hupper, ?_, ?_⟩
    · have hplace := standsAt_append (atoms.take k) a (atoms.drop (k + 1))
      rw [hsplit] at hplace
      exact hplace.mem_spans h
    · rw [← hsplit] at hmade h
      exact decodeStream_take_cut hmade h hlower hupper

/-- A stream that opens a scope and carries another stream in it: ten bytes are the first two atoms,
and eight bytes end in the atom that is carried, so that the one around it is not complete. -/
theorem decodeStream_take_nested :
    let opener : Atom := .mk (.define "uni_start_stream" .uni 1 [.num] 0 (.opens .stream)) [] 0
    let skip (depth : UInt16) : Atom := .mk (.plain "uni_sync_skip" .uni 14 [.num]) [.int 5] depth
    let action (depth : UInt16) : Atom :=
      .mk (.plain "act_replace_action" .act 2 [.stream]) [.stream [skip (depth + 1)]] depth
    let closer : Atom := .mk (.define "uni_end_stream" .uni 2 [] 0 (.closes .stream)) [] 0
    let bytes : Bytes := [0, 1, 0, 2, 2, 4, 0, 14, 1, 5, 0, 2, 0]
    AreMade [opener, action 0, closer] ∧
      (encodeStream [opener, action 0, closer]).toOption.map (·.bytes) = some bytes ∧
      decodeStream (bytes.take 10) = .ok [opener, action 1] ∧
      decodeStream (bytes.take 8) = .error (.truncated 3) := by
  intro opener skip action closer bytes
  have hskip : AreMade [skip 1] :=
    everywhere_cons.mpr ⟨⟨"uni_sync_skip", [.int 5], rfl⟩,
      fun _ hinner => absurd (List.mem_singleton.mp hinner) nofun, everywhere_nil _⟩
  have hcarried : ∀ inner, .stream inner ∈ (action 0).operands → AreMade inner := by
    intro inner hinner
    cases List.mem_singleton.mp hinner
    exact hskip
  have hmade : AreMade [opener, action 0, closer] :=
    everywhere_cons.mpr ⟨⟨"uni_start_stream", [], rfl⟩, nofun,
      everywhere_cons.mpr ⟨⟨"act_replace_action", [.stream [skip 1]], rfl⟩, hcarried,
        everywhere_cons.mpr ⟨⟨"uni_end_stream", [], rfl⟩, nofun, everywhere_nil _⟩⟩⟩
  have hencoded : encodeStream [opener, action 0, closer] =
      .ok ⟨bytes, [⟨0, 3, 3⟩, ⟨3, 3, 7⟩, ⟨6, 3, 4⟩, ⟨10, 3, 3⟩]⟩ := by
    cbv
  have hwhole := (decodeStream_take hmade hencoded (show 10 ≤ bytes.length by decide)).1 2 (by decide) (by cbv)
  have hdepths : (assignDepths 0 [opener, action 0, closer]).take 2 = [opener, action 1] := by
    cbv
  rw [hdepths] at hwhole
  obtain ⟨k, a, ha, hlower, hupper, -, hcut⟩ :=
    (decodeStream_take hmade hencoded (show 8 ≤ bytes.length by decide)).2 (by decide)
  -- it is the second atom that eight bytes do not complete
  rcases k with _ | _ | _ | k <;> cases ha
  · exact absurd hupper (by decide)
  · exact ⟨hmade, congrArg _ (congrArg _ hencoded), hwhole, hcut⟩
  · exact absurd hlower (by decide)

end Prefixes

end Atom

end Switchboard
