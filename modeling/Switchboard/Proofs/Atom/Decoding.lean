import Switchboard.Atom.Decoding
import Switchboard.Proofs.Atom.Layout

/-!
# Reading back what was written

The reader undoes the writer on every stream of made atoms.  The statements are about a stream that
stands in front of other bytes, at any position and depth, so that the induction goes through nested
streams as well.

Main results:

* `Atom.decodeStream_encodeStream`: reading gives the atoms back, with their depths counted anew.
* `Atom.assignDepths_idem`: counting depths twice gives what counting once gives.
-/

namespace Switchboard

-- ---------------------------------------------------------------------------
-- Headers
-- ---------------------------------------------------------------------------

/-- The tag and the length that are written are read back. -/
theorem splitHeader?_header (tag : Tag) {size : Nat} (rest : Bytes) (hsize : size ≤ Atom.maxData) :
    splitHeader? (AtomLayout.header tag size ++ rest) =
      some (tag, (AtomLayout.header tag size).length, size, rest) := by
  rw [AtomLayout.length_header, AtomLayout.header, AtomLayout.lengthField]
  rw [Atom.maxData] at hsize
  -- the length takes one byte below `0x80`, else two, of which the first has its high bit set
  by_cases hshort : size < 0x80
  · have hlt : UInt8.ofNat size < 0x80 := by
      rw [UInt8.lt_iff_toNat_lt, UInt8.toNat_ofNat']
      show size % 2 ^ 8 < 128
      omega
    have hval : (UInt8.ofNat size).toNat = size := by
      rw [UInt8.toNat_ofNat']
      omega
    rw [if_pos hshort, if_pos hshort]
    show (if UInt8.ofNat size < 0x80 then some (tag, 3, (UInt8.ofNat size).toNat, rest) else _) = _
    rw [if_pos hlt, hval]
  · have hfirst : (UInt8.ofNat (0x80 + size / 256)).toNat = 0x80 + size / 256 := by
      rw [UInt8.toNat_ofNat']
      omega
    have hge : ¬UInt8.ofNat (0x80 + size / 256) < 0x80 := by
      rw [UInt8.lt_iff_toNat_lt, hfirst]
      show ¬0x80 + size / 256 < 128
      omega
    have hval : (0x80 + size / 256 - 0x80) * 256 + (UInt8.ofNat size).toNat = size := by
      rw [UInt8.toNat_ofNat']
      omega
    rw [if_neg hshort, if_neg hshort]
    show (if UInt8.ofNat (0x80 + size / 256) < 0x80 then _ else
      some (tag, 4, ((UInt8.ofNat (0x80 + size / 256)).toNat - 0x80) * 256 +
        (UInt8.ofNat size).toNat, rest)) = _
    rw [if_neg hge, hfirst, hval]

/-- The header of an atom is read back from in front of its data. -/
theorem splitAtom?_header (tag : Tag) {count size : Nat} (rest : Bytes) (hsize : size ≤ Atom.maxData)
    (hcount : (AtomLayout.header tag size).length + size ≤ count) :
    splitAtom? count (AtomLayout.header tag size ++ rest) =
      some (tag, (AtomLayout.header tag size).length, size, rest) := by
  rw [splitAtom?, splitHeader?_header tag rest hsize, Option.filter_some,
    if_pos (by simpa using hcount)]

-- ---------------------------------------------------------------------------
-- Single operands
-- ---------------------------------------------------------------------------

theorem UInt8.toUInt32_ofNat_toNat {v : UInt32} (h : v ≤ 0xFF) :
    (UInt8.ofNat v.toNat).toUInt32 = v := by
  rw [UInt32.le_iff_toNat_le] at h
  have h255 : (0xFF : UInt32).toNat = 255 := rfl
  rw [← UInt32.toNat_inj, UInt8.toNat_toUInt32, UInt8.toNat_ofNat']
  omega

theorem UInt16.toUInt32_ofNat_toNat {v : UInt32} (h : v ≤ 0xFFFF) :
    (UInt16.ofNat v.toNat).toUInt32 = v := by
  rw [UInt32.le_iff_toNat_le] at h
  have hmax : (0xFFFF : UInt32).toNat = 65535 := rfl
  rw [← UInt32.toNat_inj, UInt16.toNat_toUInt32, UInt16.toNat_ofNat']
  omega

namespace FieldKind

/-- A value of fixed width is read back from in front of other data. -/
theorem decodePlain_append {kind : FieldKind} {name atom : String} {checkIndex index : Nat}
    {op : Operand} {field : FieldLayout} (hwidth : kind.isVariable = false)
    (hcheck : kind.check name checkIndex op = .ok ()) (hlayout : op.layout atom kind = .ok field)
    (rest : Bytes) :
    kind.decodePlain atom index (field.bytes ++ rest) = .ok (op, rest) ∧ field.bytes ≠ [] := by
  cases kind with
  | byte | named =>
    cases op with
    | int v =>
      cases hlayout
      rw [check] at hcheck
      -- the check has let through only what one byte holds
      split at hcheck
      · next hle =>
        rw [FieldLayout.bytes]
        refine ⟨?_, List.cons_ne_nil _ _⟩
        show Except.ok (Operand.int (UInt8.ofNat v.toNat).toUInt32, rest) = _
        rw [UInt8.toUInt32_ofNat_toNat hle]
      · cases hcheck
    | str | raw | gid | stream => cases hcheck
  | word =>
    cases op with
    | int v =>
      cases hlayout
      rw [check] at hcheck
      -- the check has let through only what two bytes hold
      split at hcheck
      · next hle =>
        rw [FieldLayout.bytes]
        refine ⟨?_, List.cons_ne_nil _ _⟩
        show Except.ok (Operand.int (Bytes.uint16 _ _).toUInt32, rest) = _
        rw [Bytes.uint16_ofUInt16 (v := UInt16.ofNat v.toNat) rfl, UInt16.toUInt32_ofNat_toNat hle]
      · cases hcheck
    | str | raw | gid | stream => cases hcheck
  | dword =>
    cases op with
    | int v =>
      cases hlayout
      rw [FieldLayout.bytes]
      refine ⟨?_, List.cons_ne_nil _ _⟩
      rw [decodePlain, Bytes.uint32?_ofUInt32_append]
    | str | raw | gid | stream => cases hcheck
  | num | text | raw | gid | stream => cases hwidth

/-- A value that takes the rest of the data is read back from it. -/
theorem decodePlain_bytes {kind : FieldKind} {name atom : String} {checkIndex : Nat} (index : Nat)
    {op : Operand} {field : FieldLayout} (hwidth : kind.isVariable = true) (hkind : kind ≠ .stream)
    (hcheck : kind.check name checkIndex op = .ok ())
    (hlayout : op.layout atom kind = .ok field) :
    kind.decodePlain atom index field.bytes = .ok (op, []) ∧
      (op.isEmptyText = false → field.bytes ≠ []) := by
  cases kind with
  | num =>
    cases op with
    | int v =>
      cases hlayout
      obtain ⟨hmin, hmax⟩ := length_minimalBytes v
      rw [FieldLayout.bytes]
      -- one to four bytes, which is what the reader takes as a number
      have hne : minimalBytes v ≠ [] := by
        intro hnil
        rw [hnil] at hmin
        simp at hmin
      refine ⟨?_, fun _ => hne⟩
      rw [decodePlain, if_neg (by simp only [hne, false_or]; omega), toNat_minimalBytes,
        UInt32.ofNat_toNat]
    | str | raw | gid | stream => cases hcheck
  | text =>
    cases op with
    | str s =>
      cases hlayout
      rw [FieldLayout.bytes]
      refine ⟨?_, ?_⟩
      · rw [decodePlain, Text.utf8?_utf8]
      · intro hempty hnil
        -- only the empty text takes no bytes
        have hlen := Text.length_utf8 s
        rw [hnil, List.length_nil, eq_comm, String.utf8ByteSize_eq_zero_iff] at hlen
        subst hlen
        cases hempty
    | int | raw | gid | stream => cases hcheck
  | raw =>
    cases op with
    | raw bytes =>
      cases hlayout
      rw [FieldLayout.bytes]
      refine ⟨rfl, ?_⟩
      rintro hempty rfl
      cases hempty
    | int | str | gid | stream => cases hcheck
  | gid =>
    cases op with
    | gid gid =>
      cases hlayout
      rw [FieldLayout.bytes]
      refine ⟨?_, fun _ => ?_⟩
      · rw [decodePlain, Gid.decode, Gid.decode?_encode]
        rfl
      · cases gid <;> exact List.cons_ne_nil _ _
    | int | str | raw | stream => cases hcheck
  | stream => exact absurd rfl hkind
  | byte | word | dword | named => cases hwidth

/-- Only a field for a stream takes a value whose depths count. -/
theorem withDepths_of_check {kind : FieldKind} {name : String} {index : Nat} {op : Operand}
    (hkind : kind ≠ .stream) (hcheck : kind.check name index op = .ok ()) {base : UInt16} :
    op.withDepths base = op := by
  cases op with
  | stream atoms =>
    cases kind with
    | stream => exact absurd rfl hkind
    | byte | word | dword | num | named | text | raw | gid => cases hcheck
  | int | str | raw | gid => rfl

end FieldKind

-- ---------------------------------------------------------------------------
-- One step of the reader
-- ---------------------------------------------------------------------------

section Steps

variable {s : Signature} {offset index count : Nat} {inner : UInt16} {kind : FieldKind}
  {kinds : List FieldKind} {bytes : Bytes}

theorem Operand.decodeFields_omitted (h : kinds = [] ∨ s.required ≤ index) :
    decodeFields s offset inner index kinds 0 bytes = .ok [] := by
  cases kinds with
  | nil => rw [decodeFields, if_pos rfl]
  | cons kind kinds =>
    have hindex : s.required ≤ index := h.resolve_left (List.cons_ne_nil _ _)
    rw [decodeFields, if_pos ⟨rfl, hindex⟩]

theorem Operand.decodeFields_plain {op : Operand} {more : Bytes}
    (hpresent : ¬(count = 0 ∧ s.required ≤ index)) (hkind : kind ≠ .stream)
    (hread : kind.decodePlain s.name (index + 1) (bytes.take count) = .ok (op, more)) :
    decodeFields s offset inner index (kind :: kinds) count bytes =
      decodeFields s offset inner (index + 1) kinds more.length more >>= fun ops =>
        .ok (op :: ops) := by
  rw [decodeFields, if_neg hpresent, if_neg hkind]
  split
  · next e he => rw [hread] at he; cases he
  · next op' more' he =>
    rw [hread] at he
    cases he
    rfl

theorem Operand.decodeFields_stream {atoms : List Atom}
    (hpresent : ¬(count = 0 ∧ s.required ≤ index))
    (hread : Atom.decodeFrom offset inner 0 inner [] count bytes = .ok atoms) :
    decodeFields s offset inner index [.stream] count bytes = .ok [.stream atoms] := by
  rw [decodeFields, if_neg hpresent, if_pos rfl, hread, ok_bind,
    decodeFields_omitted (.inl rfl), ok_bind]
  rfl

/-- The reader splits an atom off, reads its operands, and goes on behind its data. -/
theorem Atom.decodeFrom_split (hs : Signature.byTag? s.tag = some s) {base depth : UInt16}
    {pos header size : Nat} {done : List Atom} {ops : List Operand} {rest : Bytes}
    (hsplit : splitAtom? count bytes = some (s.tag, header, size, rest))
    (hread : Operand.decodeFields s (offset + (pos + header)) (s.effect.depthAt base depth + 1) 0
      s.fields size rest = .ok ops) :
    decodeFrom offset base pos depth done count bytes =
      decodeFrom offset base (pos + header + size)
        (s.effect.depthAfter (s.effect.depthAt base depth))
        (.mk s ops (s.effect.depthAt base depth) :: done) (count - (header + size))
        (rest.drop size) := by
  -- the count is not zero, as a header is left
  have hsize := size_splitAtom? hsplit
  rw [decodeFrom, if_neg (by omega)]
  split
  · next he =>
    rw [hsplit] at he
    cases he
  · next tag header' size' rest' he =>
    rw [hsplit] at he
    cases he
    rw [hs]
    dsimp only
    rw [hread, ok_bind]

/-- The reader gets through an atom that is laid out if it reads the operands from its data. -/
theorem Atom.decodeFrom_layout_of_fields (hs : Signature.byTag? s.tag = some s)
    {base depth : UInt16} {pos : Nat} {done : List Atom} {ops : List Operand}
    {fields : List FieldLayout} {more : Bytes}
    (hlength : (FieldLayout.bytesEach fields).length = FieldLayout.total fields)
    (hsize : FieldLayout.total fields ≤ maxData)
    (hread : ∀ {start : Nat}, Operand.decodeFields s start (s.effect.depthAt base depth + 1) 0
      s.fields (FieldLayout.bytesEach fields).length (FieldLayout.bytesEach fields ++ more) =
        .ok ops) :
    let layout : AtomLayout := .mk s.tag (FieldLayout.total fields) fields
    decodeFrom offset base pos depth done (layout.bytes.length + count) (layout.bytes ++ more) =
      decodeFrom offset base (pos + layout.bytes.length)
        (s.effect.depthAfter (s.effect.depthAt base depth))
        (.mk s ops (s.effect.depthAt base depth) :: done) count more := by
  intro layout
  -- the header gives the tag and the data length, and the tag gives the signature back
  have hbytes : layout.bytes = AtomLayout.header s.tag (FieldLayout.total fields) ++
      FieldLayout.bytesEach fields := by
    rw [AtomLayout.bytes]
  have hcount : layout.bytes.length =
      (AtomLayout.header s.tag (FieldLayout.total fields)).length + FieldLayout.total fields := by
    rw [hbytes, List.length_append, hlength]
  have hsplit := splitAtom?_header s.tag (FieldLayout.bytesEach fields ++ more) hsize
    (hcount.symm.le.trans (Nat.le_add_right layout.bytes.length count))
  rw [hlength] at hread
  rw [hbytes, List.append_assoc, ← hbytes, decodeFrom_split hs hsplit hread,
    List.drop_left' hlength, hcount, Nat.add_sub_cancel_left, Nat.add_assoc]

end Steps

-- ---------------------------------------------------------------------------
-- Whole streams
-- ---------------------------------------------------------------------------

mutual

/-- Operands that fill the fields of their atom are read back from its data. -/
theorem Operand.decodeFields_layoutEach {s : Signature} {inner : UInt16} :
    ∀ {offset index : Nat} {kinds : List FieldKind} {ops : List Operand}
      {fields : List FieldLayout} {rest : Bytes}, Operand.Fills s index kinds ops →
      (∀ stream, .stream stream ∈ ops → Atom.AreMade stream) →
      Operand.layoutEach s.name kinds ops = .ok fields →
      Operand.decodeFields s offset inner index kinds (FieldLayout.bytesEach fields).length
        (FieldLayout.bytesEach fields ++ rest) = .ok (Operand.withDepthsList inner ops)
  | offset, index, kinds, [], fields, rest, hfill, _, hlayout => by
    rw [Operand.layoutEach_nil] at hlayout
    cases hlayout
    cases hfill with
    -- no data is left, and the reader stops where operands may be left out
    | nil omitted => exact Operand.decodeFields_omitted omitted
  | offset, index, kinds, op :: ops, fields, rest, hfill, hmade, hlayout => by
    unfold Operand.withDepthsList
    cases hfill with
    | @fixed _ kind kinds _ _ width check more =>
      obtain ⟨field, fields, hfield, hfields, rfl⟩ := Operand.layoutEach_cons_eq_ok.mp hlayout
      have hkind : kind ≠ .stream := by
        rintro rfl
        cases width
      -- the field takes its own bytes; those of the other fields are left, and nothing more
      obtain ⟨hread, hne⟩ := FieldKind.decodePlain_append width check hfield
        (FieldLayout.bytesEach fields)
      have hmore : Operand.decodeFields s offset inner (index + 1) kinds
          (FieldLayout.bytesEach fields).length (FieldLayout.bytesEach fields ++ []) =
          .ok (Operand.withDepthsList inner ops) :=
        Operand.decodeFields_layoutEach more
          (fun stream h => hmade stream (List.mem_cons_of_mem _ h)) hfields
      rw [List.append_nil] at hmore
      -- the reader does not take the field for an omitted one, since its bytes are there
      have hpresent : ¬((field.bytes ++ FieldLayout.bytesEach fields).length = 0 ∧
          s.required ≤ index) := by
        rintro ⟨hzero, -⟩
        rw [List.length_append] at hzero
        exact hne (List.eq_nil_of_length_eq_zero (by omega))
      have htake : kind.decodePlain s.name (index + 1)
          ((field.bytes ++ FieldLayout.bytesEach fields ++ rest).take
            (field.bytes ++ FieldLayout.bytesEach fields).length) =
          .ok (op, FieldLayout.bytesEach fields) := by
        rw [List.take_left' rfl]
        exact hread
      rw [FieldLayout.bytesEach, Operand.decodeFields_plain hpresent hkind htake, hmore, ok_bind,
        FieldKind.withDepths_of_check hkind check]
    | @last _ kind _ width check optional =>
      obtain ⟨field, fields, hfield, hfields, rfl⟩ := Operand.layoutEach_cons_eq_ok.mp hlayout
      rw [Operand.layoutEach_nil] at hfields
      cases hfields
      rw [FieldLayout.bytesEach, FieldLayout.bytesEach, List.append_nil, Operand.withDepthsList]
      by_cases hstream : kind = .stream
      · -- A stream is never left out, so an empty one is read as such.
        subst hstream
        have hpresent : ¬(field.bytes.length = 0 ∧ s.required ≤ index) :=
          fun h => (optional h.2).2 rfl
        cases op with
        | stream atoms =>
          rw [Operand.layout] at hfield
          obtain ⟨layouts, hlayouts, heq⟩ := bind_eq_ok_iff.mp hfield
          cases heq
          rw [Operand.withDepths]
          refine Operand.decodeFields_stream hpresent ?_
          rw [FieldLayout.bytes]
          exact Atom.decodeFrom_layoutEach (hmade atoms (List.mem_cons_self ..)) hlayouts
        | int | str | raw | gid => cases check
      -- any other value takes all the data; if it may be left out, it is not empty
      · obtain ⟨hread, hne⟩ := FieldKind.decodePlain_bytes (index + 1) width hstream check hfield
        have hpresent : ¬(field.bytes.length = 0 ∧ s.required ≤ index) := by
          rintro ⟨hzero, hindex⟩
          exact hne (optional hindex).1 (List.eq_nil_of_length_eq_zero hzero)
        have htake : kind.decodePlain s.name (index + 1)
            ((field.bytes ++ rest).take field.bytes.length) = .ok (op, []) := by
          rw [List.take_left' rfl]
          exact hread
        rw [Operand.decodeFields_plain hpresent hstream htake, List.length_nil,
          Operand.decodeFields_omitted (.inl rfl), ok_bind,
          FieldKind.withDepths_of_check hstream check]

/-- Atoms that were written are read back, with their depths counted anew. -/
theorem Atom.decodeFrom_layoutEach :
    ∀ {offset pos : Nat} {base depth : UInt16} {done atoms : List Atom}
      {layouts : List AtomLayout} {rest : Bytes}, Atom.AreMade atoms →
      Atom.layoutEach [] atoms = .ok layouts →
      Atom.decodeFrom offset base pos depth done (AtomLayout.bytesEach layouts).length
        (AtomLayout.bytesEach layouts ++ rest) = .ok (Atom.assignFrom base depth done atoms)
  | offset, pos, base, depth, done, [], layouts, rest, _, hlayout => by
    rw [Atom.layoutEach_nil_eq_ok.mp hlayout, Atom.decodeFrom, Atom.assignFrom]
    exact if_pos rfl
  | offset, pos, base, depth, done, .mk s ops old :: atoms, layouts, rest, hmade, hlayout => by
    obtain ⟨hfirst, hinner, hatoms⟩ := Atom.everywhere_cons.mp hmade
    obtain ⟨layout, layouts, hlayoutFirst, hlayouts, rfl⟩ := Atom.layoutEach_cons_eq_ok.mp hlayout
    obtain ⟨fields, hfields, hsize, rfl⟩ := Atom.layout_eq_ok.mp hlayoutFirst
    obtain ⟨hname, -, -⟩ := Atom.isMade_iff.mp hfirst
    have htag := Signature.byTag?_tag (Signature.mem_of_byName? hname)
    obtain ⟨htotal, hlength⟩ := Operand.length_of_layoutEach hfields
    rw [← htotal] at hlength
    -- the reader stands behind the first atom, with the others in front of it
    rw [AtomLayout.bytesEach, List.length_append, List.append_assoc, Atom.assignFrom,
      Atom.decodeFrom_layout_of_fields htag hlength hsize
        (Operand.decodeFields_layoutEach (Operand.fills_of_isMade hfirst) hinner hfields)]
    exact Atom.decodeFrom_layoutEach hatoms hlayouts

end

/-- Reading a written stream gives its atoms, with their depths counted. -/
theorem Atom.decodeStream_encodeStream {atoms : List Atom} {encoded : Encoded}
    (hmade : AreMade atoms) (h : encodeStream atoms = .ok encoded) :
    decodeStream encoded.bytes = .ok (assignDepths 0 atoms) := by
  obtain ⟨layouts, hlayouts, heq⟩ := bind_eq_ok_iff.mp h
  cases heq
  have hread : decodeFrom 0 0 0 0 [] (AtomLayout.bytesEach layouts).length
      (AtomLayout.bytesEach layouts ++ []) = .ok (assignFrom 0 0 [] atoms) :=
    decodeFrom_layoutEach hmade hlayouts
  rw [List.append_nil] at hread
  rw [Encoded.bytes_ofLayout, decodeStream, hread, assignDepths]

-- ---------------------------------------------------------------------------
-- Counting depths again
-- ---------------------------------------------------------------------------

theorem Atom.assignFrom_onto (base depth : UInt16) (done atoms : List Atom) :
    assignFrom base depth done atoms = done.reverse ++ assignFrom base depth [] atoms := by
  induction atoms generalizing depth done with
  | nil => rw [assignFrom, assignFrom, List.reverse_nil, List.append_nil]
  | cons a atoms ih =>
    rw [assignFrom, assignFrom, ih, ih _ [_], List.reverse_cons, List.append_assoc]
    rfl

theorem Atom.assignFrom_cons (base depth : UInt16) (a : Atom) (atoms : List Atom) :
    assignFrom base depth [] (a :: atoms) = a.atDepth (a.effect.depthAt base depth) ::
      assignFrom base (a.effect.depthAfter (a.effect.depthAt base depth)) [] atoms := by
  rw [assignFrom, assignFrom_onto]
  rfl

mutual

theorem Operand.withDepths_idem (base : UInt16) :
    ∀ op : Operand, (op.withDepths base).withDepths base = op.withDepths base
  | .int _ | .str _ | .raw _ | .gid _ => rfl
  | .stream atoms => by
    rw [Operand.withDepths, Operand.withDepths, Atom.assignFrom_idem]

theorem Operand.withDepthsList_idem (base : UInt16) :
    ∀ ops : List Operand, Operand.withDepthsList base (Operand.withDepthsList base ops) =
      Operand.withDepthsList base ops
  | [] => rfl
  | op :: ops => by
    rw [Operand.withDepthsList, Operand.withDepthsList, Operand.withDepths_idem,
      Operand.withDepthsList_idem]

theorem Atom.assignFrom_idem (base depth : UInt16) :
    ∀ atoms : List Atom, Atom.assignFrom base depth [] (Atom.assignFrom base depth [] atoms) =
      Atom.assignFrom base depth [] atoms
  | [] => rfl
  | .mk s ops old :: atoms => by
    rw [Atom.assignFrom_cons, Atom.atDepth, Atom.assignFrom_cons, Atom.atDepth]
    simp only [Atom.effect, Atom.signature]
    rw [Operand.withDepthsList_idem, Atom.assignFrom_idem]

end

/-- Counting depths twice gives what counting once gives. -/
theorem Atom.assignDepths_idem (base : UInt16) (atoms : List Atom) :
    assignDepths base (assignDepths base atoms) = assignDepths base atoms :=
  assignFrom_idem base base atoms

end Switchboard
