import Switchboard.Proofs.Atom.Spans
import Switchboard.Proofs.Atom.Spelling
import Switchboard.Proofs.Atom.Table

/-!
# The shortest spelling of a stream

What the reader accepts can be written again, and what is written is the one shortest spelling of the
same atoms.  `Atom.IsShortest` says of bytes alone, at every level, what the shortest spelling keeps
to: a length below `0x80` takes one byte, and numbers have no zeros in front.

The data of an atom can be taken by itself, since in the instruction set a number, and a stream, is
the only operand of its atom (`Signature.fields_eq_singleton`).

Main result: `Atom.decodeStream_normalises`, what the reader accepts can be written, not longer and
as the same atoms, and stays as it was exactly if it is the shortest spelling.
-/

namespace Switchboard

-- ---------------------------------------------------------------------------
-- Shortest spellings
-- ---------------------------------------------------------------------------

namespace Atom

/-- The bytes of a stream hold, at some level, an atom of a signature, with the number of bytes of its
tag and length, and its data. -/
inductive StandsIn (s : Signature) (header : Nat) (data : Bytes) : Bytes → Prop where
  | here {bytes rest : Bytes} {size : Nat}
      (split : splitHeader? bytes = some (s.tag, header, size, rest))
      (known : Signature.byTag? s.tag = some s) (own : rest.take size = data) :
      StandsIn s header data bytes
  | after {bytes rest : Bytes} {tag : Tag} {first size : Nat}
      (split : splitHeader? bytes = some (tag, first, size, rest))
      (later : StandsIn s header data (rest.drop size)) : StandsIn s header data bytes
  | inside {bytes rest : Bytes} {t : Signature} {outer size : Nat}
      (split : splitHeader? bytes = some (t.tag, outer, size, rest))
      (known : Signature.byTag? t.tag = some t) (stream : t.fields = [.stream])
      (nested : StandsIn s header data (rest.take size)) : StandsIn s header data bytes

/-- At every level, the length of data below `0x80` bytes takes one byte, and a number has no zeros in
front. -/
def IsShortest (bytes : Bytes) : Prop :=
  ∀ s header data, StandsIn s header data bytes →
    (data.length < 0x80 → header = 3) ∧ (s.fields = [.num] → data.IsMinimal)

end Atom

/-- What the shortest spelling of an atom asks of the data in the given fields. -/
def Operand.IsShort (kinds : List FieldKind) (data : Bytes) : Prop :=
  (kinds = [.num] → data.IsMinimal) ∧ (kinds = [.stream] → Atom.IsShortest data)

theorem Atom.isShortest_nil : IsShortest [] := by
  intro s header data h
  cases h with
  | here split | after split | inside split => cases split

/-- A stream is as short as can be if its first atom, the data of this atom and the other atoms are. -/
theorem Atom.isShortest_cons {bytes rest : Bytes} {s : Signature} {header size : Nat}
    (split : splitHeader? bytes = some (s.tag, header, size, rest)) (enough : size ≤ rest.length)
    (known : Signature.byTag? s.tag = some s) :
    IsShortest bytes ↔ (size < 0x80 → header = 3) ∧ Operand.IsShort s.fields (rest.take size) ∧
      IsShortest (rest.drop size) := by
  have hsize : (rest.take size).length = size := by
    rw [List.length_take, Nat.min_eq_left enough]
  constructor
  · intro h
    obtain ⟨hheader, hminimal⟩ := h s header _ (.here split known rfl)
    rw [hsize] at hheader
    refine ⟨hheader, ⟨hminimal, ?_⟩, ?_⟩
    · intro hstream t inner data hnested
      exact h t inner data (.inside split known hstream hnested)
    · intro t first data hlater
      exact h t first data (.after split hlater)
  · rintro ⟨hheader, ⟨hminimal, hnested⟩, hlater⟩ t inner data h
    cases h with
    | here split' known' own =>
      rw [split] at split'
      obtain ⟨htag, rfl, rfl, rfl⟩ : s.tag = t.tag ∧ header = inner ∧ _ ∧ _ := by simpa using split'
      rw [← htag, known] at known'
      cases known'
      rw [← own, hsize]
      exact ⟨hheader, hminimal⟩
    | after split' later =>
      rw [split] at split'
      cases split'
      exact hlater t inner data later
    | @inside _ _ u outer _ split' known' stream nested =>
      rw [split] at split'
      obtain ⟨htag, rfl, rfl, rfl⟩ : s.tag = u.tag ∧ header = outer ∧ _ ∧ _ := by simpa using split'
      rw [← htag, known] at known'
      cases known'
      exact hnested stream t inner data nested

-- ---------------------------------------------------------------------------
-- Headers
-- ---------------------------------------------------------------------------

/-- A header that is read is written in as many bytes or fewer, and as it was unless it gave a short
length two bytes. -/
theorem AtomLayout.header_of_splitHeader? {bytes rest : Bytes} {tag : Tag} {header size : Nat}
    (h : splitHeader? bytes = some (tag, header, size, rest)) :
    ∃ front, bytes = front ++ rest ∧ front.length = header ∧ size ≤ Atom.maxData ∧
      (AtomLayout.header tag size).length ≤ header ∧
      (AtomLayout.header tag size = front ↔ (size < 0x80 → header = 3)) := by
  unfold splitHeader? at h
  rw [AtomLayout.length_header, Atom.maxData]
  split at h
  · next protocol number first rest' =>
    split at h
    · next hfirst =>
      cases h
      rw [UInt8.lt_iff_toNat_lt] at hfirst
      have hshort : first.toNat < 0x80 := hfirst
      refine ⟨[protocol, number, first], rfl, rfl, by omega, by rw [if_pos hshort], ?_⟩
      rw [AtomLayout.header, AtomLayout.lengthField, if_pos hshort, UInt8.ofNat_toNat]
      exact ⟨fun _ _ => rfl, fun _ => rfl⟩
    · next hfirst =>
      split at h
      · cases h
      · next second rest'' =>
        cases h
        rw [UInt8.lt_iff_toNat_lt] at hfirst
        have hlong : 0x80 ≤ first.toNat := Nat.le_of_not_lt hfirst
        have hlt := first.toNat_lt
        have hlt' := second.toNat_lt
        refine ⟨[protocol, number, first, second], rfl, rfl, by omega, by split <;> omega, ?_⟩
        rw [AtomLayout.header, AtomLayout.lengthField]
        by_cases hshort : (first.toNat - 0x80) * 256 + second.toNat < 0x80
        · rw [if_pos hshort]
          simp [hshort]
        · have hhigh : UInt8.ofNat (0x80 + ((first.toNat - 0x80) * 256 + second.toNat) / 256) =
              first := by
            rw [← UInt8.toNat_inj, UInt8.toNat_ofNat']
            omega
          have hlow : UInt8.ofNat ((first.toNat - 0x80) * 256 + second.toNat) = second := by
            rw [← UInt8.toNat_inj, UInt8.toNat_ofNat']
            omega
          rw [if_neg hshort, hhigh, hlow]
          simp [hshort]
  · cases h

/-- The written length of more data takes as many bytes or more. -/
theorem AtomLayout.length_header_mono (tag : Tag) {count count' : Nat} (h : count ≤ count') :
    (header tag count).length ≤ (header tag count').length := by
  rw [length_header, length_header]
  split <;> split <;> omega

-- ---------------------------------------------------------------------------
-- Single operands
-- ---------------------------------------------------------------------------

/-- An operand was read from its own bytes in front of the data and is written again: not longer, as
it was unless it is a number with zeros in front, and so that it is read once more. -/
structure FieldKind.Rewrites (kind : FieldKind) (atom : String) (index : Nat) (own rest : Bytes)
    (op : Operand) (field : FieldLayout) : Prop where
  laid : op.layout atom kind = .ok field
  shorter : field.bytes.length ≤ own.length
  empty : field.bytes = [] → own ++ rest = []
  again : ∀ more, more.length ≤ rest.length →
    kind.decodePlain atom index (field.bytes ++ more) = .ok (op, more)
  kept : field.bytes = own ↔ (kind = .num → own.IsMinimal)

namespace FieldKind

variable {kind : FieldKind} {atom : String} {index : Nat} {data rest : Bytes} {op : Operand}

/-- A number is written without the zeros in front. -/
theorem Rewrites.num (hmin : data ≠ []) (hmax : data.length ≤ 4) :
    Rewrites .num atom index data [] (.int (UInt32.ofNat (Bytes.toNat data)))
      (.plain (minimalBytes (UInt32.ofNat (Bytes.toNat data)))) := by
  obtain ⟨hshorter, hkept⟩ := minimalBytes_of_toNat hmin hmax
  obtain ⟨hpos, hfour⟩ := length_minimalBytes (UInt32.ofNat (Bytes.toNat data))
  have hne : minimalBytes (UInt32.ofNat (Bytes.toNat data)) ≠ [] := List.length_pos_iff.mp hpos
  refine ⟨rfl, hshorter, ?_, ?_, ?_⟩
  · intro hnil
    exact absurd hnil hne
  · intro more hmore
    rw [List.eq_nil_of_length_eq_zero (Nat.le_zero.mp hmore), List.append_nil, FieldLayout.bytes,
      decodePlain, if_neg (by simp only [hne, false_or]; omega), toNat_minimalBytes,
      UInt32.ofNat_toNat]
  · rw [FieldLayout.bytes, hkept]
    exact ⟨fun h _ => h, fun h => h rfl⟩

/-- Every other operand is written as it was. -/
theorem Rewrites.exact {bytes : Bytes} (hkind : kind ≠ .num)
    (hlaid : op.layout atom kind = .ok (.plain bytes)) (hempty : bytes = [] → rest = [])
    (hagain : ∀ more, more.length ≤ rest.length →
      kind.decodePlain atom index (bytes ++ more) = .ok (op, more)) :
    Rewrites kind atom index bytes rest op (.plain bytes) := by
  refine ⟨hlaid, Nat.le_refl _, ?_, hagain, ?_⟩
  · intro hnil
    exact List.append_eq_nil_iff.mpr ⟨hnil, hempty hnil⟩
  · exact ⟨fun _ h => absurd h hkind, fun _ => rfl⟩

/-- What was read can be written again. -/
theorem rewrites_of_decodePlain (hkind : kind ≠ .stream)
    (h : kind.decodePlain atom index data = .ok (op, rest)) :
    ∃ own field, data = own ++ rest ∧ Rewrites kind atom index own rest op field := by
  -- data that is read to its end is followed by nothing
  have hnone {P : Bytes → Prop} (hP : P []) : ∀ more : Bytes, more.length ≤ 0 → P more := by
    intro more hmore
    rw [List.eq_nil_of_length_eq_zero (Nat.le_zero.mp hmore)]
    exact hP
  cases kind with
  | byte | named =>
    simp only [decodePlain] at h
    split at h
    · next b rest' =>
      cases h
      have hbyte : UInt8.ofNat b.toUInt32.toNat = b := by
        rw [UInt8.toNat_toUInt32, UInt8.ofNat_toNat]
      refine ⟨[b], _, rfl, .exact (by rintro ⟨⟩) ?_ (fun h => absurd h (List.cons_ne_nil _ _))
        fun more _ => rfl⟩
      rw [Operand.layout, hbyte]
    · cases h
  | word =>
    simp only [decodePlain] at h
    split at h
    · next hi lo rest' =>
      cases h
      have hword : UInt16.ofNat (Bytes.uint16 hi lo).toUInt32.toNat = Bytes.uint16 hi lo := by
        rw [UInt16.toNat_toUInt32, UInt16.ofNat_toNat]
      refine ⟨[hi, lo], _, rfl, .exact (by rintro ⟨⟩) ?_ (fun h => absurd h (List.cons_ne_nil _ _))
        fun more _ => rfl⟩
      rw [Operand.layout, hword, Bytes.ofUInt16_uint16]
    · cases h
  | dword =>
    rw [decodePlain] at h
    split at h
    · next v rest' hv =>
      cases h
      refine ⟨_, _, Bytes.eq_of_uint32? hv, .exact (by rintro ⟨⟩) rfl
        (fun h => absurd h (List.cons_ne_nil _ _)) fun more _ => ?_⟩
      rw [decodePlain, Bytes.uint32?_ofUInt32_append]
    · cases h
  | num =>
    rw [decodePlain] at h
    split at h
    · cases h
    · next hlength =>
      cases h
      rw [not_or] at hlength
      exact ⟨data, _, (List.append_nil _).symm, .num hlength.1 (Nat.le_of_not_lt hlength.2)⟩
  | text =>
    rw [decodePlain] at h
    split at h
    · next s hs =>
      cases h
      refine ⟨data, _, (List.append_nil _).symm, .exact (by rintro ⟨⟩) ?_ (fun _ => rfl) (hnone ?_)⟩
      · rw [Operand.layout, Text.utf8_of_utf8? hs]
      · rw [List.append_nil, decodePlain, hs]
    · cases h
  | gid =>
    rw [decodePlain] at h
    obtain ⟨gid, hgid, heq⟩ := bind_eq_ok_iff.mp h
    cases heq
    have hdecode : Gid.decode? data = some gid := by
      rw [Gid.decode] at hgid
      split at hgid
      · next hgid' =>
        cases hgid
        exact hgid'
      · cases hgid
    refine ⟨data, _, (List.append_nil _).symm, .exact (by rintro ⟨⟩) ?_ (fun _ => rfl) (hnone ?_)⟩
    · rw [Operand.layout, Gid.encode_of_decode? hdecode]
    · rw [List.append_nil, decodePlain, hgid]
      rfl
  | raw =>
    rw [decodePlain] at h
    cases h
    exact ⟨data, _, (List.append_nil _).symm, .exact (by rintro ⟨⟩) rfl (fun _ => rfl)
      (hnone (by rw [List.append_nil]; rfl))⟩
  | stream => exact absurd rfl hkind

end FieldKind

-- ---------------------------------------------------------------------------
-- Writing again
-- ---------------------------------------------------------------------------

/-- Parts that are no longer than other parts make the same whole only if they are the same. -/
theorem append_eq_append_iff_of_length_le {front back front' back' : Bytes}
    (hfront : front.length ≤ front'.length) (hback : back.length ≤ back'.length) :
    front ++ back = front' ++ back' ↔ front = front' ∧ back = back' := by
  constructor
  · intro h
    have hlength := congrArg List.length h
    rw [List.length_append, List.length_append] at hlength
    exact List.append_inj h (by omega)
  · rintro ⟨rfl, rfl⟩
    rfl

/-- The operands in data are written again: not longer, for the same operands, and the same data if it
is as short as can be. -/
structure Operand.Rewrites (s : Signature) (inner : UInt16) (index : Nat) (kinds : List FieldKind)
    (data : Bytes) (ops : List Operand) (fields : List FieldLayout) : Prop where
  laid : Operand.layoutEach s.name kinds ops = .ok fields
  shorter : (FieldLayout.bytesEach fields).length ≤ data.length
  again : Operand.Spells s inner index kinds (FieldLayout.bytesEach fields) ops
  kept : FieldLayout.bytesEach fields = data ↔ Operand.IsShort kinds data

/-- The atoms in bytes are written again: not longer, for the same atoms, and the same bytes if they
are as short as can be. -/
structure Atom.Rewrites (base depth : UInt16) (bytes : Bytes) (atoms : List Atom)
    (layouts : List AtomLayout) : Prop where
  laid : Atom.layoutEach [] atoms = .ok layouts
  shorter : (AtomLayout.bytesEach layouts).length ≤ bytes.length
  again : Atom.Spells base depth (AtomLayout.bytesEach layouts) atoms
  kept : AtomLayout.bytesEach layouts = bytes ↔ Atom.IsShortest bytes

/-- A number, and a stream, stands alone in its data. -/
def FieldKind.AreAlone (kinds : List FieldKind) : Prop :=
  ∀ kind ∈ kinds, kind = .num ∨ kind = .stream → kinds = [kind]

theorem FieldKind.AreAlone.tail {kind : FieldKind} {kinds : List FieldKind}
    (h : AreAlone (kind :: kinds)) : AreAlone kinds := by
  intro other hmem hother
  have heq := h other (List.mem_cons_of_mem _ hmem) hother
  cases heq
  cases hmem

theorem Signature.areAlone_fields {tag : Tag} {s : Signature} (h : byTag? tag = some s) :
    FieldKind.AreAlone s.fields :=
  fun _ hmem hkind => fields_eq_singleton (mem_of_byTag? h) hkind hmem

/-- No bytes stand for no atoms. -/
theorem Atom.Spells.eq_nil_iff {base depth : UInt16} {bytes : Bytes} {atoms : List Atom}
    (h : Spells base depth bytes atoms) : bytes = [] ↔ atoms = [] := by
  cases h with
  | nil => exact ⟨fun _ => rfl, fun _ => rfl⟩
  | cons split =>
    refine ⟨?_, nofun⟩
    rintro rfl
    cases split

namespace Operand

variable {s : Signature} {inner : UInt16} {index : Nat} {kind : FieldKind} {kinds : List FieldKind}
  {data : Bytes} {op : Operand} {ops : List Operand} {fields : List FieldLayout}

theorem isShort_nil (kinds : List FieldKind) : IsShort kinds [] :=
  ⟨fun _ => nofun, fun _ => Atom.isShortest_nil⟩

/-- Fields after another one ask nothing of their data, as they hold no number and no stream. -/
theorem isShort_tail (halone : FieldKind.AreAlone (kind :: kinds)) : IsShort kinds data := by
  have hne (other : FieldKind) (hother : other = .num ∨ other = .stream) : kinds ≠ [other] := by
    rintro rfl
    cases halone other (List.mem_cons_of_mem _ List.mem_cons_self) hother
  exact ⟨fun h => absurd h (hne _ (.inl rfl)), fun h => absurd h (hne _ (.inr rfl))⟩

theorem isShort_cons_plain (halone : FieldKind.AreAlone (kind :: kinds)) (hkind : kind ≠ .stream) :
    IsShort (kind :: kinds) data ↔ (kind = .num → data.IsMinimal) := by
  constructor
  · intro h hnum
    refine h.1 ?_
    rw [halone kind List.mem_cons_self (.inl hnum), hnum]
  · intro h
    refine ⟨fun heq => ?_, fun heq => ?_⟩ <;> cases heq
    · exact h rfl
    · exact absurd rfl hkind

/-- Operands for which there is no field take no data. -/
theorem Spells.eq_nil (h : Spells s inner index [] data ops) : data = [] := by
  cases h
  rfl

theorem Rewrites.omitted (omitted : kinds = [] ∨ s.required ≤ index) :
    Rewrites s inner index kinds [] [] [] := by
  refine ⟨layoutEach_nil _ _, Nat.le_refl _, ?_, ?_⟩
  · cases kinds with
    | nil => exact .nil
    | cons kind kinds => exact .omitted (omitted.resolve_left (List.cons_ne_nil _ _))
  · exact ⟨fun _ => isShort_nil kinds, fun _ => rfl⟩

theorem Rewrites.plain {own rest : Bytes} {field : FieldLayout}
    (halone : FieldKind.AreAlone (kind :: kinds)) (hlast : kinds = [] → rest = [])
    (present : ¬(own ++ rest = [] ∧ s.required ≤ index)) (carries : kind ≠ .stream)
    (first : FieldKind.Rewrites kind s.name (index + 1) own rest op field)
    (later : Rewrites s inner (index + 1) kinds rest ops fields) :
    Rewrites s inner index (kind :: kinds) (own ++ rest) (op :: ops) (field :: fields) := by
  refine ⟨layoutEach_cons_eq_ok.mpr ⟨field, fields, first.laid, later.laid, rfl⟩, ?_, ?_, ?_⟩
  · rw [FieldLayout.bytesEach, List.length_append, List.length_append]
    exact Nat.add_le_add first.shorter later.shorter
  · refine .plain ?_ carries (first.again _ later.shorter) later.again
    rintro ⟨hnil, hrequired⟩
    exact present ⟨first.empty (List.append_eq_nil_iff.mp hnil).1, hrequired⟩
  · rw [FieldLayout.bytesEach, append_eq_append_iff_of_length_le first.shorter later.shorter,
      first.kept, later.kept, isShort_cons_plain halone carries, and_iff_left (isShort_tail halone)]
    -- a number is followed by nothing
    refine imp_congr_right fun hnum => ?_
    have hnil := halone kind List.mem_cons_self (.inl hnum)
    rw [hlast (List.cons.inj hnil).2, List.append_nil]

theorem Rewrites.stream {atoms : List Atom} {layouts : List AtomLayout}
    (present : ¬(data = [] ∧ s.required ≤ index)) (h : Atom.Spells inner inner data atoms)
    (nested : Atom.Rewrites inner inner data atoms layouts) :
    Rewrites s inner index [.stream] data [.stream atoms] [.stream layouts] := by
  have hbytes : FieldLayout.bytesEach [.stream layouts] = AtomLayout.bytesEach layouts := by
    rw [FieldLayout.bytesEach, FieldLayout.bytesEach, FieldLayout.bytes, List.append_nil]
  refine ⟨?_, hbytes ▸ nested.shorter, ?_, ?_⟩
  · rw [layoutEach, layout, nested.laid]
    rfl
  · rw [hbytes]
    refine .stream ?_ nested.again .nil
    rintro ⟨hnil, hrequired⟩
    exact present ⟨(Atom.Spells.eq_nil_iff h).mpr ((Atom.Spells.eq_nil_iff nested.again).mp hnil),
      hrequired⟩
  · rw [hbytes, nested.kept, IsShort]
    simp

end Operand

namespace Atom

variable {s : Signature} {base depth : UInt16} {bytes rest : Bytes} {header size : Nat}
  {ops : List Operand} {atoms : List Atom} {fields : List FieldLayout} {layouts : List AtomLayout}

theorem Rewrites.nil : Rewrites base depth [] [] [] := by
  refine ⟨rfl, Nat.le_refl _, .nil, ?_⟩
  exact ⟨fun _ => isShortest_nil, fun _ => rfl⟩

theorem Rewrites.cons (split : splitHeader? bytes = some (s.tag, header, size, rest))
    (enough : size ≤ rest.length) (known : Signature.byTag? s.tag = some s)
    (own : Operand.Rewrites s (s.effect.depthAt base depth + 1) 0 s.fields (rest.take size) ops
      fields)
    (later : Rewrites base (s.effect.depthAfter (s.effect.depthAt base depth)) (rest.drop size) atoms
      layouts) :
    Rewrites base depth bytes (.mk s ops (s.effect.depthAt base depth) :: atoms)
      (.mk s.tag (FieldLayout.total fields) fields :: layouts) := by
  obtain ⟨front, hbytes, hfront, hmax, hheader, hkept⟩ := AtomLayout.header_of_splitHeader? split
  have htotal : FieldLayout.total fields = (FieldLayout.bytesEach fields).length := by
    obtain ⟨htotal, hlength⟩ := Operand.length_of_layoutEach own.laid
    rw [htotal, hlength]
  have hdata : (rest.take size).length = size := by
    rw [List.length_take, Nat.min_eq_left enough]
  have hsize : FieldLayout.total fields ≤ size := by
    rw [htotal, ← hdata]
    exact own.shorter
  -- less data has no longer a header
  have hshorter : (AtomLayout.header s.tag (FieldLayout.total fields)).length ≤ front.length :=
    (AtomLayout.length_header_mono s.tag hsize).trans (hfront ▸ hheader)
  have hwritten : AtomLayout.bytesEach (.mk s.tag (FieldLayout.total fields) fields :: layouts) =
      AtomLayout.header s.tag (FieldLayout.total fields) ++
        (FieldLayout.bytesEach fields ++ AtomLayout.bytesEach layouts) := by
    rw [AtomLayout.bytesEach, AtomLayout.bytes, List.append_assoc]
  have hread : bytes = front ++ (rest.take size ++ rest.drop size) := by
    rw [hbytes, List.take_append_drop]
  have hback : (FieldLayout.bytesEach fields ++ AtomLayout.bytesEach layouts).length ≤
      (rest.take size ++ rest.drop size).length := by
    rw [List.length_append, List.length_append]
    exact Nat.add_le_add own.shorter later.shorter
  refine ⟨?_, ?_, ?_, ?_⟩
  · exact layoutEach_cons_eq_ok.mpr
      ⟨_, _, layout_eq_ok.mpr ⟨fields, own.laid, hsize.trans hmax, rfl⟩, later.laid, rfl⟩
  · rw [hwritten, hread]
    simp only [List.length_append] at hback ⊢
    omega
  · rw [hwritten]
    refine .cons (splitHeader?_header s.tag _ (hsize.trans hmax)) ?_ known ?_ ?_
    · rw [htotal, List.length_append]
      exact Nat.le_add_right ..
    · rw [htotal, List.take_left]
      exact own.again
    · rw [htotal, List.drop_left]
      exact later.again
  · rw [isShortest_cons split enough known, ← own.kept, ← later.kept, ← hkept, hwritten,
      hread, append_eq_append_iff_of_length_le hshorter hback,
      append_eq_append_iff_of_length_le own.shorter later.shorter]
    -- the same data has the same size
    refine and_congr_left fun hsame => ?_
    rw [htotal, hsame.1, hdata]

end Atom

mutual

theorem Operand.Spells.rewrites {s : Signature} {inner : UInt16} :
    ∀ {index : Nat} {kinds : List FieldKind} {data : Bytes} {ops : List Operand},
      Operand.Spells s inner index kinds data ops → FieldKind.AreAlone kinds →
      ∃ fields, Operand.Rewrites s inner index kinds data ops fields
  | _, _, _, _, .nil, _ => ⟨[], .omitted (.inl rfl)⟩
  | _, _, _, _, .omitted optional, _ => ⟨[], .omitted (.inr optional)⟩
  | _, _, _, _, .plain present carries read later, halone => by
    obtain ⟨fields, hlater⟩ := Operand.Spells.rewrites later halone.tail
    obtain ⟨own, field, rfl, hfirst⟩ := FieldKind.rewrites_of_decodePlain carries read
    refine ⟨field :: fields, .plain halone ?_ present carries hfirst hlater⟩
    rintro rfl
    exact later.eq_nil
  | _, _, _, _, .stream present nested later, halone => by
    obtain ⟨layouts, hnested⟩ := Atom.Spells.rewrites nested
    cases halone .stream List.mem_cons_self (.inr rfl)
    cases later
    exact ⟨[.stream layouts], .stream present nested hnested⟩

theorem Atom.Spells.rewrites {base : UInt16} :
    ∀ {depth : UInt16} {bytes : Bytes} {atoms : List Atom}, Atom.Spells base depth bytes atoms →
      ∃ layouts, Atom.Rewrites base depth bytes atoms layouts
  | _, _, _, .nil => ⟨[], .nil⟩
  | _, _, _, .cons split enough known operands later => by
    obtain ⟨fields, hfields⟩ := Operand.Spells.rewrites operands (Signature.areAlone_fields known)
    obtain ⟨layouts, hlater⟩ := Atom.Spells.rewrites later
    exact ⟨_, .cons split enough known hfields hlater⟩

end

-- ---------------------------------------------------------------------------
-- Reading and writing again
-- ---------------------------------------------------------------------------

/-- What the reader accepts is written again: not longer, and so that it is read as the same atoms;
it is the same bytes if they are as short as can be. -/
theorem Atom.rewritten_of_decodeStream {bytes : Bytes} {atoms : List Atom}
    (h : decodeStream bytes = .ok atoms) :
    ∃ encoded, encodeStream atoms = .ok encoded ∧ encoded.bytes.length ≤ bytes.length ∧
      decodeStream encoded.bytes = .ok atoms ∧ (encoded.bytes = bytes ↔ IsShortest bytes) := by
  obtain ⟨layouts, hrewrites⟩ := (decodeStream_eq_ok_iff.mp h).rewrites
  refine ⟨.ofLayout layouts, encodeStream_eq_ok_iff.mpr ⟨layouts, hrewrites.laid, rfl⟩, ?_⟩
  rw [Encoded.bytes_ofLayout]
  exact ⟨hrewrites.shorter, decodeStream_eq_ok_iff.mpr hrewrites.again, hrewrites.kept⟩

/-- What the reader accepts is written again: not longer, so that it is read as the same atoms, with
equal operands and depths at every level, and as the same bytes exactly if they are as short as can
be.  Of all bytes that are read as these atoms, the ones that are written are the only ones that are
as short as can be. -/
theorem Atom.decodeStream_normalises {bytes : Bytes} {atoms : List Atom}
    (h : decodeStream bytes = .ok atoms) :
    ∃ encoded, encodeStream atoms = .ok encoded ∧ encoded.bytes.length ≤ bytes.length ∧
      decodeStream encoded.bytes = .ok atoms ∧ (encoded.bytes = bytes ↔ IsShortest bytes) ∧
      ∀ other, decodeStream other = .ok atoms → (other = encoded.bytes ↔ IsShortest other) := by
  obtain ⟨encoded, hencoded, hshorter, hagain, hkept⟩ := rewritten_of_decodeStream h
  refine ⟨encoded, hencoded, hshorter, hagain, hkept, fun other hother => ?_⟩
  -- the other bytes are written as these are, since they are read as the same atoms
  obtain ⟨encoded', hencoded', -, -, hkept'⟩ := rewritten_of_decodeStream hother
  rw [hencoded] at hencoded'
  cases hencoded'
  rw [← hkept', eq_comm]

/-- A number with two zeros in front, in an atom whose length takes two bytes, goes from ten bytes to
seven. -/
theorem Atom.decodeStream_normalises_padded :
    let action : Signature := .plain "act_replace_action" .act 2 [.stream]
    let skip : Signature := .plain "uni_sync_skip" .uni 14 [.num]
    let atoms : List Atom := [.mk action [.stream [.mk skip [.int 5] 1]] 0]
    let padded : Bytes := [2, 2, 0x80, 6, 0, 14, 3, 0, 0, 5]
    let short : Bytes := [2, 2, 4, 0, 14, 1, 5]
    decodeStream padded = .ok atoms ∧
      encodeStream atoms = .ok ⟨short, [⟨0, 3, 7⟩, ⟨3, 3, 4⟩]⟩ ∧ decodeStream short = .ok atoms ∧
      ¬IsShortest padded ∧ IsShortest short := by
  intro action skip atoms padded short
  have hread : decodeStream padded = .ok atoms := by
    cbv
  have hwritten : encodeStream atoms = .ok ⟨short, [⟨0, 3, 7⟩, ⟨3, 3, 4⟩]⟩ := by
    cbv
  obtain ⟨encoded, hencoded, -, hagain, hkept, hother⟩ := decodeStream_normalises hread
  rw [hwritten] at hencoded
  cases hencoded
  refine ⟨hread, hwritten, hagain, ?_, (hother short hagain).mp rfl⟩
  rw [← hkept]
  decide

end Switchboard
