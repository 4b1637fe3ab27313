import Switchboard.Proofs.Atom.Layout

/-!
# Where atoms stand in a stream

`Atom.StandsAt` says at which byte of a stream an atom starts, counted from the atoms alone.  The
spans that are written along with the bytes note these places, in order.

Main results:

* `Encoded.within_spans`: the spans of a stream are in order, each starts after the header before it,
  and all headers end within the bytes.
* `Atom.StandsAt.mem_spans`: the spans note where atoms stand, at every level.
* `Atom.StandsAt.isPrefix`: the bytes of an atom stand there.
-/

namespace Switchboard

-- ---------------------------------------------------------------------------
-- Places
-- ---------------------------------------------------------------------------

namespace Atom

/-- The number of bytes that the tag and the length of an atom take. -/
def headerLength (a : Atom) : Nat :=
  if a.dataLength < 0x80 then 3 else 4

/-- The number of bytes that an atom takes. -/
def wireLength (a : Atom) : Nat :=
  a.headerLength + a.dataLength

/-- The data of operands in the given fields has a stream of atoms that starts at a byte. -/
inductive HasStream (atoms : List Atom) : Nat → List FieldKind → List Operand → Prop where
  | first {kinds ops} : HasStream atoms 0 (.stream :: kinds) (.stream atoms :: ops)
  | next {offset kind kinds op ops} (later : HasStream atoms offset kinds ops) :
      HasStream atoms (op.dataLength kind + offset) (kind :: kinds) (op :: ops)

/-- An atom stands in a stream, at some level, and starts at a byte of it. -/
inductive StandsAt (a : Atom) : Nat → List Atom → Prop where
  | here {rest} : StandsAt a 0 (a :: rest)
  | after {offset b rest} (later : StandsAt a offset rest) :
      StandsAt a (b.wireLength + offset) (b :: rest)
  | inside {offset start inner b rest}
      (place : HasStream inner start b.signature.fields b.operands)
      (nested : StandsAt a offset inner) :
      StandsAt a (b.headerLength + (start + offset)) (b :: rest)

end Atom

-- ---------------------------------------------------------------------------
-- The spans of a layout
-- ---------------------------------------------------------------------------

mutual

/-- The spans in an operand that starts at the given offset. -/
def FieldLayout.spans (offset : Nat) : FieldLayout → List Span
  | .plain _ => []
  | .stream atoms => AtomLayout.spansEach offset atoms

/-- The spans in operands. -/
def FieldLayout.spansEach (offset : Nat) : List FieldLayout → List Span
  | [] => []
  | field :: fields => field.spans offset ++ FieldLayout.spansEach (offset + field.size) fields

/-- The spans of an atom and of those in it. -/
def AtomLayout.spans (offset : Nat) : AtomLayout → List Span
  | .mk tag count fields =>
    AtomLayout.span offset (.mk tag count fields) ::
      FieldLayout.spansEach (offset + (AtomLayout.header tag count).length) fields

/-- The spans of atoms. -/
def AtomLayout.spansEach (offset : Nat) : List AtomLayout → List Span
  | [] => []
  | atom :: atoms => atom.spans offset ++ AtomLayout.spansEach (offset + atom.size) atoms

end

mutual

theorem FieldLayout.spansOnto_eq (offset : Nat) (done : List Span) :
    ∀ field : FieldLayout, field.spansOnto offset done = (field.spans offset).reverse ++ done
  | .plain bytes => by rw [FieldLayout.spansOnto, FieldLayout.spans]; rfl
  | .stream atoms => by
    rw [FieldLayout.spansOnto, FieldLayout.spans, AtomLayout.spansOntoEach_eq]

theorem FieldLayout.spansOntoEach_eq (offset : Nat) (done : List Span) :
    ∀ fields : List FieldLayout, FieldLayout.spansOntoEach offset done fields =
      (FieldLayout.spansEach offset fields).reverse ++ done
  | [] => by rw [FieldLayout.spansOntoEach, FieldLayout.spansEach]; rfl
  | field :: fields => by
    rw [FieldLayout.spansOntoEach, FieldLayout.spansEach, FieldLayout.spansOnto_eq,
      FieldLayout.spansOntoEach_eq, List.reverse_append, List.append_assoc]

theorem AtomLayout.spansOnto_eq (offset : Nat) (done : List Span) :
    ∀ atom : AtomLayout, atom.spansOnto offset done = (atom.spans offset).reverse ++ done
  | .mk tag count fields => by
    rw [AtomLayout.spansOnto, AtomLayout.spans, FieldLayout.spansOntoEach_eq, List.reverse_cons,
      List.append_assoc]
    rfl

theorem AtomLayout.spansOntoEach_eq (offset : Nat) (done : List Span) :
    ∀ atoms : List AtomLayout, AtomLayout.spansOntoEach offset done atoms =
      (AtomLayout.spansEach offset atoms).reverse ++ done
  | [] => by rw [AtomLayout.spansOntoEach, AtomLayout.spansEach]; rfl
  | atom :: atoms => by
    rw [AtomLayout.spansOntoEach, AtomLayout.spansEach, AtomLayout.spansOnto_eq,
      AtomLayout.spansOntoEach_eq, List.reverse_append, List.append_assoc]

end

theorem Encoded.spans_ofLayout (atoms : List AtomLayout) :
    (ofLayout atoms).spans = AtomLayout.spansEach 0 atoms := by
  rw [ofLayout, AtomLayout.spansOntoEach_eq, List.append_nil, List.reverse_reverse]

theorem Atom.encodeStream_eq_ok_iff {atoms : List Atom} {encoded : Encoded} :
    encodeStream atoms = .ok encoded ↔
      ∃ layouts, layoutEach [] atoms = .ok layouts ∧ encoded = .ofLayout layouts := by
  rw [encodeStream, bind_eq_ok_iff]
  constructor
  · rintro ⟨layouts, hlayouts, heq⟩
    cases heq
    exact ⟨layouts, hlayouts, rfl⟩
  · rintro ⟨layouts, hlayouts, rfl⟩
    exact ⟨layouts, hlayouts, rfl⟩

-- ---------------------------------------------------------------------------
-- The order of spans
-- ---------------------------------------------------------------------------

/-- Headers that lie one after the other in a part of a stream. -/
structure AreWithin (start stop : Nat) (spans : List Span) : Prop where
  apart : spans.Pairwise fun s t => s.offset + s.headerLength ≤ t.offset
  header : ∀ s ∈ spans, 0 < s.headerLength ∧ s.headerLength ≤ 4
  lower : ∀ s ∈ spans, start ≤ s.offset
  upper : ∀ s ∈ spans, s.offset + s.headerLength ≤ stop

namespace AreWithin

variable {start middle stop : Nat} {spans others : List Span}

theorem nil (start stop : Nat) : AreWithin start stop [] :=
  ⟨.nil, nofun, nofun, nofun⟩

/-- Spans of one part come before those of the next. -/
theorem append (h : AreWithin start middle spans) (hothers : AreWithin middle stop others)
    (hstart : start ≤ middle) (hstop : middle ≤ stop) : AreWithin start stop (spans ++ others) := by
  refine ⟨?_, ?_, ?_, ?_⟩
  · refine List.pairwise_append.mpr ⟨h.apart, hothers.apart, fun s hs t ht => ?_⟩
    exact (h.upper s hs).trans (hothers.lower t ht)
  · intro s hs
    rcases List.mem_append.mp hs with hs | hs
    · exact h.header s hs
    · exact hothers.header s hs
  · intro s hs
    rcases List.mem_append.mp hs with hs | hs
    · exact h.lower s hs
    · exact hstart.trans (hothers.lower s hs)
  · intro s hs
    rcases List.mem_append.mp hs with hs | hs
    · exact (h.upper s hs).trans hstop
    · exact hothers.upper s hs

/-- The header of an atom comes before those of the atoms in its data. -/
theorem cons (span : Span) (h : AreWithin (span.offset + span.headerLength) stop spans)
    (hheader : 0 < span.headerLength ∧ span.headerLength ≤ 4)
    (hstop : span.offset + span.headerLength ≤ stop) :
    AreWithin span.offset stop (span :: spans) := by
  have hsingle : AreWithin span.offset (span.offset + span.headerLength) [span] := by
    refine ⟨List.pairwise_singleton _ _, ?_, ?_, ?_⟩ <;> intro s hs
    · rw [List.mem_singleton.mp hs]
      exact hheader
    · rw [List.mem_singleton.mp hs]
    · rw [List.mem_singleton.mp hs]
  exact hsingle.append h (Nat.le_add_right ..) hstop

end AreWithin

mutual

theorem Operand.within_spans {atom : String} {kind : FieldKind} (offset : Nat) :
    ∀ {op : Operand} {field : FieldLayout}, op.layout atom kind = .ok field →
      AreWithin offset (offset + field.size) (field.spans offset)
  | .stream atoms, field, h => by
    cases kind with
    | stream =>
      rw [Operand.layout] at h
      obtain ⟨layouts, hlayouts, heq⟩ := bind_eq_ok_iff.mp h
      cases heq
      rw [FieldLayout.size, FieldLayout.spans, AtomLayout.foldl_size, Nat.zero_add]
      exact Atom.within_spansEach offset hlayouts
    | byte | word | dword | num | named | text | raw | gid => cases h
  | .int v, field, h | .str s, field, h | .raw bytes, field, h | .gid gid, field, h => by
    cases kind <;> cases h <;> exact .nil _ _

theorem Operand.within_spansEach {atom : String} (offset : Nat) :
    ∀ {kinds : List FieldKind} {ops : List Operand} {fields : List FieldLayout},
      Operand.layoutEach atom kinds ops = .ok fields →
      AreWithin offset (offset + FieldLayout.total fields) (FieldLayout.spansEach offset fields)
  | [], ops, fields, h => by
    rw [Operand.layoutEach] at h
    · cases h
      exact .nil _ _
    · rintro _ _ _ _ ⟨⟩
  | kind :: kinds, [], fields, h => by
    rw [Operand.layoutEach_nil] at h
    cases h
    exact .nil _ _
  | kind :: kinds, op :: ops, fields, h => by
    obtain ⟨first, rest, hfirst, hrest, rfl⟩ := Operand.layoutEach_cons_eq_ok.mp h
    have hlater := Operand.within_spansEach (offset + first.size) hrest
    rw [Nat.add_assoc] at hlater
    exact (Operand.within_spans offset hfirst).append hlater (Nat.le_add_right ..)
      (Nat.add_le_add_left (Nat.le_add_right ..) offset)

theorem Atom.within_spans (offset : Nat) :
    ∀ {a : Atom} {layout : AtomLayout}, a.layout = .ok layout →
      AreWithin offset (offset + layout.size) (layout.spans offset)
  | .mk s ops depth, layout, h => by
    obtain ⟨fields, hfields, -, rfl⟩ := Atom.layout_eq_ok.mp h
    have hinner := Operand.within_spansEach
      (offset + (AtomLayout.header s.tag (FieldLayout.total fields)).length) hfields
    rw [Nat.add_assoc] at hinner
    refine AreWithin.cons (AtomLayout.span offset (.mk s.tag (FieldLayout.total fields) fields))
      hinner ?_ ?_
    · show 0 < (AtomLayout.header _ _).length ∧ (AtomLayout.header _ _).length ≤ 4
      rw [AtomLayout.length_header]
      split <;> omega
    · exact Nat.add_le_add_left (Nat.le_add_right ..) offset

theorem Atom.within_spansEach (offset : Nat) :
    ∀ {atoms : List Atom} {layouts : List AtomLayout}, Atom.layoutEach [] atoms = .ok layouts →
      AreWithin offset (offset + AtomLayout.total layouts) (AtomLayout.spansEach offset layouts)
  | [], layouts, h => by
    rw [Atom.layoutEach_nil_eq_ok.mp h]
    exact .nil _ _
  | a :: atoms, layouts, h => by
    obtain ⟨first, rest, hfirst, hrest, rfl⟩ := Atom.layoutEach_cons_eq_ok.mp h
    have hlater := Atom.within_spansEach (offset + first.size) hrest
    rw [Nat.add_assoc] at hlater
    exact (Atom.within_spans offset hfirst).append hlater (Nat.le_add_right ..)
      (Nat.add_le_add_left (Nat.le_add_right ..) offset)

end

/-- The spans of a stream are in order, and the headers end within the bytes. -/
theorem Encoded.within_spans {atoms : List Atom} {encoded : Encoded}
    (h : Atom.encodeStream atoms = .ok encoded) : AreWithin 0 encoded.bytes.length encoded.spans := by
  obtain ⟨layouts, hlayouts, rfl⟩ := Atom.encodeStream_eq_ok_iff.mp h
  obtain ⟨htotal, hbytes⟩ := Atom.length_of_layoutEach hlayouts
  have hwithin := Atom.within_spansEach 0 hlayouts
  rw [Nat.zero_add, htotal, ← hbytes] at hwithin
  rw [bytes_ofLayout, spans_ofLayout]
  exact hwithin

-- ---------------------------------------------------------------------------
-- The spans and bytes at a place
-- ---------------------------------------------------------------------------

/-- The span of an atom that starts at the given offset. -/
def Atom.span (a : Atom) (offset : Nat) : Span :=
  ⟨offset, a.headerLength, a.wireLength⟩

theorem Atom.size_of_layout {a : Atom} {layout : AtomLayout} (h : a.layout = .ok layout) :
    layout.size = a.wireLength :=
  (Atom.length_of_layout h).1

theorem Atom.length_bytes_of_layout {a : Atom} {layout : AtomLayout} (h : a.layout = .ok layout) :
    layout.bytes.length = a.wireLength :=
  (Atom.length_of_layout h).2

/-- An atom that is laid out has a header, and its data by operands. -/
theorem Atom.of_layout {a : Atom} {layout : AtomLayout} (h : a.layout = .ok layout) :
    ∃ fields, Operand.layoutEach a.name a.signature.fields a.operands = .ok fields ∧
      layout = .mk a.signature.tag a.dataLength fields ∧
      (AtomLayout.header a.signature.tag a.dataLength).length = a.headerLength := by
  obtain ⟨s, ops, depth⟩ := a
  obtain ⟨fields, hfields, -, rfl⟩ := Atom.layout_eq_ok.mp h
  have htotal : FieldLayout.total fields = (Atom.mk s ops depth).dataLength :=
    (Operand.length_of_layoutEach hfields).1
  exact ⟨fields, hfields, by rw [htotal]; rfl, AtomLayout.length_header ..⟩

/-- The span that is noted for an atom is the atom's. -/
theorem Atom.span_of_layout {a : Atom} {layout : AtomLayout} (h : a.layout = .ok layout)
    (offset : Nat) : layout.span offset = a.span offset := by
  obtain ⟨fields, -, rfl, hheader⟩ := Atom.of_layout h
  rw [AtomLayout.span, hheader]
  rfl

/-- A stream in the data of operands has its spans and bytes there. -/
theorem Atom.HasStream.of_layoutEach {inner : List Atom} {start : Nat} {kinds : List FieldKind}
    {ops : List Operand} (h : HasStream inner start kinds ops) {atom : String}
    {fields : List FieldLayout} (hfields : Operand.layoutEach atom kinds ops = .ok fields) :
    ∃ layouts before after, Atom.layoutEach [] inner = .ok layouts ∧ before.length = start ∧
      FieldLayout.bytesEach fields = before ++ AtomLayout.bytesEach layouts ++ after ∧
      ∀ offset, ∀ s ∈ AtomLayout.spansEach (offset + start) layouts,
        s ∈ FieldLayout.spansEach offset fields := by
  induction h generalizing fields with
  | first =>
    obtain ⟨first, rest, hfirst, hrest, rfl⟩ := Operand.layoutEach_cons_eq_ok.mp hfields
    rw [Operand.layout] at hfirst
    obtain ⟨layouts, hlayouts, heq⟩ := bind_eq_ok_iff.mp hfirst
    cases heq
    refine ⟨layouts, [], FieldLayout.bytesEach rest, hlayouts, rfl, rfl, ?_⟩
    intro offset s hs
    exact List.mem_append_left _ hs
  | next _ ih =>
    obtain ⟨first, rest, hfirst, hrest, rfl⟩ := Operand.layoutEach_cons_eq_ok.mp hfields
    obtain ⟨hsize, hlength⟩ := Operand.length_of_layout hfirst
    obtain ⟨layouts, before, after, hlayouts, rfl, hbytes, hspans⟩ := ih hrest
    refine ⟨layouts, first.bytes ++ before, after, hlayouts, ?_, ?_, ?_⟩
    · rw [List.length_append, hlength]
    · rw [FieldLayout.bytesEach, hbytes]
      simp only [List.append_assoc]
    · intro offset s hs
      rw [← Nat.add_assoc, ← hsize] at hs
      exact List.mem_append_right _ (hspans (offset + first.size) s hs)

/-- An atom in a stream has its span and its bytes at its place. -/
theorem Atom.StandsAt.of_layoutEach {a : Atom} {place : Nat} {atoms : List Atom}
    (h : a.StandsAt place atoms) {layouts : List AtomLayout}
    (hlayouts : Atom.layoutEach [] atoms = .ok layouts) :
    ∃ layout before after, a.layout = .ok layout ∧ before.length = place ∧
      AtomLayout.bytesEach layouts = before ++ layout.bytes ++ after ∧
      ∀ offset, a.span (offset + place) ∈ AtomLayout.spansEach offset layouts := by
  induction h generalizing layouts with
  | here =>
    obtain ⟨first, rest, hfirst, hrest, rfl⟩ := Atom.layoutEach_cons_eq_ok.mp hlayouts
    refine ⟨first, [], AtomLayout.bytesEach rest, hfirst, rfl, rfl, ?_⟩
    intro offset
    have hspan := Atom.span_of_layout hfirst offset
    obtain ⟨fields, -, rfl, -⟩ := Atom.of_layout hfirst
    rw [AtomLayout.spansEach, AtomLayout.spans, hspan]
    exact List.mem_append_left _ List.mem_cons_self
  | after _ ih =>
    obtain ⟨first, rest, hfirst, hrest, rfl⟩ := Atom.layoutEach_cons_eq_ok.mp hlayouts
    obtain ⟨layout, before, after, hlayout, rfl, hbytes, hspans⟩ := ih hrest
    refine ⟨layout, first.bytes ++ before, after, hlayout, ?_, ?_, ?_⟩
    · rw [List.length_append, Atom.length_bytes_of_layout hfirst]
    · rw [AtomLayout.bytesEach, hbytes]
      simp only [List.append_assoc]
    · intro offset
      have hspan := hspans (offset + first.size)
      rw [Atom.size_of_layout hfirst, Nat.add_assoc] at hspan
      rw [AtomLayout.spansEach, Atom.size_of_layout hfirst]
      exact List.mem_append_right _ hspan
  | @inside _ _ _ b _ hstream _ ih =>
    obtain ⟨first, rest, hfirst, hrest, rfl⟩ := Atom.layoutEach_cons_eq_ok.mp hlayouts
    obtain ⟨fields, hfields, rfl, hheader⟩ := Atom.of_layout hfirst
    obtain ⟨layouts, before, after, hinner, rfl, hbytes, hspans⟩ := hstream.of_layoutEach hfields
    obtain ⟨layout, before', after', hlayout, rfl, hbytes', hspans'⟩ := ih hinner
    refine ⟨layout, AtomLayout.header b.signature.tag b.dataLength ++ (before ++ before'),
      after' ++ (after ++ AtomLayout.bytesEach rest), hlayout, ?_, ?_, ?_⟩
    · rw [List.length_append, List.length_append, hheader]
    · rw [AtomLayout.bytesEach, AtomLayout.bytes, hbytes, hbytes']
      simp only [List.append_assoc]
    · intro offset
      rw [AtomLayout.spansEach, AtomLayout.spans, hheader]
      refine List.mem_append_left _ (List.mem_cons_of_mem _ (hspans _ _ ?_))
      have hspan := hspans' (offset + b.headerLength + before.length)
      simp only [Nat.add_assoc] at hspan ⊢
      exact hspan

namespace Atom.StandsAt

variable {a : Atom} {place : Nat} {atoms : List Atom} {encoded : Encoded}

/-- The spans of a stream note where its atoms stand. -/
theorem mem_spans (h : a.StandsAt place atoms) (hencoded : encodeStream atoms = .ok encoded) :
    a.span place ∈ encoded.spans := by
  obtain ⟨layouts, hlayouts, rfl⟩ := encodeStream_eq_ok_iff.mp hencoded
  obtain ⟨layout, before, after, -, -, -, hspans⟩ := h.of_layoutEach hlayouts
  have hspan := hspans 0
  rw [Nat.zero_add] at hspan
  rw [Encoded.spans_ofLayout]
  exact hspan

/-- The bytes of an atom stand at its place. -/
theorem isPrefix (h : a.StandsAt place atoms) (hencoded : encodeStream atoms = .ok encoded) :
    ∃ own, a.encode = .ok own ∧ own.bytes <+: encoded.bytes.drop place := by
  obtain ⟨layouts, hlayouts, rfl⟩ := encodeStream_eq_ok_iff.mp hencoded
  obtain ⟨layout, before, after, hlayout, rfl, hbytes, -⟩ := h.of_layoutEach hlayouts
  refine ⟨.ofLayout [layout], ?_, ?_⟩
  · rw [encode, hlayout]
    rfl
  · rw [Encoded.bytes_ofLayout, Encoded.bytes_ofLayout, hbytes, List.append_assoc, List.drop_left,
      AtomLayout.bytesEach, AtomLayout.bytesEach, List.append_nil]
    exact List.prefix_append _ _

end Atom.StandsAt

end Switchboard
