import Mathlib.Data.List.Forall2
import Switchboard.Proofs.Atom.Spans

/-!
# How spans tile a stream

A stream is written without gaps: each atom starts where the one before it ends, and a stream that an
atom carries fills its part of the data in the same way.  `Atom.Tile` says this of spans, level by level,
and that each of them covers the bytes of its atom.

Main results:

* `Atom.tile_spansEach`: the spans that are written along with a stream tile it.
* `Atom.Tile.forall₂`: spans that tile a stream are one for each of its atoms, in document order.
* `Encoded.spans_tile`: what spans are, for every stream that can be written.
* `Encoded.surplus_unwritten`: a stream behind the last field of its atom has no spans, and no bytes.
-/

namespace Switchboard

-- ---------------------------------------------------------------------------
-- Document order
-- ---------------------------------------------------------------------------

mutual

/-- The atoms in an operand, in document order. -/
def Operand.inOrder (reach : Atom → Nat) : Operand → List Atom
  | .stream atoms => Atom.inOrder reach atoms
  | _ => []

/-- The atoms in the first operands, as many as there are to reach. -/
def Operand.inOrderEach (reach : Atom → Nat) : Nat → List Operand → List Atom
  | count + 1, op :: ops => op.inOrder reach ++ Operand.inOrderEach reach count ops
  | _, _ => []

/-- The atoms of a stream in document order.  Behind each stand those in its operands, of which `reach`
says how many count. -/
def Atom.inOrder (reach : Atom → Nat) : List Atom → List Atom
  | [] => []
  | .mk s ops depth :: atoms =>
    .mk s ops depth :: (Operand.inOrderEach reach (reach (.mk s ops depth)) ops ++
      Atom.inOrder reach atoms)

end

/-- The atoms of a stream that are written: an operand is, if it has a field. -/
def Atom.written (atoms : List Atom) : List Atom :=
  inOrder (·.signature.fields.length) atoms

/-- All atoms of a stream. -/
def Atom.all (atoms : List Atom) : List Atom :=
  inOrder (·.operands.length) atoms

theorem Atom.within_cons {a b : Atom} {atoms : List Atom} :
    a.Within (b :: atoms) ↔
      a = b ∨ (∃ inner, .stream inner ∈ b.operands ∧ a.Within inner) ∨ a.Within atoms := by
  constructor
  · intro h
    cases h with
    | here mem =>
      rcases List.mem_cons.mp mem with rfl | hmem
      · exact .inl rfl
      · exact .inr (.inr (.here hmem))
    | nested mem carried within =>
      rcases List.mem_cons.mp mem with rfl | hmem
      · exact .inr (.inl ⟨_, carried, within⟩)
      · exact .inr (.inr (.nested hmem carried within))
  · rintro (rfl | ⟨inner, carried, within⟩ | hrest)
    · exact .here List.mem_cons_self
    · exact .nested List.mem_cons_self carried within
    · exact hrest.mono (List.subset_cons_self ..)

mutual

theorem Operand.mem_inOrderEach {a : Atom} :
    ∀ ops : List Operand, a ∈ Operand.inOrderEach (·.operands.length) ops.length ops ↔
      ∃ inner, .stream inner ∈ ops ∧ a.Within inner
  | [] => by
    rw [Operand.inOrderEach]
    · constructor
      · exact fun h => absurd h List.not_mem_nil
      · rintro ⟨inner, hinner, -⟩
        exact absurd hinner List.not_mem_nil
    · rintro _ _ _ _ ⟨⟩
  | .stream atoms :: ops => by
    rw [List.length_cons, Operand.inOrderEach, Operand.inOrder, List.mem_append, Atom.mem_inOrder atoms,
      Operand.mem_inOrderEach ops]
    simp only [List.mem_cons, Operand.stream.injEq, or_and_right, exists_or, exists_eq_left]
  | .int _ :: ops | .str _ :: ops | .raw _ :: ops | .gid _ :: ops => by
    rw [List.length_cons, Operand.inOrderEach, Operand.inOrder, List.nil_append,
      Operand.mem_inOrderEach ops]
    · simp only [List.mem_cons, reduceCtorEq, false_or]
    · rintro _ ⟨⟩
termination_by ops => sizeOf ops

theorem Atom.mem_inOrder {a : Atom} :
    ∀ atoms : List Atom, a ∈ Atom.inOrder (·.operands.length) atoms ↔ a.Within atoms
  | [] => by
    rw [Atom.inOrder]
    exact ⟨fun h => absurd h List.not_mem_nil, fun h => absurd h (Atom.not_within_nil a)⟩
  | .mk s ops depth :: atoms => by
    rw [Atom.inOrder, List.mem_cons, List.mem_append, Atom.within_cons, Atom.mem_inOrder atoms]
    exact or_congr_right (or_congr_left (Operand.mem_inOrderEach ops))
termination_by atoms => sizeOf atoms

end

/-- All atoms of a stream are those within it. -/
theorem Atom.mem_all {a : Atom} {atoms : List Atom} : a ∈ Atom.all atoms ↔ a.Within atoms :=
  Atom.mem_inOrder atoms

mutual

theorem Operand.inOrderEach_eq {fields : Nat} :
    ∀ {ops : List Operand}, ops.length ≤ fields →
      (∀ inner, .stream inner ∈ ops →
        Atom.Everywhere (fun a => a.operands.length ≤ a.signature.fields.length) inner) →
      Operand.inOrderEach (·.signature.fields.length) fields ops =
        Operand.inOrderEach (·.operands.length) ops.length ops
  | [], _, _ => by
    rw [Operand.inOrderEach, Operand.inOrderEach] <;> rintro _ _ _ _ ⟨⟩
  | op :: ops, hfields, hinner => by
    obtain ⟨fields, rfl⟩ : ∃ n, fields = n + 1 :=
      Nat.exists_eq_succ_of_ne_zero (Nat.ne_of_gt (Nat.lt_of_lt_of_le (Nat.succ_pos _) hfields))
    have hrest := Operand.inOrderEach_eq (Nat.le_of_succ_le_succ hfields) fun inner h =>
      hinner inner (List.mem_cons_of_mem _ h)
    rw [List.length_cons, Operand.inOrderEach, Operand.inOrderEach, hrest]
    cases op with
    | stream atoms =>
      rw [Operand.inOrder, Operand.inOrder]
      exact congrArg (· ++ _) (Atom.inOrder_eq (hinner atoms List.mem_cons_self))
    | int | str | raw | gid => rfl
termination_by ops => sizeOf ops

theorem Atom.inOrder_eq :
    ∀ {atoms : List Atom},
      Atom.Everywhere (fun a => a.operands.length ≤ a.signature.fields.length) atoms →
      Atom.inOrder (·.signature.fields.length) atoms = Atom.inOrder (·.operands.length) atoms
  | [], _ => by rw [Atom.inOrder, Atom.inOrder]
  | .mk s ops depth :: atoms, h => by
    obtain ⟨hfits, hinner, hrest⟩ := Atom.everywhere_cons.mp h
    have hops : Operand.inOrderEach _ s.fields.length ops = Operand.inOrderEach _ ops.length ops :=
      Operand.inOrderEach_eq hfits hinner
    have hlater := Atom.inOrder_eq hrest
    rw [Atom.inOrder, Atom.inOrder, hlater]
    exact congrArg (fun l => _ :: (l ++ _)) hops
termination_by atoms => sizeOf atoms

end

/-- All atoms are written if none has more operands than fields. -/
theorem Atom.written_eq_all {atoms : List Atom}
    (h : Everywhere (fun a => a.operands.length ≤ a.signature.fields.length) atoms) :
    written atoms = Atom.all atoms :=
  Atom.inOrder_eq h

-- ---------------------------------------------------------------------------
-- Atoms at spans
-- ---------------------------------------------------------------------------

/-- The bytes that a span covers. -/
def Span.slice (span : Span) (bytes : Bytes) : Bytes :=
  (bytes.drop span.offset).take span.totalLength

/-- An atom stands at a span of some bytes: the span lies within them, and covers a header with the
tag of the atom and the length of the data, and the data.  These bytes are what is written for the atom
alone. -/
structure Atom.IsAt (a : Atom) (span : Span) (bytes : Bytes) : Prop where
  within : span.offset + span.totalLength ≤ bytes.length
  parts : ∃ data : Bytes,
    span.slice bytes = AtomLayout.header a.signature.tag data.length ++ data ∧
      data.length ≤ maxData ∧
      span.headerLength = (if data.length < 0x80 then 3 else 4) ∧
      span.totalLength = span.headerLength + data.length
  alone : ∃ own, a.encode = .ok own ∧ span.slice bytes = own.bytes

/-- Bytes that stand at an offset are there part by part. -/
theorem append_isPrefix_drop_iff {bytes first rest : Bytes} {start : Nat} :
    first ++ rest <+: bytes.drop start ↔
      first <+: bytes.drop start ∧ rest <+: bytes.drop (start + first.length) := by
  constructor
  · rintro ⟨after, heq⟩
    rw [List.append_assoc] at heq
    refine ⟨⟨_, heq⟩, after, ?_⟩
    rw [← List.drop_drop, ← heq, List.drop_left]
  · rintro ⟨⟨behind, hfirst⟩, after, hrest⟩
    rw [← List.drop_drop, ← hfirst, List.drop_left] at hrest
    exact ⟨after, by rw [List.append_assoc, hrest, hfirst]⟩

/-- An atom that is laid out stands where its bytes do. -/
theorem Atom.isAt_of_layout {a : Atom} {layout : AtomLayout} (h : a.layout = .ok layout)
    {bytes : Bytes} {start : Nat} (hbytes : layout.bytes <+: bytes.drop start) :
    a.IsAt (a.span start) bytes := by
  have hlength : layout.bytes.length = a.wireLength := length_bytes_of_layout h
  have hslice : (a.span start).slice bytes = layout.bytes := by
    rw [Span.slice, List.prefix_iff_eq_take.mp hbytes, hlength]
    rfl
  refine ⟨?_, ?_, .ofLayout [layout], by rw [encode, h]; rfl, ?_⟩
  · -- the header is not empty, so the atom does not start behind the end
    have hle := hbytes.length_le
    rw [List.length_drop, hlength] at hle
    have hheader : 3 ≤ a.headerLength := by
      rw [headerLength]
      split <;> omega
    show start + a.wireLength ≤ bytes.length
    rw [wireLength] at hle ⊢
    omega
  · obtain ⟨s, ops, depth⟩ := a
    obtain ⟨fields, hfields, hmax, rfl⟩ := layout_eq_ok.mp h
    obtain ⟨htotal, hdata⟩ := Operand.length_of_layoutEach hfields
    refine ⟨FieldLayout.bytesEach fields, ?_, ?_, ?_, ?_⟩
    · rw [hslice, AtomLayout.bytes, hdata, htotal]
      rfl
    · rw [hdata, ← htotal]
      exact hmax
    · rw [hdata]
      rfl
    · rw [hdata]
      rfl
  · rw [hslice, Encoded.bytes_ofLayout, AtomLayout.bytesEach, AtomLayout.bytesEach, List.append_nil]

-- ---------------------------------------------------------------------------
-- Tilings
-- ---------------------------------------------------------------------------

mutual

/-- Spans tile a part of some bytes as a stream.  The span of the first atom starts where the part
starts, and covers the bytes of the atom.  Behind it come the spans in the data that it covers.  Where it
ends, those of the other atoms start, and they tile what is left of the part. -/
inductive Atom.Tile (bytes : Bytes) : Nat → Nat → List Atom → List Span → Prop where
  | nil {start : Nat} : Atom.Tile bytes start start [] []
  | cons {start stop : Nat} {a : Atom} {atoms : List Atom} {span : Span} {inner later : List Span}
      (starts : span.offset = start) (stands : a.IsAt span bytes)
      (data : Operand.Tile bytes (start + span.headerLength) (start + span.totalLength)
        a.signature.fields a.operands inner)
      (rest : Atom.Tile bytes (start + span.totalLength) stop atoms later) :
      Atom.Tile bytes start stop (a :: atoms) (span :: (inner ++ later))

/-- Spans tile a data region by operands: those of a stream tile the part that is the operand's, and
other operands have none. -/
inductive Operand.Tile (bytes : Bytes) : Nat → Nat → List FieldKind → List Operand → List Span →
    Prop where
  | done {start : Nat} {kinds : List FieldKind} {ops : List Operand} (ended : kinds = [] ∨ ops = []) :
      Operand.Tile bytes start start kinds ops []
  | plain {start middle stop : Nat} {kind : FieldKind} {kinds : List FieldKind} {op : Operand}
      {ops : List Operand} {later : List Span} (flat : op.type ≠ .stream) (ordered : start ≤ middle)
      (rest : Operand.Tile bytes middle stop kinds ops later) :
      Operand.Tile bytes start stop (kind :: kinds) (op :: ops) later
  | stream {start middle stop : Nat} {kinds : List FieldKind} {atoms : List Atom}
      {ops : List Operand} {inner later : List Span} (carried : Atom.Tile bytes start middle atoms inner)
      (rest : Operand.Tile bytes middle stop kinds ops later) :
      Operand.Tile bytes start stop (.stream :: kinds) (.stream atoms :: ops) (inner ++ later)

end

variable {bytes : Bytes}

/-- The bytes of an operand stand first in the data, and those of the others behind them. -/
theorem FieldLayout.isPrefix_parts {first : FieldLayout} {rest : List FieldLayout} {start : Nat}
    {atom : String} {kind : FieldKind} {op : Operand} (h : op.layout atom kind = .ok first)
    (hbytes : FieldLayout.bytesEach (first :: rest) <+: bytes.drop start) :
    first.bytes <+: bytes.drop start ∧
      FieldLayout.bytesEach rest <+: bytes.drop (start + first.size) := by
  obtain ⟨hsize, hlength⟩ := Operand.length_of_layout h
  obtain ⟨hinside, hbehind⟩ := append_isPrefix_drop_iff.mp hbytes
  rw [hlength, ← hsize] at hbehind
  exact ⟨hinside, hbehind⟩

mutual

/-- The spans of operands tile their data. -/
theorem Operand.tile_spansEach {atom : String} {start : Nat} :
    ∀ {kinds : List FieldKind} {ops : List Operand} {fields : List FieldLayout},
      Operand.layoutEach atom kinds ops = .ok fields →
      FieldLayout.bytesEach fields <+: bytes.drop start →
      Operand.Tile bytes start (start + FieldLayout.total fields) kinds ops
        (FieldLayout.spansEach start fields)
  | [], ops, fields, h, _ => by
    rw [Operand.layoutEach] at h
    · cases h
      exact .done (.inl rfl)
    · rintro _ _ _ _ ⟨⟩
  | kind :: kinds, [], fields, h, _ => by
    rw [Operand.layoutEach_nil] at h
    cases h
    exact .done (.inr rfl)
  | kind :: kinds, .stream atoms :: ops, fields, h, hbytes => by
    obtain ⟨first, rest, hfirst, hrest, rfl⟩ := Operand.layoutEach_cons_eq_ok.mp h
    obtain ⟨hinside, hbehind⟩ := FieldLayout.isPrefix_parts hfirst hbytes
    cases kind with
    | stream =>
      rw [Operand.layout] at hfirst
      obtain ⟨layouts, hlayouts, heq⟩ := bind_eq_ok_iff.mp hfirst
      cases heq
      have hlater := Operand.tile_spansEach hrest hbehind
      rw [Nat.add_assoc] at hlater
      refine .stream ?_ hlater
      rw [FieldLayout.size, AtomLayout.foldl_size, Nat.zero_add]
      exact Atom.tile_spansEach hlayouts hinside
    | byte | word | dword | num | named | text | raw | gid => cases hfirst
  | kind :: kinds, .int _ :: ops, fields, h, hbytes | kind :: kinds, .str _ :: ops, fields, h, hbytes
  | kind :: kinds, .raw _ :: ops, fields, h, hbytes
  | kind :: kinds, .gid _ :: ops, fields, h, hbytes => by
    obtain ⟨first, rest, hfirst, hrest, rfl⟩ := Operand.layoutEach_cons_eq_ok.mp h
    obtain ⟨hinside, hbehind⟩ := FieldLayout.isPrefix_parts hfirst hbytes
    have hlater := Operand.tile_spansEach hrest hbehind
    have hnone : first.spans start = [] := by
      cases kind <;> cases hfirst <;> rfl
    rw [Nat.add_assoc] at hlater
    rw [FieldLayout.spansEach, hnone]
    exact .plain (by rintro ⟨⟩) (Nat.le_add_right ..) hlater
termination_by _ ops => sizeOf ops

/-- The spans of atoms tile their bytes. -/
theorem Atom.tile_spansEach {start : Nat} :
    ∀ {atoms : List Atom} {layouts : List AtomLayout}, Atom.layoutEach [] atoms = .ok layouts →
      AtomLayout.bytesEach layouts <+: bytes.drop start →
      Atom.Tile bytes start (start + AtomLayout.total layouts) atoms
        (AtomLayout.spansEach start layouts)
  | [], layouts, h, _ => by
    rw [Atom.layoutEach_nil_eq_ok.mp h]
    exact .nil
  | .mk s ops depth :: atoms, layouts, h, hbytes => by
    obtain ⟨first, rest, hfirst, hrest, rfl⟩ := Atom.layoutEach_cons_eq_ok.mp h
    obtain ⟨hown, hbehind⟩ := append_isPrefix_drop_iff.mp hbytes
    have hsize := Atom.size_of_layout hfirst
    rw [Atom.length_bytes_of_layout hfirst] at hbehind
    have hlater := Atom.tile_spansEach hrest hbehind
    have hstands := Atom.isAt_of_layout hfirst hown
    have hspan := Atom.span_of_layout hfirst start
    obtain ⟨fields, hfields, rfl, hheader⟩ := Atom.of_layout hfirst
    -- the data starts behind the header, and is as long as the header says
    obtain ⟨-, hdata⟩ := append_isPrefix_drop_iff.mp hown
    rw [hheader] at hdata
    have hops : Operand.layoutEach s.name s.fields ops = .ok fields := hfields
    have hinside := Operand.tile_spansEach hops hdata
    rw [(Operand.length_of_layoutEach hfields).1, Nat.add_assoc] at hinside
    rw [AtomLayout.spansEach, AtomLayout.spans, hspan, hheader, AtomLayout.total, hsize,
      ← Nat.add_assoc]
    exact .cons rfl hstands hinside hlater
termination_by atoms => sizeOf atoms

end

-- ---------------------------------------------------------------------------
-- What tilings give
-- ---------------------------------------------------------------------------

section

variable {start stop : Nat} {kind : FieldKind} {kinds : List FieldKind} {op : Operand}
  {ops : List Operand} {atoms : List Atom} {spans : List Span}

/-- The first atom of a tiled part is there, and its data is tiled, and what comes behind it. -/
theorem Atom.Tile.of_cons {a : Atom} (h : Atom.Tile bytes start stop (a :: atoms) spans) :
    ∃ span inner later, spans = span :: (inner ++ later) ∧ span.offset = start ∧ a.IsAt span bytes ∧
      Operand.Tile bytes (start + span.headerLength) (start + span.totalLength) a.signature.fields
        a.operands inner ∧
      Atom.Tile bytes (start + span.totalLength) stop atoms later := by
  cases h with
  | cons starts stands data rest => exact ⟨_, _, _, rfl, starts, stands, data, rest⟩

/-- A stream comes first in the tiling of its data. -/
theorem Operand.Tile.of_stream
    (h : Operand.Tile bytes start stop (kind :: kinds) (.stream atoms :: ops) spans) :
    ∃ middle inner later, Atom.Tile bytes start middle atoms inner ∧
      Operand.Tile bytes middle stop kinds ops later ∧ spans = inner ++ later := by
  cases h with
  | done ended => exact absurd ended (by simp)
  | plain flat => exact absurd rfl flat
  | stream carried rest => exact ⟨_, _, _, carried, rest, rfl⟩

/-- An operand that is no stream leaves the tiling to the others. -/
theorem Operand.Tile.of_flat (hflat : op.type ≠ .stream)
    (h : Operand.Tile bytes start stop (kind :: kinds) (op :: ops) spans) :
    ∃ middle, Operand.Tile bytes middle stop kinds ops spans := by
  cases h with
  | done ended => exact absurd ended (by simp)
  | plain flat ordered rest => exact ⟨_, rest⟩
  | stream carried rest => exact absurd rfl hflat

/-- The only operand of an atom takes all of its data. -/
theorem Operand.Tile.of_singleton
    (h : Operand.Tile bytes start stop [kind] (.stream atoms :: ops) spans) :
    Atom.Tile bytes start stop atoms spans := by
  obtain ⟨middle, inner, later, hcarried, hrest, rfl⟩ := h.of_stream
  cases hrest
  rw [List.append_nil]
  exact hcarried

end

mutual

theorem Operand.Tile.forall₂ :
    ∀ {ops : List Operand} {start stop : Nat} {kinds : List FieldKind} {spans : List Span},
      Operand.Tile bytes start stop kinds ops spans →
      List.Forall₂ (fun a span => a.IsAt span bytes)
        (Operand.inOrderEach (·.signature.fields.length) kinds.length ops) spans
  | [], _, _, kinds, spans, h => by
    cases h
    rw [Operand.inOrderEach]
    · exact .nil
    · rintro _ _ _ _ ⟨⟩
  | op :: ops, _, _, [], spans, h => by
    cases h
    exact .nil
  | .stream atoms :: ops, _, _, kind :: kinds, spans, h => by
    obtain ⟨middle, inner, later, hcarried, hrest, rfl⟩ := h.of_stream
    exact List.rel_append (Atom.Tile.forall₂ hcarried) (Operand.Tile.forall₂ hrest)
  | .int _ :: ops, _, _, kind :: kinds, spans, h | .str _ :: ops, _, _, kind :: kinds, spans, h
  | .raw _ :: ops, _, _, kind :: kinds, spans, h | .gid _ :: ops, _, _, kind :: kinds, spans, h => by
    obtain ⟨middle, hrest⟩ := h.of_flat (by rintro ⟨⟩)
    have hlater := Operand.Tile.forall₂ hrest
    exact hlater
termination_by ops => sizeOf ops

/-- Spans that tile a stream are one for each atom that is written, in document order. -/
theorem Atom.Tile.forall₂ :
    ∀ {atoms : List Atom} {start stop : Nat} {spans : List Span},
      Atom.Tile bytes start stop atoms spans →
      List.Forall₂ (fun a span => a.IsAt span bytes) (Atom.written atoms) spans
  | [], _, _, spans, h => by
    cases h
    exact .nil
  | .mk s ops depth :: atoms, _, _, spans, h => by
    obtain ⟨span, inner, later, rfl, -, hstands, hdata, hrest⟩ := h.of_cons
    have hinside : Operand.Tile bytes _ _ s.fields ops inner := hdata
    exact .cons hstands (List.rel_append (Operand.Tile.forall₂ hinside) (Atom.Tile.forall₂ hrest))
termination_by atoms => sizeOf atoms

end

namespace Encoded

variable {atoms : List Atom} {encoded : Encoded}

/-- What the spans of a stream are.  They tile its bytes, and are one for each atom that is written, in
document order, which are all atoms unless one has more operands than fields.  They start one behind the
other, and no header reaches into another.  An atom of the instruction set that carries a stream has
nothing else in its data, so that the spans of the stream tile all of it. -/
theorem spans_tile (h : Atom.encodeStream atoms = .ok encoded) :
    Atom.Tile encoded.bytes 0 encoded.bytes.length atoms encoded.spans ∧
      List.Forall₂ (fun a span => a.IsAt span encoded.bytes) (Atom.written atoms) encoded.spans ∧
      (Atom.Everywhere (fun a => a.operands.length ≤ a.signature.fields.length) atoms →
        Atom.written atoms = Atom.all atoms) ∧
      encoded.spans.Pairwise (fun s t =>
        s.offset < t.offset ∧ s.offset + s.headerLength ≤ t.offset) ∧
      ∀ s ∈ Signature.all, .stream ∈ s.fields → ∀ start stop inner ops spans,
        Operand.Tile encoded.bytes start stop s.fields (.stream inner :: ops) spans →
        Atom.Tile encoded.bytes start stop inner spans := by
  have hwithin := within_spans h
  obtain ⟨layouts, hlayouts, rfl⟩ := Atom.encodeStream_eq_ok_iff.mp h
  have htile : Atom.Tile (ofLayout layouts).bytes 0 (ofLayout layouts).bytes.length atoms
      (ofLayout layouts).spans := by
    obtain ⟨htotal, hlength⟩ := Atom.length_of_layoutEach hlayouts
    have htile : Atom.Tile (AtomLayout.bytesEach layouts) 0 _ atoms _ :=
      Atom.tile_spansEach hlayouts List.prefix_rfl
    rwa [Nat.zero_add, htotal, ← hlength, ← bytes_ofLayout, ← spans_ofLayout] at htile
  refine ⟨htile, htile.forall₂, Atom.written_eq_all, ?_, ?_⟩
  · refine hwithin.apart.imp_of_mem fun hs _ hle => ⟨?_, hle⟩
    exact Nat.lt_of_lt_of_le (Nat.lt_add_of_pos_right (hwithin.header _ hs).1) hle
  · intro s hs hstream start stop inner ops spans hinner
    rw [Signature.fields_eq_singleton hs (.inr rfl) hstream] at hinner
    exact hinner.of_singleton

/-- An action that carries two atoms, and a third atom behind it. -/
theorem spans_tile_nested :
    let action : Signature := .plain "act_replace_select_action" .act 3 [.stream]
    let skip : Atom := .mk (.plain "uni_sync_skip" .uni 14 [.num]) [.int 500] 0
    let exit : Atom := .mk (.plain "async_exit" .async 1 []) [] 0
    let atoms : List Atom := [.mk action [.stream [skip, exit]] 0, exit]
    let encoded : Encoded := ⟨[2, 3, 8, 0, 14, 2, 1, 244, 12, 1, 0, 12, 1, 0],
      [⟨0, 3, 11⟩, ⟨3, 3, 5⟩, ⟨8, 3, 3⟩, ⟨11, 3, 3⟩]⟩
    Atom.encodeStream atoms = .ok encoded ∧ Atom.Tile encoded.bytes 0 14 atoms encoded.spans ∧
      Atom.all atoms = [.mk action [.stream [skip, exit]] 0, skip, exit, exit] ∧
      List.Forall₂ (fun a span => a.IsAt span encoded.bytes) (Atom.all atoms) encoded.spans ∧
      ∃ spans, Operand.Tile encoded.bytes 3 11 action.fields [.stream [skip, exit]] spans ∧
        Atom.Tile encoded.bytes 3 11 [skip, exit] spans := by
  intro action skip exit atoms encoded
  have hencoded : Atom.encodeStream atoms = .ok encoded := by
    cbv
  obtain ⟨htile, hspans, hall, -, hdata⟩ := spans_tile hencoded
  have hfits : ∀ a ∈ Atom.all atoms, a.operands.length ≤ a.signature.fields.length := by
    decide
  rw [hall fun a ha => hfits a (Atom.mem_all.mpr ha)] at hspans
  obtain ⟨span, inner, later, heq, -, -, hinner, -⟩ := htile.of_cons
  obtain rfl : ⟨0, 3, 11⟩ = span := (List.cons.inj heq).1
  exact ⟨hencoded, htile, rfl, hspans, inner, hinner,
    hdata action (by decide +kernel) (by decide) 3 11 [skip, exit] [] inner hinner⟩

/-- An atom without fields, with a stream as an operand: it is written alone, and the stream within it has
neither bytes nor spans. -/
theorem surplus_unwritten :
    let exit : Atom := .mk (.plain "async_exit" .async 1 []) [] 0
    let void : Atom := .mk (.plain "uni_void" .uni 0 []) [.stream [exit]] 0
    Atom.encodeStream [void] = .ok ⟨[0, 0, 0], [⟨0, 3, 3⟩]⟩ ∧ exit.Within [void] ∧
      Atom.all [void] = [void, exit] ∧ Atom.written [void] = [void] ∧
      (∀ encoded, Atom.encodeStream [void] = .ok encoded →
        encoded.spans.length ≠ (Atom.all [void]).length) ∧
      void.signature ∈ Signature.all := by
  intro exit void
  have hencoded : Atom.encodeStream [void] = .ok ⟨[0, 0, 0], [⟨0, 3, 3⟩]⟩ := by
    cbv
  refine ⟨hencoded, ?_, rfl, rfl, fun encoded h => ?_, by decide +kernel⟩
  · exact .nested List.mem_cons_self List.mem_cons_self (.here List.mem_cons_self)
  · rw [hencoded] at h
    cases h
    decide

end Encoded

end Switchboard
