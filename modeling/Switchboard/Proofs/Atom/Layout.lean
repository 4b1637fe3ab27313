import Switchboard.Atom.Encoding
import Switchboard.Proofs.Atom.Made
import Switchboard.Proofs.Bytes

/-!
# Laying out atoms

The writer keeps what it has written latest first; here its output is stated plainly, part by part.
`Atom.dataLength` counts the data bytes of an atom on its own terms, without laying it out.

Main results:

* `Encoded.bytes_ofLayout`: the bytes of a stream are those of its atoms, one after the other.
* `Atom.length_of_layout`: an atom takes as many bytes as its data length says.
* `Atom.succeeds_encodeStream_iff`: a stream of made atoms can be written unless one of them, at
  some level, has too much data.
-/

namespace Switchboard

-- ---------------------------------------------------------------------------
-- The bytes of a layout
-- ---------------------------------------------------------------------------

mutual

/-- The bytes of an operand. -/
def FieldLayout.bytes : FieldLayout → Bytes
  | .plain bytes => bytes
  | .stream atoms => AtomLayout.bytesEach atoms

/-- The bytes of operands. -/
def FieldLayout.bytesEach : List FieldLayout → Bytes
  | [] => []
  | field :: fields => field.bytes ++ FieldLayout.bytesEach fields

/-- The bytes of an atom. -/
def AtomLayout.bytes : AtomLayout → Bytes
  | .mk tag count fields => AtomLayout.header tag count ++ FieldLayout.bytesEach fields

/-- The bytes of atoms. -/
def AtomLayout.bytesEach : List AtomLayout → Bytes
  | [] => []
  | atom :: atoms => atom.bytes ++ AtomLayout.bytesEach atoms

end

mutual

theorem FieldLayout.bytesOnto_eq (done : Bytes) :
    ∀ field : FieldLayout, field.bytesOnto done = field.bytes.reverse ++ done
  | .plain bytes => by rw [FieldLayout.bytesOnto, FieldLayout.bytes, List.reverseAux_eq]
  | .stream atoms => by
    rw [FieldLayout.bytesOnto, FieldLayout.bytes, AtomLayout.bytesOntoEach_eq]

theorem FieldLayout.bytesOntoEach_eq (done : Bytes) :
    ∀ fields : List FieldLayout,
      FieldLayout.bytesOntoEach done fields = (FieldLayout.bytesEach fields).reverse ++ done
  | [] => by rw [FieldLayout.bytesOntoEach, FieldLayout.bytesEach]; rfl
  | field :: fields => by
    rw [FieldLayout.bytesOntoEach, FieldLayout.bytesEach, FieldLayout.bytesOnto_eq,
      FieldLayout.bytesOntoEach_eq, List.reverse_append, List.append_assoc]

theorem AtomLayout.bytesOnto_eq (done : Bytes) :
    ∀ atom : AtomLayout, atom.bytesOnto done = atom.bytes.reverse ++ done
  | .mk tag count fields => by
    rw [AtomLayout.bytesOnto, AtomLayout.bytes, FieldLayout.bytesOntoEach_eq, List.reverseAux_eq,
      List.reverse_append, List.append_assoc]

theorem AtomLayout.bytesOntoEach_eq (done : Bytes) :
    ∀ atoms : List AtomLayout,
      AtomLayout.bytesOntoEach done atoms = (AtomLayout.bytesEach atoms).reverse ++ done
  | [] => by rw [AtomLayout.bytesOntoEach, AtomLayout.bytesEach]; rfl
  | atom :: atoms => by
    rw [AtomLayout.bytesOntoEach, AtomLayout.bytesEach, AtomLayout.bytesOnto_eq,
      AtomLayout.bytesOntoEach_eq, List.reverse_append, List.append_assoc]

end

/-- The bytes of a stream are those of its atoms, one after the other. -/
theorem Encoded.bytes_ofLayout (atoms : List AtomLayout) :
    (ofLayout atoms).bytes = AtomLayout.bytesEach atoms := by
  rw [ofLayout, AtomLayout.bytesOntoEach_eq, List.append_nil, List.reverse_reverse]

-- ---------------------------------------------------------------------------
-- Taking a layout apart
-- ---------------------------------------------------------------------------

theorem Atom.layoutEach_nil_eq_ok {done layouts : List AtomLayout} :
    layoutEach done [] = .ok layouts ↔ layouts = done.reverse := by
  rw [layoutEach, Except.ok.injEq, eq_comm]

theorem Atom.layoutEach_cons (done : List AtomLayout) (a : Atom) (atoms : List Atom) :
    layoutEach done (a :: atoms) = a.layout >>= fun first => layoutEach (first :: done) atoms := by
  rw [layoutEach]

/-- What was laid out before stands in front. -/
theorem Atom.layoutEach_onto (done : List AtomLayout) (atoms : List Atom) :
    layoutEach done atoms = (layoutEach [] atoms).map (done.reverse ++ ·) := by
  induction atoms generalizing done with
  | nil => rw [layoutEach, layoutEach]; simp [Except.map]
  | cons a atoms ih =>
    rw [layoutEach_cons, layoutEach_cons]
    cases a.layout with
    | error e => rfl
    | ok first =>
      rw [ok_bind, ok_bind, ih (first :: done), ih [first]]
      cases layoutEach [] atoms with
      | error e => rfl
      | ok rest => simp [Except.map]

theorem Atom.layoutEach_cons_eq_ok {a : Atom} {atoms : List Atom} {layouts : List AtomLayout} :
    layoutEach [] (a :: atoms) = .ok layouts ↔
      ∃ first rest, a.layout = .ok first ∧ layoutEach [] atoms = .ok rest ∧
        layouts = first :: rest := by
  rw [layoutEach_cons, bind_eq_ok_iff]
  constructor
  · rintro ⟨first, hfirst, hrest⟩
    -- what was laid out first stands in front, and comes off again
    rw [layoutEach_onto] at hrest
    cases hrest' : layoutEach [] atoms with
    | error e => rw [hrest'] at hrest; cases hrest
    | ok rest =>
      rw [hrest'] at hrest
      injection hrest with heq
      exact ⟨first, rest, hfirst, rfl, heq.symm⟩
  · rintro ⟨first, rest, hfirst, hrest, rfl⟩
    refine ⟨first, hfirst, ?_⟩
    rw [layoutEach_onto, hrest]
    rfl

theorem Operand.layoutEach_cons_eq_ok {atom : String} {kind : FieldKind} {kinds : List FieldKind}
    {op : Operand} {ops : List Operand} {fields : List FieldLayout} :
    layoutEach atom (kind :: kinds) (op :: ops) = .ok fields ↔
      ∃ first rest, op.layout atom kind = .ok first ∧ layoutEach atom kinds ops = .ok rest ∧
        fields = first :: rest := by
  rw [layoutEach, bind_eq_ok_iff]
  constructor
  · rintro ⟨first, hfirst, hrest⟩
    obtain ⟨rest, hrest, heq⟩ := bind_eq_ok_iff.mp hrest
    injection heq with heq
    exact ⟨first, rest, hfirst, hrest, heq.symm⟩
  · rintro ⟨first, rest, hfirst, hrest, rfl⟩
    exact ⟨first, hfirst, bind_eq_ok_iff.mpr ⟨rest, hrest, rfl⟩⟩

theorem Operand.layoutEach_nil (atom : String) (kinds : List FieldKind) :
    layoutEach atom kinds [] = .ok [] := by
  cases kinds <;> rw [layoutEach] <;> rintro _ _ _ _ _ ⟨⟩

/-- The number of bytes of laid out operands. -/
def FieldLayout.total : List FieldLayout → Nat
  | [] => 0
  | field :: fields => field.size + total fields

/-- The number of bytes of laid out atoms. -/
def AtomLayout.total : List AtomLayout → Nat
  | [] => 0
  | atom :: atoms => atom.size + total atoms

theorem FieldLayout.foldl_size (n : Nat) (fields : List FieldLayout) :
    fields.foldl (fun n f => n + f.size) n = n + total fields := by
  induction fields generalizing n with
  | nil => rfl
  | cons field fields ih => rw [List.foldl_cons, ih, total, Nat.add_assoc]

theorem AtomLayout.foldl_size (n : Nat) (atoms : List AtomLayout) :
    atoms.foldl (fun n a => n + a.size) n = n + total atoms := by
  induction atoms generalizing n with
  | nil => rfl
  | cons atom atoms ih => rw [List.foldl_cons, ih, total, Nat.add_assoc]

theorem Atom.layout_eq_ok {s : Signature} {ops : List Operand} {depth : UInt16}
    {layout : AtomLayout} :
    (Atom.mk s ops depth).layout = .ok layout ↔
      ∃ fields, Operand.layoutEach s.name s.fields ops = .ok fields ∧
        FieldLayout.total fields ≤ maxData ∧
        layout = .mk s.tag (FieldLayout.total fields) fields := by
  rw [Atom.layout, bind_eq_ok_iff]
  constructor
  · rintro ⟨fields, hfields, h⟩
    -- the writer adds up the sizes and refuses a sum above the greatest data length
    rw [FieldLayout.foldl_size, Nat.zero_add] at h
    dsimp only at h
    split at h
    · cases h
    · injection h with h
      exact ⟨fields, hfields, by omega, h.symm⟩
  · rintro ⟨fields, hfields, hle, rfl⟩
    refine ⟨fields, hfields, ?_⟩
    rw [FieldLayout.foldl_size, Nat.zero_add, if_neg (by omega)]
    rfl

-- ---------------------------------------------------------------------------
-- Data lengths
-- ---------------------------------------------------------------------------

mutual

/-- The number of data bytes that an operand takes in a field of the given kind. -/
def Operand.dataLength (kind : FieldKind) : Operand → Nat
  | .int v =>
    match kind with
    | .byte | .named _ => 1
    | .word => 2
    | .dword => 4
    | _ => (minimalBytes v).length
  | .str s => s.utf8ByteSize
  | .raw bytes => bytes.length
  | .gid gid => gid.wireLength
  | .stream atoms => Atom.streamLength atoms

/-- The number of data bytes that operands take in the given fields. -/
def Operand.dataLengthEach : List FieldKind → List Operand → Nat
  | kind :: kinds, op :: ops => op.dataLength kind + Operand.dataLengthEach kinds ops
  | _, _ => 0

/-- The number of data bytes that an atom needs. -/
def Atom.dataLength : Atom → Nat
  | .mk s ops _ => Operand.dataLengthEach s.fields ops

/-- The number of bytes that a stream needs: for each atom two for the tag, one or two for the
length, and the data. -/
def Atom.streamLength : List Atom → Nat
  | [] => 0
  | a :: atoms =>
    (if a.dataLength < 0x80 then 3 else 4) + a.dataLength + Atom.streamLength atoms

end

/-- Whether the length field of an atom can count its data. -/
def Atom.FitsLength (a : Atom) : Prop :=
  a.dataLength ≤ maxData

theorem AtomLayout.length_header (tag : Tag) (count : Nat) :
    (header tag count).length = if count < 0x80 then 3 else 4 := by
  rw [header, lengthField]
  split <;> rfl

mutual

theorem Operand.length_of_layout {atom : String} {kind : FieldKind} :
    ∀ {op : Operand} {field : FieldLayout}, op.layout atom kind = .ok field →
      field.size = op.dataLength kind ∧ field.bytes.length = op.dataLength kind
  | .int v, field, h => by
    cases kind <;> cases h <;>
      simp [FieldLayout.size, FieldLayout.bytes, Operand.dataLength, Bytes.length_ofUInt16,
        Bytes.length_ofUInt32]
  | .str s, field, h => by
    cases kind <;> cases h
    simp [FieldLayout.size, FieldLayout.bytes, Operand.dataLength, Text.length_utf8]
  | .raw bytes, field, h => by
    cases kind <;> cases h
    simp [FieldLayout.size, FieldLayout.bytes, Operand.dataLength]
  | .gid gid, field, h => by
    cases kind <;> cases h
    simp [FieldLayout.size, FieldLayout.bytes, Operand.dataLength, Gid.length_encode]
  | .stream atoms, field, h => by
    cases kind with
    | stream =>
      rw [Operand.layout] at h
      obtain ⟨layouts, hlayouts, heq⟩ := bind_eq_ok_iff.mp h
      cases heq
      rw [FieldLayout.size, FieldLayout.bytes, Operand.dataLength, AtomLayout.foldl_size,
        Nat.zero_add]
      exact Atom.length_of_layoutEach hlayouts
    | byte | word | dword | num | named | text | raw | gid => cases h

theorem Operand.length_of_layoutEach {atom : String} :
    ∀ {kinds : List FieldKind} {ops : List Operand} {fields : List FieldLayout},
      Operand.layoutEach atom kinds ops = .ok fields →
      FieldLayout.total fields = Operand.dataLengthEach kinds ops ∧
        (FieldLayout.bytesEach fields).length = Operand.dataLengthEach kinds ops
  | [], ops, fields, h => by
    rw [Operand.layoutEach] at h
    · cases h
      rw [Operand.dataLengthEach]
      · exact ⟨rfl, rfl⟩
      · rintro _ _ _ _ ⟨⟩
    · rintro _ _ _ _ ⟨⟩
  | kind :: kinds, [], fields, h => by
    rw [Operand.layoutEach_nil] at h
    cases h
    rw [Operand.dataLengthEach]
    · exact ⟨rfl, rfl⟩
    · rintro _ _ _ _ _ ⟨⟩
  | kind :: kinds, op :: ops, fields, h => by
    obtain ⟨first, rest, hfirst, hrest, rfl⟩ := Operand.layoutEach_cons_eq_ok.mp h
    obtain ⟨hsize, hbytes⟩ := Operand.length_of_layout hfirst
    obtain ⟨htotal, hall⟩ := Operand.length_of_layoutEach hrest
    rw [Operand.dataLengthEach, FieldLayout.bytesEach, List.length_append, hbytes, hall,
      ← hsize, ← htotal]
    exact ⟨rfl, rfl⟩

theorem Atom.length_of_layout :
    ∀ {a : Atom} {layout : AtomLayout}, a.layout = .ok layout →
      layout.size = (if a.dataLength < 0x80 then 3 else 4) + a.dataLength ∧
        layout.bytes.length = (if a.dataLength < 0x80 then 3 else 4) + a.dataLength
  | .mk s ops depth, layout, h => by
    obtain ⟨fields, hfields, -, rfl⟩ := Atom.layout_eq_ok.mp h
    obtain ⟨htotal, hbytes⟩ := Operand.length_of_layoutEach hfields
    rw [AtomLayout.size, AtomLayout.bytes, List.length_append, AtomLayout.length_header, hbytes,
      htotal, Atom.dataLength]
    exact ⟨rfl, rfl⟩

theorem Atom.length_of_layoutEach :
    ∀ {atoms : List Atom} {layouts : List AtomLayout}, Atom.layoutEach [] atoms = .ok layouts →
      AtomLayout.total layouts = Atom.streamLength atoms ∧
        (AtomLayout.bytesEach layouts).length = Atom.streamLength atoms
  | [], layouts, h => by
    rw [Atom.layoutEach_nil_eq_ok.mp h]
    exact ⟨rfl, rfl⟩
  | a :: atoms, layouts, h => by
    obtain ⟨first, rest, hfirst, hrest, rfl⟩ := Atom.layoutEach_cons_eq_ok.mp h
    obtain ⟨hsize, hbytes⟩ := Atom.length_of_layout hfirst
    obtain ⟨hsum, hall⟩ := Atom.length_of_layoutEach hrest
    rw [Atom.streamLength, AtomLayout.total, AtomLayout.bytesEach, List.length_append,
      hsize, hbytes, hsum, hall]
    exact ⟨rfl, rfl⟩

end

-- ---------------------------------------------------------------------------
-- What can be written
-- ---------------------------------------------------------------------------

/-- An operand that passes its check can be written if the stream it carries can. -/
theorem Operand.succeeds_layout {name : String} {index : Nat} {kind : FieldKind} {op : Operand}
    (hcheck : kind.check name index op = .ok ()) (atom : String) :
    Succeeds (op.layout atom kind) ↔
      ∀ inner, op = .stream inner → Succeeds (Atom.layoutEach [] inner) := by
  cases op with
  | stream atoms =>
    cases kind with
    | stream =>
      rw [Operand.layout]
      constructor
      · rintro ⟨field, h⟩ inner heq
        injection heq with heq
        obtain ⟨layouts, hlayouts, -⟩ := bind_eq_ok_iff.mp h
        exact ⟨layouts, heq ▸ hlayouts⟩
      · intro h
        obtain ⟨layouts, hlayouts⟩ := h atoms rfl
        exact ⟨_, bind_eq_ok_iff.mpr ⟨layouts, hlayouts, rfl⟩⟩
    | byte | word | dword | num | named | text | raw | gid => cases hcheck
  | int | str | raw | gid =>
    refine ⟨?_, fun _ => ?_⟩
    · intro _ inner heq
      cases heq
    · cases kind <;> first | exact ⟨_, rfl⟩ | cases hcheck

theorem Operand.succeeds_layoutEach_cons {atom : String} {kind : FieldKind}
    {kinds : List FieldKind} {op : Operand} {ops : List Operand} :
    Succeeds (layoutEach atom (kind :: kinds) (op :: ops)) ↔
      Succeeds (op.layout atom kind) ∧ Succeeds (layoutEach atom kinds ops) := by
  constructor
  · rintro ⟨fields, h⟩
    obtain ⟨first, rest, hfirst, hrest, -⟩ := layoutEach_cons_eq_ok.mp h
    exact ⟨⟨first, hfirst⟩, ⟨rest, hrest⟩⟩
  · rintro ⟨⟨first, hfirst⟩, ⟨rest, hrest⟩⟩
    exact ⟨_, layoutEach_cons_eq_ok.mpr ⟨first, rest, hfirst, hrest, rfl⟩⟩

theorem Atom.succeeds_layoutEach_cons {a : Atom} {atoms : List Atom} :
    Succeeds (layoutEach [] (a :: atoms)) ↔
      Succeeds a.layout ∧ Succeeds (layoutEach [] atoms) := by
  constructor
  · rintro ⟨layouts, h⟩
    obtain ⟨first, rest, hfirst, hrest, -⟩ := layoutEach_cons_eq_ok.mp h
    exact ⟨⟨first, hfirst⟩, ⟨rest, hrest⟩⟩
  · rintro ⟨⟨first, hfirst⟩, ⟨rest, hrest⟩⟩
    exact ⟨_, layoutEach_cons_eq_ok.mpr ⟨first, rest, hfirst, hrest, rfl⟩⟩

theorem Atom.succeeds_layout {s : Signature} {ops : List Operand} {depth : UInt16} :
    Succeeds (Atom.mk s ops depth).layout ↔
      (Atom.mk s ops depth).FitsLength ∧ Succeeds (Operand.layoutEach s.name s.fields ops) := by
  constructor
  · rintro ⟨layout, h⟩
    obtain ⟨fields, hfields, hle, -⟩ := layout_eq_ok.mp h
    -- the size that the writer compares is the data length
    rw [(Operand.length_of_layoutEach hfields).1] at hle
    exact ⟨hle, fields, hfields⟩
  · rintro ⟨hfits, fields, hfields⟩
    rw [FitsLength, dataLength, ← (Operand.length_of_layoutEach hfields).1] at hfits
    exact ⟨_, layout_eq_ok.mpr ⟨fields, hfields, hfits, rfl⟩⟩

mutual

theorem Operand.succeeds_layoutEach_iff {s : Signature} :
    ∀ {index : Nat} {kinds : List FieldKind} {ops : List Operand},
      Operand.Fills s index kinds ops → (∀ inner, .stream inner ∈ ops → Atom.AreMade inner) →
      (Succeeds (Operand.layoutEach s.name kinds ops) ↔
        ∀ inner, .stream inner ∈ ops → Atom.Everywhere Atom.FitsLength inner)
  | index, kinds, [], hfill, hmade => by
    rw [Operand.layoutEach_nil]
    exact ⟨(fun _ _ h => nomatch h), fun _ => succeeds_ok _⟩
  | index, kinds, op :: ops, hfill, hmade => by
    -- the first operand can be written if its own stream can, by induction on that stream
    have hfirst {kind : FieldKind} (hcheck : kind.check s.name (index + 1) op = .ok ()) :
        Succeeds (op.layout s.name kind) ↔
          ∀ inner, op = .stream inner → Atom.Everywhere Atom.FitsLength inner := by
      rw [Operand.succeeds_layout hcheck]
      cases op with
      | stream atoms =>
        have hatoms := Atom.succeeds_layoutEach_iff (hmade atoms (List.mem_cons_self ..))
        constructor
        · intro h inner heq
          cases heq
          exact hatoms.mp (h atoms rfl)
        · intro h inner heq
          cases heq
          exact hatoms.mpr (h atoms rfl)
      | int | str | raw | gid => exact ⟨(fun _ _ h => nomatch h), (fun _ _ h => nomatch h)⟩
    have hrest : ∀ inner, .stream inner ∈ ops → Atom.AreMade inner :=
      fun inner h => hmade inner (List.mem_cons_of_mem _ h)
    cases hfill with
    | fixed width check rest =>
      rw [Operand.succeeds_layoutEach_cons, hfirst check,
        Operand.succeeds_layoutEach_iff rest hrest]
      simp only [List.mem_cons, eq_comm (b := op), or_imp, forall_and]
    | last width check optional =>
      rw [Operand.succeeds_layoutEach_cons, hfirst check, Operand.layoutEach_nil]
      simp only [succeeds_ok, and_true, List.mem_singleton, eq_comm (b := op)]

theorem Atom.succeeds_layoutEach_iff :
    ∀ {atoms : List Atom}, Atom.AreMade atoms →
      (Succeeds (Atom.layoutEach [] atoms) ↔ Atom.Everywhere Atom.FitsLength atoms)
  | [], _ => by
    rw [Atom.layoutEach]
    exact ⟨fun _ => Atom.everywhere_nil _, fun _ => succeeds_ok _⟩
  | .mk s ops depth :: atoms, h => by
    obtain ⟨hmade, hinner, hatoms⟩ := Atom.everywhere_cons.mp h
    rw [Atom.succeeds_layoutEach_cons, Atom.succeeds_layout,
      Operand.succeeds_layoutEach_iff (Operand.fills_of_isMade hmade) hinner,
      Atom.succeeds_layoutEach_iff hatoms, Atom.everywhere_cons, and_assoc]
    rfl

end

/-- A stream of made atoms can be written unless one of them has too much data. -/
theorem Atom.succeeds_encodeStream_iff {atoms : List Atom} (h : AreMade atoms) :
    Succeeds (encodeStream atoms) ↔ Everywhere FitsLength atoms := by
  rw [← succeeds_layoutEach_iff h, encodeStream]
  constructor
  · rintro ⟨encoded, heq⟩
    obtain ⟨layouts, hlayouts, -⟩ := bind_eq_ok_iff.mp heq
    exact ⟨layouts, hlayouts⟩
  · rintro ⟨layouts, hlayouts⟩
    exact ⟨_, bind_eq_ok_iff.mpr ⟨layouts, hlayouts, rfl⟩⟩

end Switchboard
