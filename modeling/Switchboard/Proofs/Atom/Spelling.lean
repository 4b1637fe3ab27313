import Switchboard.Proofs.Atom.Decoding

/-!
# What bytes stand for which atoms

The reader accepts several spellings of one stream: the length of short data in one byte or in two,
numbers with zeros at the front.  `Atom.Spells` says which bytes stand for which atoms, by the parts of
the stream.

Main result: `Atom.decodeStream_eq_ok_iff`, the reader accepts exactly the bytes that stand for atoms,
and gives these.
-/

namespace Switchboard

-- ---------------------------------------------------------------------------
-- Spellings
-- ---------------------------------------------------------------------------

mutual

/-- The data stands for operands in the fields of an atom from position `index` on.  Nested streams
stand at depth `inner`. -/
inductive Operand.Spells : (s : Signature) → (inner : UInt16) → (index : Nat) → List FieldKind →
    Bytes → List Operand → Prop where
  | nil {s : Signature} {inner : UInt16} {index : Nat} : Operand.Spells s inner index [] [] []
  | omitted {s : Signature} {inner : UInt16} {index : Nat} {kind : FieldKind}
      {kinds : List FieldKind} (optional : s.required ≤ index) :
      Operand.Spells s inner index (kind :: kinds) [] []
  | plain {s : Signature} {inner : UInt16} {index : Nat} {kind : FieldKind} {kinds : List FieldKind}
      {data rest : Bytes} {op : Operand} {ops : List Operand}
      (present : ¬(data = [] ∧ s.required ≤ index)) (carries : kind ≠ .stream)
      (read : kind.decodePlain s.name (index + 1) data = .ok (op, rest))
      (later : Operand.Spells s inner (index + 1) kinds rest ops) :
      Operand.Spells s inner index (kind :: kinds) data (op :: ops)
  | stream {s : Signature} {inner : UInt16} {index : Nat} {kinds : List FieldKind} {data : Bytes}
      {atoms : List Atom} {ops : List Operand} (present : ¬(data = [] ∧ s.required ≤ index))
      (nested : Atom.Spells inner inner data atoms)
      (later : Operand.Spells s inner (index + 1) kinds [] ops) :
      Operand.Spells s inner index (.stream :: kinds) data (.stream atoms :: ops)

/-- The bytes stand for the rest of a stream with the given base, after atoms that left the depth at
`depth`. -/
inductive Atom.Spells : (base depth : UInt16) → Bytes → List Atom → Prop where
  | nil {base depth : UInt16} : Atom.Spells base depth [] []
  | cons {base depth : UInt16} {s : Signature} {bytes rest : Bytes} {header size : Nat}
      {ops : List Operand} {atoms : List Atom}
      (split : splitHeader? bytes = some (s.tag, header, size, rest))
      (enough : size ≤ rest.length) (known : Signature.byTag? s.tag = some s)
      (operands : Operand.Spells s (s.effect.depthAt base depth + 1) 0 s.fields (rest.take size) ops)
      (later : Atom.Spells base (s.effect.depthAfter (s.effect.depthAt base depth)) (rest.drop size)
        atoms) :
      Atom.Spells base depth bytes (.mk s ops (s.effect.depthAt base depth) :: atoms)

end

-- ---------------------------------------------------------------------------
-- Headers
-- ---------------------------------------------------------------------------

/-- A header stands in front of whatever follows it. -/
theorem splitHeader?_eq_some {bytes rest : Bytes} {tag : Tag} {header size : Nat}
    (h : splitHeader? bytes = some (tag, header, size, rest)) :
    ∃ front, bytes = front ++ rest ∧ front.length = header ∧
      ∀ other, splitHeader? (front ++ other) = some (tag, header, size, other) := by
  unfold splitHeader? at h
  split at h
  · next protocol number first rest' =>
    split at h
    · next hfirst =>
      cases h
      refine ⟨[protocol, number, first], rfl, rfl, fun other => ?_⟩
      show (if first < 0x80 then _ else _) = _
      rw [if_pos hfirst]
      rfl
    · next hfirst =>
      split at h
      · cases h
      · next second rest'' =>
        cases h
        refine ⟨[protocol, number, first, second], rfl, rfl, fun other => ?_⟩
        show (if first < 0x80 then _ else _) = _
        rw [if_neg hfirst]
        rfl
  · cases h

/-- A tag stands for one signature, and is its tag. -/
theorem Signature.tag_of_byTag? {tag : Tag} {s : Signature} (h : byTag? tag = some s) :
    s.tag = tag := by
  simpa using List.find?_some h

-- ---------------------------------------------------------------------------
-- What the reader accepts is a spelling
-- ---------------------------------------------------------------------------

/-- Taking a part of the bytes takes nothing from a smaller part. -/
theorem take_eq_nil_iff_of_le {bytes : Bytes} {count : Nat} (h : count ≤ bytes.length) :
    bytes.take count = [] ↔ count = 0 := by
  rw [← List.length_eq_zero_iff, List.length_take, Nat.min_eq_left h]

mutual

theorem Operand.spells_of_decodeFields {s : Signature} {offset : Nat} {inner : UInt16} :
    ∀ {index : Nat} {fields : List FieldKind} {count : Nat} {bytes : Bytes} {ops : List Operand},
      count ≤ bytes.length →
      Operand.decodeFields s offset inner index fields count bytes = .ok ops →
      Operand.Spells s inner index fields (bytes.take count) ops
  | index, [], count, bytes, ops, hcount, h => by
    rw [Operand.decodeFields] at h
    split at h
    · next hnone =>
      cases h
      rw [(take_eq_nil_iff_of_le hcount).mpr hnone]
      exact .nil
    · cases h
  | index, kind :: fields, count, bytes, ops, hcount, h => by
    rw [Operand.decodeFields] at h
    split at h
    · next hnone =>
      cases h
      rw [(take_eq_nil_iff_of_le hcount).mpr hnone.1]
      exact .omitted hnone.2
    · next hpresent =>
      rw [← take_eq_nil_iff_of_le hcount] at hpresent
      split at h
      · next hkind =>
        subst hkind
        obtain ⟨atoms, hatoms, h⟩ := bind_eq_ok_iff.mp h
        obtain ⟨later, hlater, heq⟩ := bind_eq_ok_iff.mp h
        cases heq
        obtain ⟨atoms', rfl, hnested⟩ := Atom.spells_of_decodeFrom hcount hatoms
        exact .stream hpresent hnested (Operand.spells_of_decodeFields (Nat.le_refl 0) hlater)
      · next hkind =>
        split at h
        · cases h
        · next op rest hread =>
          obtain ⟨later, hlater, heq⟩ := bind_eq_ok_iff.mp h
          cases heq
          have hshorter : rest.length ≤ count :=
            (FieldKind.length_decodePlain hread).trans (List.length_take_le ..)
          have hrest := Operand.spells_of_decodeFields (Nat.le_refl _) hlater
          rw [List.take_length] at hrest
          exact .plain hpresent hkind hread hrest
  termination_by _ fields count => (count, fields.length + 1)
  decreasing_by
    all_goals simp only [Prod.lex_def, List.length_cons, true_and]
    all_goals omega

theorem Atom.spells_of_decodeFrom {offset : Nat} {base : UInt16} :
    ∀ {pos : Nat} {depth : UInt16} {done : List Atom} {count : Nat} {bytes : Bytes}
      {result : List Atom}, count ≤ bytes.length →
      Atom.decodeFrom offset base pos depth done count bytes = .ok result →
      ∃ atoms, result = done.reverse ++ atoms ∧ Atom.Spells base depth (bytes.take count) atoms
  | pos, depth, done, count, bytes, result, hcount, h => by
    rw [Atom.decodeFrom] at h
    split at h
    · next hnone =>
      cases h
      subst hnone
      exact ⟨[], (List.append_nil _).symm, .nil⟩
    · split at h
      · cases h
      · next tag header size rest hsplit =>
        split at h
        · cases h
        · next s hs =>
          obtain ⟨ops, hops, hlater⟩ := bind_eq_ok_iff.mp h
          obtain ⟨hheader, hsize⟩ := size_splitAtom? hsplit
          have hsplit' := (Option.filter_eq_some_iff.mp hsplit).1
          obtain ⟨front, rfl, hfront, hother⟩ := splitHeader?_eq_some hsplit'
          obtain rfl := Signature.tag_of_byTag? hs
          rw [List.length_append] at hcount
          have hoperands := Operand.spells_of_decodeFields (by omega) hops
          obtain ⟨atoms, rfl, hatoms⟩ := Atom.spells_of_decodeFrom
            (by rw [List.length_drop]; omega) hlater
          -- what the count leaves of the bytes after the header
          have htake : (front ++ rest).take count = front ++ rest.take (count - header) := by
            rw [List.take_append, hfront, List.take_of_length_le (by omega)]
          refine ⟨_, by rw [List.reverse_cons, List.append_assoc], ?_⟩
          rw [htake]
          refine .cons (hother _) ?_ hs ?_ ?_
          · rw [List.length_take]
            omega
          · rw [List.take_take, Nat.min_eq_left (by omega)]
            exact hoperands
          · rw [List.drop_take, Nat.sub_sub]
            exact hatoms
  termination_by _ _ _ count => (count, 0)
  decreasing_by
    all_goals simp only [Prod.lex_def]
    all_goals omega

end

-- ---------------------------------------------------------------------------
-- The reader accepts every spelling
-- ---------------------------------------------------------------------------

mutual

theorem Operand.Spells.decodeFields {s : Signature} {inner : UInt16} :
    ∀ {index : Nat} {fields : List FieldKind} {data : Bytes} {ops : List Operand},
      Operand.Spells s inner index fields data ops → ∀ (offset : Nat) (rest : Bytes),
      Operand.decodeFields s offset inner index fields data.length (data ++ rest) = .ok ops
  | _, _, _, _, .nil, _, _ => Operand.decodeFields_omitted (.inl rfl)
  | _, _, _, _, .omitted optional, _, _ => Operand.decodeFields_omitted (.inr optional)
  | _, _, data, _, .plain present carries read later, offset, rest => by
    have hlater := Operand.Spells.decodeFields later offset []
    rw [List.append_nil] at hlater
    rw [← List.length_eq_zero_iff] at present
    have htake : (data ++ rest).take data.length = data := List.take_left' rfl
    rw [← htake] at read
    rw [Operand.decodeFields_plain present carries read, hlater, ok_bind]
  | _, _, data, _, .stream present nested later, offset, rest => by
    have hnested := Atom.Spells.decodeFrom nested offset 0 [] rest
    have hlater := Operand.Spells.decodeFields later offset []
    rw [← List.length_eq_zero_iff] at present
    rw [Operand.decodeFields, if_neg present, if_pos rfl, hnested, ok_bind]
    exact bind_eq_ok_iff.mpr ⟨_, hlater, rfl⟩

theorem Atom.Spells.decodeFrom {base : UInt16} :
    ∀ {depth : UInt16} {bytes : Bytes} {atoms : List Atom}, Atom.Spells base depth bytes atoms →
      ∀ (offset pos : Nat) (done : List Atom) (rest : Bytes),
      Atom.decodeFrom offset base pos depth done bytes.length (bytes ++ rest) =
        .ok (done.reverse ++ atoms)
  | _, _, _, .nil, _, _, done, _ => by
    rw [Atom.decodeFrom, List.append_nil]
    exact if_pos rfl
  | _, _, _, @Atom.Spells.cons _ depth s _ more header size ops _ split enough known operands later,
      offset, pos, done, rest => by
    obtain ⟨front, rfl, hfront, hother⟩ := splitHeader?_eq_some split
    have hlength : (front ++ more).length = header + more.length := by
      rw [List.length_append, hfront]
    -- the data of the atom stands in front of the other atoms
    have hmore : more ++ rest = more.take size ++ (more.drop size ++ rest) := by
      rw [← List.append_assoc, List.take_append_drop]
    have hsize : (more.take size).length = size := by
      rw [List.length_take, Nat.min_eq_left enough]
    have hsplit : splitAtom? (front ++ more).length (front ++ more ++ rest) =
        some (s.tag, header, size, more ++ rest) := by
      rw [splitAtom?, List.append_assoc, hother, Option.filter_some, if_pos]
      exact decide_eq_true (by omega)
    have hread := Operand.Spells.decodeFields operands (offset + (pos + header))
      (more.drop size ++ rest)
    rw [← hmore, hsize] at hread
    have hlater := Atom.Spells.decodeFrom later offset (pos + header + size)
      (.mk s ops (s.effect.depthAt base depth) :: done) rest
    rw [List.length_drop] at hlater
    rw [Atom.decodeFrom_split known hsplit hread, hlength, Nat.add_sub_add_left,
      List.drop_append_of_le_length enough, hlater, List.reverse_cons, List.append_assoc]
    rfl

end

/-- The reader accepts the bytes that stand for atoms, and gives these. -/
theorem Atom.decodeStream_eq_ok_iff {bytes : Bytes} {atoms : List Atom} :
    decodeStream bytes = .ok atoms ↔ Spells 0 0 bytes atoms := by
  constructor
  · intro h
    obtain ⟨found, heq, hspells⟩ := spells_of_decodeFrom (Nat.le_refl _) h
    rw [List.take_length] at hspells
    rw [heq]
    exact hspells
  · intro h
    have hread := h.decodeFrom 0 0 [] []
    rw [List.append_nil] at hread
    exact hread

end Switchboard
