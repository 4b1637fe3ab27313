import Switchboard.Proofs.Atom.Made
import Switchboard.Proofs.Atom.Shortest

/-!
# What is read and what may be built

The reader and the look-up each have their own idea of what an atom may carry: the reader takes the
operands apart by the kinds of the fields, the look-up checks operands that it is given against the
same kinds.  The two agree on everything but one point.  A short text field, such as a title or a
token, has a width, which the look-up enforces and the reader does not: a text is read up to the end
of the data, whatever its length.

Main results:

* `Atom.admitted_of_decodeStream`: an atom that was read, at any level, is one that the look-up gives
  back from its own operands if its texts keep to the widths of their fields; otherwise the width of
  such a text is what the look-up refuses it for.
* `Atom.wide_token_read`: a token of three bytes is read, and may not be built.
-/

namespace Switchboard

/-- Whether every text of the atom keeps to the width of its field. -/
def Atom.TextsFit (a : Atom) : Prop :=
  ∀ (limit : Nat) (text : String),
    (FieldKind.text limit, Operand.str text) ∈ a.signature.fields.zip a.operands →
    text.utf8ByteSize ≤ limit

-- ---------------------------------------------------------------------------
-- Single operands
-- ---------------------------------------------------------------------------

namespace FieldKind

variable {kind : FieldKind} {atom : String} {index : Nat} {data rest : Bytes} {op : Operand}

/-- A text that is too long for its field: the only operand that is read and does not pass its
check. -/
structure Overrun (kind : FieldKind) (op : Operand) (limit : Nat) (text : String) : Prop where
  field : kind = .text limit
  operand : op = .str text
  exceeds : limit < text.utf8ByteSize

theorem Overrun.check {limit : Nat} {text : String} (h : Overrun kind op limit text) :
    kind.check atom index op = .error (.textTooLong atom text.utf8ByteSize limit) := by
  obtain ⟨rfl, rfl, hover⟩ := h
  exact if_neg (Nat.not_le_of_lt hover)

/-- An operand that was read passes its check, unless it is a text that is too long for its
field. -/
theorem check_of_decodePlain (hkind : kind ≠ .stream)
    (h : kind.decodePlain atom index data = .ok (op, rest)) :
    kind.check atom index op = .ok () ∨
      ∃ limit text, Overrun kind op limit text ∧ text.utf8ByteSize ≤ data.length := by
  cases kind with
  | byte | named =>
    simp only [decodePlain] at h
    split at h
    · next b _ =>
      cases h
      refine .inl (if_pos ?_)
      have hlt := b.toNat_lt
      rw [UInt32.le_iff_toNat_le, UInt8.toNat_toUInt32]
      exact Nat.le_of_lt_succ hlt
    · cases h
  | word =>
    simp only [decodePlain] at h
    split at h
    · next hi lo _ =>
      cases h
      refine .inl (if_pos ?_)
      have hlt := (Bytes.uint16 hi lo).toNat_lt
      rw [UInt32.le_iff_toNat_le, UInt16.toNat_toUInt32]
      exact Nat.le_of_lt_succ hlt
    · cases h
  | dword =>
    rw [decodePlain] at h
    split at h <;> cases h
    exact .inl rfl
  | num =>
    rw [decodePlain] at h
    split at h <;> cases h
    exact .inl rfl
  | text limit =>
    rw [decodePlain] at h
    split at h
    · next s hs =>
      cases h
      rcases Nat.lt_or_ge limit s.utf8ByteSize with hover | hfits
      · refine .inr ⟨limit, s, ⟨rfl, rfl, hover⟩, ?_⟩
        rw [← Text.utf8_of_utf8? hs, Text.length_utf8]
      · exact .inl (if_pos hfits)
    · cases h
  | gid =>
    rw [decodePlain] at h
    obtain ⟨gid, -, heq⟩ := bind_eq_ok_iff.mp h
    cases heq
    exact .inl rfl
  | raw =>
    cases h
    exact .inl rfl
  | stream => exact absurd rfl hkind

/-- What was read from data is no empty text, since an empty text stands for no data. -/
theorem isEmptyText_of_decodePlain (hdata : data ≠ [])
    (h : kind.decodePlain atom index data = .ok (op, rest)) : op.isEmptyText = false := by
  cases kind with
  | byte | named | word =>
    simp only [decodePlain] at h
    split at h <;> cases h
    rfl
  | dword | num =>
    rw [decodePlain] at h
    split at h <;> cases h
    rfl
  | text limit =>
    rw [decodePlain] at h
    split at h
    · next s hs =>
      cases h
      rw [Operand.isEmptyText, ← Bool.not_eq_true, String.isEmpty_iff]
      rintro rfl
      exact hdata (Text.utf8_of_utf8? hs).symm
    · cases h
  | gid =>
    rw [decodePlain] at h
    obtain ⟨gid, -, heq⟩ := bind_eq_ok_iff.mp h
    cases heq
    rfl
  | raw | stream =>
    cases h
    rw [Operand.isEmptyText, List.isEmpty_eq_false_iff]
    exact hdata

/-- A field that carries no stream is read as an operand that carries none. -/
theorem ne_stream_of_decodePlain (h : kind.decodePlain atom index data = .ok (op, rest))
    (inner : List Atom) : op ≠ .stream inner := by
  rintro rfl
  cases kind with
  | byte | named | word | dword | num | text =>
    simp only [decodePlain] at h
    split at h <;> cases h
  | gid =>
    rw [decodePlain] at h
    obtain ⟨gid, -, heq⟩ := bind_eq_ok_iff.mp h
    cases heq
  | raw | stream => cases h

end FieldKind

-- ---------------------------------------------------------------------------
-- The operands of an atom
-- ---------------------------------------------------------------------------

namespace Operand

variable {s : Signature} {inner : UInt16} {index : Nat} {kinds : List FieldKind} {data : Bytes}
  {ops : List Operand}

/-- As many operands are read as the fields require and allow. -/
theorem Spells.length (h : Spells s inner index kinds data ops)
    (hrequired : s.required ≤ index + kinds.length) :
    s.required ≤ index + ops.length ∧ ops.length ≤ kinds.length := by
  induction kinds generalizing index data ops with
  | nil =>
    cases h
    exact ⟨hrequired, Nat.le_refl _⟩
  | cons kind kinds ih =>
    rw [List.length_cons] at hrequired ⊢
    cases h with
    | omitted optional => exact ⟨Nat.le_add_right_of_le optional, Nat.zero_le _⟩
    | plain _ _ _ later | stream _ _ later =>
      obtain ⟨hmin, hmax⟩ := ih later (by omega)
      rw [List.length_cons]
      omega

/-- The operands pass their checks up to the first text that is too long for its field. -/
theorem Spells.checkFields (h : Spells s inner index kinds data ops) :
    Signature.checkFields s.name (index + 1) kinds ops = .ok () ∨
      ∃ limit text, (.text limit, .str text) ∈ kinds.zip ops ∧ limit < text.utf8ByteSize ∧
        text.utf8ByteSize ≤ data.length ∧
        Signature.checkFields s.name (index + 1) kinds ops =
          .error (.textTooLong s.name text.utf8ByteSize limit) := by
  induction kinds generalizing index data ops with
  | nil =>
    cases h
    exact .inl rfl
  | cons kind kinds ih =>
    cases h with
    | omitted => exact .inl rfl
    | plain _ carries read later =>
      rw [Signature.checkFields, List.zip_cons_cons]
      rcases FieldKind.check_of_decodePlain carries read with hop | ⟨limit, text, hover, hsize⟩
      · have hrest := FieldKind.length_decodePlain read
        rw [hop, ok_bind]
        rcases ih later with hok | ⟨limit, text, hmem, hover, hsize, herror⟩
        · exact .inl hok
        · exact .inr ⟨limit, text, List.mem_cons_of_mem _ hmem, hover, hsize.trans hrest, herror⟩
      · refine .inr ⟨limit, text, ?_, hover.exceeds, hsize, ?_⟩
        · rw [hover.field, hover.operand]
          exact List.mem_cons_self ..
        · rw [hover.check, error_bind]
    | stream _ _ later =>
      rw [Signature.checkFields, List.zip_cons_cons, FieldKind.check, ok_bind]
      rcases ih later with hok | ⟨limit, text, hmem, hover, hsize, herror⟩
      · exact .inl hok
      · exact .inr ⟨limit, text, List.mem_cons_of_mem _ hmem, hover, hsize.trans (Nat.zero_le _),
          herror⟩

/-- What could have been omitted and was read is not empty. -/
theorem Spells.isEmptyText (h : Spells s inner index kinds data ops) :
    ∀ op ∈ ops.drop (s.required - index), op.isEmptyText = false := by
  induction kinds generalizing index data ops with
  | nil =>
    cases h
    rw [List.drop_nil]
    nofun
  | cons kind kinds ih =>
    -- an operand that is required is not looked at; behind it the position has moved on by one
    have hnext {first : Operand} {ops : List Operand}
        (hfirst : s.required ≤ index → first.isEmptyText = false)
        (hlater : ∀ op ∈ ops.drop (s.required - (index + 1)), op.isEmptyText = false) :
        ∀ op ∈ (first :: ops).drop (s.required - index), op.isEmptyText = false := by
      rcases Nat.lt_or_ge index s.required with hlt | hge
      · rw [show s.required - index = s.required - (index + 1) + 1 by omega]
        exact hlater
      · rw [Nat.sub_eq_zero_of_le (Nat.le_succ_of_le hge), List.drop_zero] at hlater
        rw [Nat.sub_eq_zero_of_le hge, List.drop_zero]
        exact List.forall_mem_cons.mpr ⟨hfirst hge, hlater⟩
    cases h with
    | omitted =>
      rw [List.drop_nil]
      nofun
    | plain present _ read later =>
      exact hnext (fun hge => FieldKind.isEmptyText_of_decodePlain (fun h => present ⟨h, hge⟩) read)
        (ih later)
    | stream _ _ later => exact hnext (fun _ => rfl) (ih later)

/-- Nothing is dropped from operands if nothing that could be omitted is empty. -/
theorem dropOmitted_eq_self {required : Nat}
    (h : ∀ op ∈ ops.drop required, op.isEmptyText = false) : dropOmitted required ops = ops := by
  have hself : (ops.drop required).rdropWhile (·.isEmptyText) = ops.drop required := by
    rw [List.rdropWhile_eq_self_iff]
    intro hne
    rw [h _ (List.getLast_mem hne)]
    exact Bool.false_ne_true
  rw [dropOmitted_eq, hself, List.take_append_drop]

/-- Texts that pass the check keep to the widths of their fields. -/
theorem size_of_checkFields {name : String} {limit : Nat} {text : String}
    (h : Signature.checkFields name index kinds ops = .ok ())
    (hmem : (FieldKind.text limit, Operand.str text) ∈ kinds.zip ops) :
    text.utf8ByteSize ≤ limit := by
  induction kinds generalizing index ops with
  | nil => cases hmem
  | cons kind kinds ih =>
    cases ops with
    | nil => cases hmem
    | cons op ops =>
      rw [Signature.checkFields] at h
      obtain ⟨_, hop, hrest⟩ := bind_eq_ok_iff.mp h
      rw [List.zip_cons_cons] at hmem
      rcases List.mem_cons.mp hmem with heq | hlater
      · obtain ⟨rfl, rfl⟩ := Prod.mk.inj heq
        by_contra hover
        rw [FieldKind.check, if_neg hover] at hop
        cases hop
      · exact ih hrest hlater

end Operand

-- ---------------------------------------------------------------------------
-- The atoms of a stream
-- ---------------------------------------------------------------------------

mutual

theorem Operand.Spells.everywhere {P : Atom → Prop}
    (hP : ∀ {s : Signature} {inner depth : UInt16} {data : Bytes} {ops : List Operand},
      s ∈ Signature.all → data.length ≤ Atom.maxData →
      Operand.Spells s inner 0 s.fields data ops → P (.mk s ops depth))
    {s : Signature} {inner : UInt16} :
    ∀ {index : Nat} {kinds : List FieldKind} {data : Bytes} {ops : List Operand},
      Operand.Spells s inner index kinds data ops →
      ∀ nested, .stream nested ∈ ops → Atom.Everywhere P nested
  | _, _, _, _, .nil, nested, hmem => by cases hmem
  | _, _, _, _, .omitted _, nested, hmem => by cases hmem
  | _, _, _, _, .plain _ _ read later, nested, hmem => by
    rcases List.mem_cons.mp hmem with heq | hlater
    · exact absurd heq.symm (FieldKind.ne_stream_of_decodePlain read nested)
    · exact Operand.Spells.everywhere hP later nested hlater
  | _, _, _, _, .stream _ inside later, nested, hmem => by
    rcases List.mem_cons.mp hmem with heq | hlater
    · cases heq
      exact Atom.Spells.everywhere hP inside
    · exact Operand.Spells.everywhere hP later nested hlater

/-- What holds of every atom whose operands were read from data that an atom can carry holds of every
atom of a stream that was read. -/
theorem Atom.Spells.everywhere {P : Atom → Prop}
    (hP : ∀ {s : Signature} {inner depth : UInt16} {data : Bytes} {ops : List Operand},
      s ∈ Signature.all → data.length ≤ Atom.maxData →
      Operand.Spells s inner 0 s.fields data ops → P (.mk s ops depth))
    {base : UInt16} :
    ∀ {depth : UInt16} {bytes : Bytes} {atoms : List Atom}, Atom.Spells base depth bytes atoms →
      Atom.Everywhere P atoms
  | _, _, _, .nil => Atom.everywhere_nil P
  | _, _, _, @Atom.Spells.cons _ _ _ _ rest _ size _ _ split _ known operands later => by
    obtain ⟨_, -, -, hmax, -⟩ := AtomLayout.header_of_splitHeader? split
    have hdata : (rest.take size).length ≤ Atom.maxData := (List.length_take_le ..).trans hmax
    exact Atom.everywhere_cons.mpr ⟨hP (Signature.mem_of_byTag? known) hdata operands,
      Operand.Spells.everywhere hP operands, Atom.Spells.everywhere hP later⟩

end

/-- The look-up answers with its check of the operands, if there is nothing that it would drop. -/
theorem Atom.make_of_mem {s : Signature} (hs : s ∈ Signature.all) {ops : List Operand}
    (hdrop : Operand.dropOmitted s.required ops = ops) :
    make s.name ops = match s.check ops with
      | .ok () => .ok (.mk s ops 0)
      | .error fault => .error (.format fault) := by
  rw [make, Signature.byName?_name hs]
  dsimp only
  rewrite [hdrop]
  rfl

/-- What the reader gives, at any level, is what the look-up would have built, as long as the texts
keep to the widths of their fields.  A text that does not is what the look-up then complains of: it
fits in the data of an atom and not in its field. -/
theorem Atom.admitted_of_decodeStream {bytes : Bytes} {atoms : List Atom}
    (h : decodeStream bytes = .ok atoms) :
    Everywhere (fun a =>
      (a.TextsFit → a.signature.check a.operands = .ok () ∧
        make a.name a.operands = .ok (.mk a.signature a.operands 0)) ∧
      (¬a.TextsFit → ∃ limit text,
        (.text limit, .str text) ∈ a.signature.fields.zip a.operands ∧
        limit < text.utf8ByteSize ∧ text.utf8ByteSize ≤ maxData ∧
        a.signature.check a.operands = .error (.textTooLong a.name text.utf8ByteSize limit) ∧
        make a.name a.operands =
          .error (.format (.textTooLong a.name text.utf8ByteSize limit)))) atoms := by
  refine (decodeStream_eq_ok_iff.mp h).everywhere ?_
  intro s inner depth data ops hs hdata hspells
  simp only [TextsFit, name, signature, operands]
  obtain ⟨hmin, hmax⟩ :=
    hspells.length (Nat.le_add_left_of_le (Signature.isRegular_of_mem hs).required_le)
  have hmake := make_of_mem hs (Operand.dropOmitted_eq_self hspells.isEmptyText)
  have hcheck : s.check ops = Signature.checkFields s.name 1 s.fields ops := by
    rw [Signature.check, if_neg (by omega)]
  rcases hspells.checkFields with hok | ⟨limit, text, hmem, hover, hsize, herror⟩
  · rw [hmake, hcheck, hok]
    refine ⟨fun _ => ⟨rfl, rfl⟩, fun hlong => absurd ?_ hlong⟩
    intro limit text hmem
    exact Operand.size_of_checkFields hok hmem
  · rw [hmake, hcheck, herror]
    refine ⟨fun hfit => absurd (hfit limit text hmem) (Nat.not_le_of_lt hover), fun _ => ?_⟩
    exact ⟨limit, text, hmem, hover, hsize.trans hdata, rfl, rfl⟩

/-- Two tokens in a stream that an atom carries: the one of two bytes may be built from what was
read, the one of three may not. -/
theorem Atom.admitted_of_decodeStream_tokens :
    let send : Signature := .plain "sm_send_token_arg" .sm 0 [.text 2]
    let bytes : Bytes := [2, 2, 11, 13, 0, 2, 97, 98, 13, 0, 3, 97, 98, 99]
    ∃ atoms, decodeStream bytes = .ok atoms ∧
      Within (.mk send [.str "ab"] 1) atoms ∧
      send.check [.str "ab"] = .ok () ∧ make send.name [.str "ab"] = .ok (.mk send [.str "ab"] 0) ∧
      Within (.mk send [.str "abc"] 1) atoms ∧
      make send.name [.str "abc"] = .error (.format (.textTooLong send.name 3 2)) := by
  intro send bytes
  let action : Signature := .plain "act_replace_action" .act 2 [.stream]
  let inner : List Atom := [.mk send [.str "ab"] 1, .mk send [.str "abc"] 1]
  have hread : decodeStream bytes = .ok [.mk action [.stream inner] 0] := by
    cbv
  have hwithin {a : Atom} (ha : a ∈ inner) : Within a [.mk action [.stream inner] 0] :=
    .nested (List.mem_singleton_self _) (List.mem_singleton_self _) (.here ha)
  have hshort : TextsFit (.mk send [.str "ab"] 1) := by
    intro limit text hmem
    cases List.mem_singleton.mp hmem
    decide
  have hlong : ¬TextsFit (.mk send [.str "abc"] 1) := by
    intro hfit
    exact absurd (hfit 2 "abc" (List.mem_singleton_self _)) (by decide)
  have hfirst := hwithin (List.mem_cons_self ..)
  have hsecond := hwithin (List.mem_cons_of_mem _ (List.mem_singleton_self _))
  obtain ⟨hcheck, hmake⟩ := (admitted_of_decodeStream hread _ hfirst).1 hshort
  obtain ⟨limit, text, hmem, -, -, -, hrefused⟩ := (admitted_of_decodeStream hread _ hsecond).2 hlong
  cases List.mem_singleton.mp hmem
  exact ⟨_, hread, hfirst, hcheck, hmake, hsecond, hrefused⟩

/-- A token of three bytes is read, and the signature that it was read for does not admit it. -/
theorem Atom.wide_token_read :
    let send : Signature := .plain "sm_send_token_arg" .sm 0 [.text 2]
    Signature.byName? "sm_send_token_arg" = some send ∧
      decodeStream [13, 0, 3, 97, 98, 99] = .ok [.mk send [.str "abc"] 0] ∧
      send.check [.str "abc"] = .error (.textTooLong "sm_send_token_arg" 3 2) ∧
      make "sm_send_token_arg" [.str "abc"] =
        .error (.format (.textTooLong "sm_send_token_arg" 3 2)) := by
  intro send
  refine ⟨rfl, ?_, rfl, rfl⟩
  cbv

end Switchboard
