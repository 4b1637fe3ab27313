import Mathlib.Data.List.Forall2
import Switchboard.Atom.Error
import Switchboard.Proofs.Bytes
import Switchboard.Proofs.Text.Blank
import Switchboard.Proofs.Text.Decimal

/-!
# The two forms of a global id

As text a global id is two or three runs of digits between single dashes, perhaps with white space
around; every run denotes the component that stands in its place.  On the wire it is three or four bytes.

Main results:

* `Gid.ofChars?_eq_some_iff`: which texts are read, and as which id.
* `Gid.parse?_text`: what is written is read as the id that was written.
* `Gid.exact_forms`: all that holds of the two forms.
-/

namespace Switchboard

namespace Gid

open Text (IsNumeral)

-- ---------------------------------------------------------------------------
-- Text form
-- ---------------------------------------------------------------------------

/-- A text spells an id: its components, as runs of digits, stand between single dashes, with nothing but
white space around them. -/
def Spells (cs : List Char) (gid : Gid) : Prop :=
  ∃ before parts after, cs = before ++ List.intercalate ['-'] parts ++ after ∧
    (∀ c ∈ before, Text.isBlank c = true) ∧ (∀ c ∈ after, Text.isBlank c = true) ∧
    List.Forall₂ IsNumeral parts gid.components

theorem byte?_eq_some_iff {cs : List Char} {b : UInt8} :
    byte? cs = some b ↔ IsNumeral cs b.toNat := by
  rw [byte?, Option.map_eq_some_iff]
  constructor
  · rintro ⟨n, hn, rfl⟩
    obtain ⟨hdigits, hlt⟩ := (Text.decimalBelow?_eq_some_iff (by decide)).mp hn
    rwa [UInt8.toNat_ofNat_of_lt' hlt]
  · intro h
    exact ⟨b.toNat, (Text.decimalBelow?_eq_some_iff (by decide)).mpr ⟨h, b.toNat_lt⟩,
      UInt8.ofNat_toNat⟩

theorem word?_eq_some_iff {cs : List Char} {w : UInt16} :
    word? cs = some w ↔ IsNumeral cs w.toNat := by
  rw [word?, Option.map_eq_some_iff]
  constructor
  · rintro ⟨n, hn, rfl⟩
    obtain ⟨hdigits, hlt⟩ := (Text.decimalBelow?_eq_some_iff (by decide)).mp hn
    rwa [UInt16.toNat_ofNat_of_lt' hlt]
  · intro h
    exact ⟨w.toNat, (Text.decimalBelow?_eq_some_iff (by decide)).mpr ⟨h, w.toNat_lt⟩,
      UInt16.ofNat_toNat⟩

/-- The id that the parts of a text between dashes denote. -/
def ofParts? : List (List Char) → Option Gid
  | [a, b] => do return two (← byte? a) (← word? b)
  | [a, b, c] => do return three (← byte? a) (← byte? b) (← word? c)
  | _ => none

theorem ofChars?_eq (cs : List Char) : ofChars? cs = ofParts? ((Text.trim cs).splitOn '-') := rfl

/-- The parts denote an id if each is the number of a component. -/
theorem ofParts?_eq_some_iff {parts : List (List Char)} {gid : Gid} :
    ofParts? parts = some gid ↔ List.Forall₂ IsNumeral parts gid.components := by
  constructor
  · intro h
    unfold ofParts? at h
    split at h
    · obtain ⟨domain, hdomain, h⟩ := Option.bind_eq_some_iff.mp h
      obtain ⟨id, hid, h⟩ := Option.bind_eq_some_iff.mp h
      cases h
      exact .cons (byte?_eq_some_iff.mp hdomain) (.cons (word?_eq_some_iff.mp hid) .nil)
    · obtain ⟨domain, hdomain, h⟩ := Option.bind_eq_some_iff.mp h
      obtain ⟨major, hmajor, h⟩ := Option.bind_eq_some_iff.mp h
      obtain ⟨id, hid, h⟩ := Option.bind_eq_some_iff.mp h
      cases h
      exact .cons (byte?_eq_some_iff.mp hdomain)
        (.cons (byte?_eq_some_iff.mp hmajor) (.cons (word?_eq_some_iff.mp hid) .nil))
    · cases h
  · intro h
    cases gid with
    | two domain id =>
      obtain _ | ⟨hdomain, _ | ⟨hid, _ | _⟩⟩ := h
      simp [ofParts?, byte?_eq_some_iff.mpr hdomain, word?_eq_some_iff.mpr hid]
    | three domain major id =>
      obtain _ | ⟨hdomain, _ | ⟨hmajor, _ | ⟨hid, _ | _⟩⟩⟩ := h
      simp [ofParts?, byte?_eq_some_iff.mpr hdomain, byte?_eq_some_iff.mpr hmajor,
        word?_eq_some_iff.mpr hid]

theorem isDigit_of_mem_part {parts : List (List Char)} {ns : List Nat}
    (h : List.Forall₂ IsNumeral parts ns) : ∀ part ∈ parts, ∀ c ∈ part, Text.isDigit c = true := by
  induction h with
  | nil => exact List.forall_mem_nil _
  | cons hpart _ ih => exact List.forall_mem_cons.mpr ⟨hpart.isDigit, ih⟩

theorem mem_intercalate {sep c : Char} {parts : List (List Char)}
    (h : c ∈ List.intercalate [sep] parts) : c = sep ∨ ∃ part ∈ parts, c ∈ part := by
  induction parts with
  | nil => cases h
  | cons part rest ih =>
    cases rest with
    | nil =>
      rw [List.intercalate_singleton] at h
      exact .inr ⟨part, List.mem_cons_self, h⟩
    | cons next rest =>
      rw [List.intercalate_cons_cons, List.mem_append, List.mem_append, List.mem_singleton] at h
      rcases h with (hpart | hsep) | hrest
      · exact .inr ⟨part, List.mem_cons_self, hpart⟩
      · exact .inl hsep
      · rcases ih hrest with hsep | ⟨other, hother, hc⟩
        · exact .inl hsep
        · exact .inr ⟨other, List.mem_cons_of_mem _ hother, hc⟩

/-- A text is read as the id that it spells, and as nothing else. -/
theorem ofChars?_eq_some_iff {cs : List Char} {gid : Gid} :
    ofChars? cs = some gid ↔ Spells cs gid := by
  rw [ofChars?_eq, ofParts?_eq_some_iff]
  constructor
  · intro h
    obtain ⟨before, after, hcs, hbefore, hafter⟩ := Text.exists_trim cs
    refine ⟨before, _, after, ?_, hbefore, hafter, h⟩
    rw [List.intercalate_splitOn]
    exact hcs
  · rintro ⟨before, parts, after, rfl, hbefore, hafter, hparts⟩
    have hdigits := isDigit_of_mem_part hparts
    have hcore : ∀ c ∈ List.intercalate ['-'] parts, Text.isBlank c = false := by
      intro c hc
      rcases mem_intercalate hc with rfl | ⟨part, hpart, hc⟩
      · decide
      · exact Text.isBlank_of_isDigit (hdigits part hpart c hc)
    have hdash : ∀ part ∈ parts, '-' ∉ part := by
      intro part hpart hdash
      cases hdigits part hpart '-' hdash
    have hne : parts ≠ [] := by
      rintro rfl
      cases gid <;> cases hparts
    rw [Text.trim_of_blank_around hbefore hcore hafter, List.splitOn_intercalate '-' hdash hne]
    exact hparts

/-- What is written for an id spells it. -/
theorem spells_chars (gid : Gid) : Spells gid.chars gid := by
  refine ⟨[], gid.components.map Text.decimal, [], ?_, List.forall_mem_nil _, List.forall_mem_nil _, ?_⟩
  · rw [List.nil_append, List.append_nil]
    rfl
  · rw [List.forall₂_map_left_iff, List.forall₂_same]
    intro n _
    exact Text.isNumeral_decimal n

/-- The text form of an id is read as the id. -/
theorem parse?_text (gid : Gid) : parse? gid.text = some gid := by
  rw [parse?, text, String.toList_ofList, ofChars?_eq_some_iff]
  exact gid.spells_chars

/-- Two numbers, or three, are the components of an id if each fits its width. -/
theorem exists_components_iff {ns : List Nat} :
    (∃ gid : Gid, gid.components = ns) ↔
      (∃ a b, ns = [a, b] ∧ a < 256 ∧ b < 65536) ∨
        ∃ a b c, ns = [a, b, c] ∧ a < 256 ∧ b < 256 ∧ c < 65536 := by
  constructor
  · rintro ⟨gid, rfl⟩
    cases gid with
    | two domain id => exact .inl ⟨_, _, rfl, domain.toNat_lt, id.toNat_lt⟩
    | three domain major id =>
      exact .inr ⟨_, _, _, rfl, domain.toNat_lt, major.toNat_lt, id.toNat_lt⟩
  · rintro (⟨a, b, rfl, ha, hb⟩ | ⟨a, b, c, rfl, ha, hb, hc⟩)
    · refine ⟨two (UInt8.ofNat a) (UInt16.ofNat b), ?_⟩
      rw [components, UInt8.toNat_ofNat_of_lt' ha, UInt16.toNat_ofNat_of_lt' hb]
    · refine ⟨three (UInt8.ofNat a) (UInt8.ofNat b) (UInt16.ofNat c), ?_⟩
      rw [components, UInt8.toNat_ofNat_of_lt' ha, UInt8.toNat_ofNat_of_lt' hb,
        UInt16.toNat_ofNat_of_lt' hc]

theorem ofText_eq_ok_iff {s : String} {gid : Gid} : ofText s = .ok gid ↔ Spells s.toList gid := by
  rw [← ofChars?_eq_some_iff, ofText, parse?]
  cases ofChars? s.toList with
  | none => simp
  | some found => simp

/-- A text that spells no id is refused as it is. -/
theorem ofText_eq_error_iff {s : String} {error : AtomError} :
    ofText s = .error error ↔
      (∀ gid, ¬ Spells s.toList gid) ∧ error = .format (.gidLiteral s) := by
  simp only [← ofText_eq_ok_iff]
  unfold ofText
  cases parse? s with
  | none => simp [eq_comm]
  | some found => simp

-- ---------------------------------------------------------------------------
-- Wire form
-- ---------------------------------------------------------------------------

theorem decode_eq_ok_iff {bytes : Bytes} {gid : Gid} :
    decode bytes = .ok gid ↔ gid.encode = bytes := by
  have hdecode : decode bytes = .ok gid ↔ decode? bytes = some gid := by
    unfold decode
    cases decode? bytes with
    | none => simp
    | some found => simp
  rw [hdecode]
  constructor
  · exact encode_of_decode?
  · rintro rfl
    exact gid.decode?_encode

/-- Three or four bytes are an id, and nothing else is. -/
theorem exists_decode_iff {bytes : Bytes} :
    (∃ gid, decode bytes = .ok gid) ↔ bytes.length = 3 ∨ bytes.length = 4 := by
  constructor
  · rintro ⟨gid, h⟩
    rw [← decode_eq_ok_iff.mp h, gid.length_encode]
    cases gid with
    | two domain id => exact .inl rfl
    | three domain major id => exact .inr rfl
  · intro h
    match bytes, h with
    | [domain, hi, lo], _ => exact ⟨_, rfl⟩
    | [domain, major, hi, lo], _ => exact ⟨_, rfl⟩

/-- A text is read as an id if it spells the id: two or three numbers that fit their widths, between
single dashes; all other texts are refused.  Bytes are read as the id that is written as these bytes, and
exactly three or four bytes are.  What is written for an id is read as that id, so in neither form two
ids are written alike. -/
theorem exact_forms :
    (∀ s gid, ofText s = .ok gid ↔ Spells s.toList gid) ∧
    (∀ ns, (∃ gid : Gid, gid.components = ns) ↔
      (∃ a b, ns = [a, b] ∧ a < 256 ∧ b < 65536) ∨
        ∃ a b c, ns = [a, b, c] ∧ a < 256 ∧ b < 256 ∧ c < 65536) ∧
    (∀ s error, ofText s = .error error ↔
      (∀ gid, ¬ Spells s.toList gid) ∧ error = .format (.gidLiteral s)) ∧
    (∀ gid : Gid, ofText gid.text = .ok gid) ∧
    (∀ bytes, (∃ gid, decode bytes = .ok gid) ↔ bytes.length = 3 ∨ bytes.length = 4) ∧
    (∀ bytes gid, decode bytes = .ok gid ↔ gid.encode = bytes) ∧
    (∀ gid : Gid, gid.encode.length = gid.wireLength) ∧
    (∀ a b : Gid, (a.text = b.text ↔ a = b) ∧ (a.encode = b.encode ↔ a = b)) := by
  have htext (gid : Gid) : ofText gid.text = .ok gid := by rw [ofText, parse?_text]
  have hbytes (gid : Gid) : decode gid.encode = .ok gid := decode_eq_ok_iff.mpr rfl
  refine ⟨fun _ _ => ofText_eq_ok_iff, fun _ => exists_components_iff,
    fun _ _ => ofText_eq_error_iff, htext, fun _ => exists_decode_iff, fun _ _ => decode_eq_ok_iff,
    length_encode, fun a b => ⟨⟨fun heq => ?_, congrArg text⟩, ⟨fun heq => ?_, congrArg encode⟩⟩⟩
  · have hread := htext b
    rw [← heq, htext a] at hread
    cases hread
    rfl
  · have hread := hbytes b
    rw [← heq, hbytes a] at hread
    cases hread
    rfl

end Gid

end Switchboard
