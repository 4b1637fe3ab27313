import Switchboard.Atom.Listing
import Switchboard.Proofs.Atom.Vocabulary
import Switchboard.Proofs.Text.Decimal
import Switchboard.Source.Operand

/-!
# Words of listings, read as source text

A listing writes numbers, bytes, global ids and names as words.  Source text knows two kinds of
word: one that starts with a digit is a literal and may have dashes in it, any other is a name.

Main results:

* `isWord_numberLiteral`, `isWord_byteLiteral`, `Gid.isWord_chars`: what a listing writes is one
  word.
* `readLexeme_number`, `number_byteLiteral`: the word is read as what was written.
-/

namespace Switchboard

-- ---------------------------------------------------------------------------
-- Words
-- ---------------------------------------------------------------------------

/-- Whether the scanner takes all the characters as one word. -/
def IsWord : List Char → Prop
  | [] => False
  | first :: rest => isWordChar first = true ∧
      ∀ c ∈ rest, isWordChar c = true ∨ (Text.isDigit first = true ∧ c = '-')

/-- The lexeme of a word. -/
def Lexeme.ofWord (word : List Char) : Lexeme :=
  if word.head?.any Text.isDigit then .literal (String.ofList word) else .name (String.ofList word)

theorem isWord_of_all {word : List Char} (hne : word ≠ []) (h : ∀ c ∈ word, isWordChar c = true) :
    IsWord word := by
  cases word with
  | nil => exact absurd rfl hne
  | cons first rest =>
    obtain ⟨hfirst, hrest⟩ := List.forall_mem_cons.mp h
    exact ⟨hfirst, fun c hc => .inl (hrest c hc)⟩

theorem isWordChar_of_isDigit {c : Char} (h : Text.isDigit c = true) : isWordChar c = true := by
  rw [isWordChar, h, Bool.or_true, Bool.true_or]

theorem Lexeme.number_ofWord (word : List Char) :
    (Lexeme.ofWord word).number =
      match numberWord? word with
      | some v => .ok v
      | none => .error (String.ofList word) := by
  unfold ofWord
  split <;> rewrite [number, String.toList_ofList] <;> rfl

/-- No white space starts a word. -/
theorem isBlank_of_isWordChar {c : Char} (h : isWordChar c = true) : Text.isBlank c = false := by
  have hrange : 45 ≤ c.toNat ∧ c.toNat ≤ 122 := by
    simp only [isWordChar, Text.isDigit, Bool.or_eq_true, Bool.and_eq_true, decide_eq_true_eq,
      beq_iff_eq] at h
    rcases h with ((h | h) | h) | rfl
    · exact ⟨Nat.le_trans (by decide) h.1, h.2⟩
    · exact ⟨Nat.le_trans (by decide) h.1, Nat.le_trans h.2 (by decide)⟩
    · exact ⟨Nat.le_trans (by decide) h.1, Nat.le_trans h.2 (by decide)⟩
    · decide
  simp [Text.isBlank]
  omega

/-- Whether a word is a name: it has a word character and does not start with a digit. -/
def isName (word : List Char) : Bool :=
  !word.head?.any Text.isDigit && !word.isEmpty && word.all isWordChar

theorem isWord_of_isName {word : List Char} (h : isName word = true) : IsWord word := by
  rw [isName, Bool.and_eq_true, Bool.and_eq_true, List.all_eq_true] at h
  refine isWord_of_all ?_ h.2
  rintro rfl
  cases h.1.2

theorem Lexeme.ofWord_of_isName {word : List Char} (h : isName word = true) :
    Lexeme.ofWord word = .name (String.ofList word) := by
  rw [isName, Bool.and_eq_true, Bool.and_eq_true, Bool.not_eq_true'] at h
  rw [ofWord, h.1.1]
  rfl

/-- The names of atoms are names. -/
theorem Signature.isName_of_byName? {name : String} {s : Signature} (h : byName? name = some s) :
    isName s.name.toList = true := by
  have hall : ∀ s ∈ all, isName s.name.toList = true := by
    -- one row of the table after the other: its name is given by its characters, not by its bytes
    unfold all
    repeat
      refine List.forall_mem_cons.mpr
        ⟨(congrArg isName String.toList_ofList).trans (by decide), ?_⟩
    exact List.forall_mem_nil _
  exact hall s (List.mem_of_find?_eq_some h)

/-- So are the names of values. -/
theorem Vocabulary.isName_of_nameOf? {vocabulary : Vocabulary} {value : Nat} {name : String}
    (h : vocabulary.nameOf? value = some name) : isName name.toList = true := by
  have hall : ∀ value < 32, ∀ name ∈ vocabulary.nameOf? value, isName name.toList = true := by
    cases vocabulary <;> decide +kernel
  exact hall value (lt_of_nameOf? h) name h

-- ---------------------------------------------------------------------------
-- Numbers
-- ---------------------------------------------------------------------------

namespace Text

theorem isDigit_of_mem_decimal {n : Nat} {c : Char} (h : c ∈ decimal n) : isDigit c = true :=
  (isNumeral_decimal n).isDigit c h

theorem decimalBelow?_decimal {n bound : Nat} (h : n < bound) :
    decimalBelow? bound (decimal n) = some n :=
  (decimalBelow?_eq_some_iff (Nat.zero_lt_of_lt h)).mpr ⟨isNumeral_decimal n, h⟩

end Text

theorem isWord_decimal (n : Nat) : IsWord (Text.decimal n) :=
  isWord_of_all (Text.decimal_spec n).1 fun _ hc =>
    isWordChar_of_isDigit (Text.isDigit_of_mem_decimal hc)

/-- Digits are a literal. -/
theorem Lexeme.ofWord_decimal (n : Nat) :
    Lexeme.ofWord (Text.decimal n) = .literal (String.ofList (Text.decimal n)) := by
  have hne := (Text.decimal_spec n).1
  rw [ofWord, List.head?_eq_some_head hne, Option.any_some,
    Text.isDigit_of_mem_decimal (List.head_mem hne)]
  rfl

theorem numberWord?_decimal (v : UInt32) : numberWord? (Text.decimal v.toNat) = some v := by
  have hnone : hexLiteral? (Text.decimal v.toNat) = none := by
    -- a literal of the other kind ends with a letter
    unfold hexLiteral?
    split
    · next x digits hreverse =>
      have hdigit : Text.isDigit x = true :=
        Text.isDigit_of_mem_decimal (List.mem_reverse.mp (hreverse ▸ List.mem_cons_self))
      refine if_neg fun hx => ?_
      rcases hx.1 with rfl | rfl <;> cases hdigit
    · rfl
  rw [numberWord?, hnone]
  simp only [Text.decimalBelow?_decimal v.toNat_lt, Option.map_some, UInt32.ofNat_toNat]

/-- What a listing writes for a number is one word. -/
theorem isWord_numberLiteral (kind : FieldKind) (v : UInt32) : IsWord (numberLiteral kind v) := by
  cases kind with
  | named vocabulary =>
    unfold numberLiteral
    dsimp only
    split
    · next hname => exact isWord_of_isName (Vocabulary.isName_of_nameOf? hname)
    · exact isWord_decimal _
  | _ => exact isWord_decimal _

/-- A field of numbers reads the word as the number. -/
theorem readLexeme_number {kind : FieldKind} {name : String} {index : Nat} {v : UInt32}
    (h : kind.check name index (.int v) = .ok ()) (atom : String) (line : Nat) :
    readLexeme atom line kind (.ofWord (numberLiteral kind v)) = .ok (.int v) := by
  have hdecimal : readNumber atom line (.ofWord (Text.decimal v.toNat)) = .ok (.int v) := by
    rw [readNumber, Lexeme.number_ofWord, numberWord?_decimal]
  cases kind with
  | byte | word | dword | num => exact hdecimal
  | text | raw | gid | stream => cases h
  | named vocabulary =>
    unfold numberLiteral
    dsimp only
    split
    · next name hname =>
      obtain ⟨k, hvalue, rfl⟩ := Vocabulary.value?_of_nameOf?_toNat hname
      rw [Lexeme.ofWord_of_isName (Vocabulary.isName_of_nameOf? hname), String.ofList_toList,
        readLexeme, hvalue]
    · rw [Lexeme.ofWord_decimal] at hdecimal ⊢
      exact hdecimal

-- ---------------------------------------------------------------------------
-- Bytes
-- ---------------------------------------------------------------------------

theorem Text.hexDigit_spec {n : Nat} (h : n < 16) :
    isWordChar (hexDigit n) = true ∧ hexValue? (hexDigit n) = some n := by
  have hdigits : ∀ n < 16, isWordChar (hexDigit n) = true ∧ hexValue? (hexDigit n) = some n := by
    decide
  exact hdigits n h

theorem isWord_byteLiteral (b : UInt8) : IsWord (byteLiteral b) := by
  have hlt := b.toNat_lt
  refine isWord_of_all (List.cons_ne_nil _ _) ?_
  rw [byteLiteral, Text.hexByte]
  simp only [List.cons_append, List.nil_append, List.forall_mem_cons]
  exact ⟨(Text.hexDigit_spec (by omega)).1, (Text.hexDigit_spec (by omega)).1, by decide, nofun⟩

/-- Two digits and an `x` are read as the byte. -/
theorem numberWord?_byteLiteral (b : UInt8) : numberWord? (byteLiteral b) = some b.toUInt32 := by
  have hlt := b.toNat_lt
  obtain ⟨-, hhi⟩ := Text.hexDigit_spec (n := b.toNat / 16) (by omega)
  obtain ⟨-, hlo⟩ := Text.hexDigit_spec (n := b.toNat % 16) (by omega)
  have hliteral : hexLiteral? (byteLiteral b) = some (Text.hexByte b) := by
    rw [hexLiteral?, byteLiteral, List.reverse_concat, Text.hexByte]
    refine (if_pos ⟨.inl rfl, by simp, by simp, ?_⟩).trans (by rw [List.reverse_reverse])
    simp [hhi, hlo]
  have hvalue : hexLiteralValue (Text.hexByte b) = b.toNat := by
    simp only [hexLiteralValue, Text.hexByte, List.foldl_cons, List.foldl_nil, hhi, hlo,
      Option.getD_some]
    omega
  rw [numberWord?, hliteral]
  dsimp only
  rw [hvalue]
  exact congrArg some (UInt32.toNat_inj.mp (by simp))

theorem number_byteLiteral (b : UInt8) :
    (Lexeme.ofWord (byteLiteral b)).number = .ok b.toUInt32 := by
  rw [Lexeme.number_ofWord, numberWord?_byteLiteral]

-- ---------------------------------------------------------------------------
-- Global ids
-- ---------------------------------------------------------------------------

namespace Gid

theorem chars_eq (gid : Gid) :
    ∃ first rest, gid.components = first :: rest ∧
      gid.chars = Text.decimal first ++ (rest.map fun n => '-' :: Text.decimal n).flatten := by
  cases gid with
  | two domain id => exact ⟨_, _, rfl, by simp [chars, components, List.intercalate]⟩
  | three domain major id => exact ⟨_, _, rfl, by simp [chars, components, List.intercalate]⟩

/-- What a listing writes for a global id is one word. -/
theorem isWord_chars (gid : Gid) : IsWord gid.chars := by
  obtain ⟨first, rest, -, hchars⟩ := gid.chars_eq
  have hdigits {n : Nat} {c : Char} (hc : c ∈ Text.decimal n) : Text.isDigit c = true :=
    Text.isDigit_of_mem_decimal hc
  rw [hchars]
  cases hfirst : Text.decimal first with
  | nil => exact absurd hfirst (Text.decimal_spec first).1
  | cons digit digits =>
    have hdigit : Text.isDigit digit = true := hdigits (hfirst ▸ List.mem_cons_self)
    refine ⟨isWordChar_of_isDigit hdigit, fun c hc => ?_⟩
    rcases List.mem_append.mp hc with hc | hc
    · exact .inl (isWordChar_of_isDigit (hdigits (hfirst ▸ List.mem_cons_of_mem _ hc)))
    · obtain ⟨part, hpart, hc⟩ := List.mem_flatten.mp hc
      obtain ⟨n, -, rfl⟩ := List.mem_map.mp hpart
      rcases List.mem_cons.mp hc with rfl | hc
      · exact .inr ⟨hdigit, rfl⟩
      · exact .inl (isWordChar_of_isDigit (hdigits hc))

/-- A global id starts with a digit, so it is a literal. -/
theorem ofWord_chars (gid : Gid) : Lexeme.ofWord gid.chars = .literal gid.text := by
  obtain ⟨first, rest, -, hchars⟩ := gid.chars_eq
  have hne := (Text.decimal_spec first).1
  have hhead : gid.chars.head? = some ((Text.decimal first).head hne) := by
    rw [hchars, List.head?_append, List.head?_eq_some_head hne, Option.some_or]
  rw [Lexeme.ofWord, hhead, Option.any_some, Text.isDigit_of_mem_decimal (List.head_mem hne)]
  rfl

end Gid

end Switchboard
