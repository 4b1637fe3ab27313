import Mathlib.Data.List.DropRight
import Mathlib.Tactic.MkIffOfInductiveProp
import Switchboard.Message
import Switchboard.Proofs.Bytes
import Switchboard.Proofs.Except

/-!
# Reading what a client says

Whatever bytes a client sends, reading them looks at no byte that is not there, and ends with a message
or with one of two faults.  A message that has been read is *normal*: its texts have lost the zero
characters at their ends, and its token is not one that means something else.  Normal messages are read
as they are written, so two of them are never written alike.

Main results:

* `ClientMessage.readAt_eq`: reading by position, where every access is checked, gives the same.
* `ClientMessage.parse_eq_error_iff`: which bodies are refused, and why.
* `ClientMessage.one_normal_form`: messages that have been read, written and read again.
-/

namespace Switchboard

-- ---------------------------------------------------------------------------
-- Fields
-- ---------------------------------------------------------------------------

/-- Text without zero characters at its end. -/
def IsUnpadded (s : String) : Prop :=
  s.toList.getLast? ≠ some '\x00'

theorem isUnpadded_iff {s : String} : IsUnpadded s ↔ s.toList.rdropWhile (· == '\x00') = s.toList := by
  rw [List.rdropWhile_eq_self_iff, IsUnpadded]
  constructor
  · intro h hne hzero
    rw [List.getLast?_eq_some_getLast hne] at h
    exact h (congrArg some (beq_iff_eq.mp hzero))
  · intro h hzero
    have hne : s.toList ≠ [] := by
      intro hnil
      rw [hnil] at hzero
      cases hzero
    rw [List.getLast?_eq_some_getLast hne] at hzero
    exact h hne (beq_iff_eq.mpr (Option.some.inj hzero))

theorem textField_eq_error_iff {data : Bytes} {error : WireError} :
    textField data = .error error ↔ Text.utf8? data = none ∧ error = .badText := by
  unfold textField
  cases Text.utf8? data with
  | none => simp [eq_comm]
  | some s => simp

theorem isUnpadded_of_textField {data : Bytes} {s : String} (h : textField data = .ok s) :
    IsUnpadded s := by
  unfold textField at h
  split at h
  · next sent _ =>
    cases h
    rw [isUnpadded_iff, String.toList_ofList]
    exact List.rdropWhile_idempotent _ sent.toList
  · cases h

/-- Text without zeros at its end is read as it is. -/
theorem textField_utf8 {s : String} (h : IsUnpadded s) : textField (Text.utf8 s) = .ok s := by
  have hkept : (s.toList.reverse.dropWhile (· == '\x00')).reverse = s.toList := isUnpadded_iff.mp h
  rw [textField, Text.utf8?_utf8]
  dsimp only
  rw [hkept, String.ofList_toList]

/-- A body is too short for a transfer id, or the bytes behind its first four follow the id. -/
theorem transferId_cases (data : Bytes) :
    (data.length < 4 ∧ transferId data = .error (.shortPayload 4 data.length)) ∨
      (4 ≤ data.length ∧ ∃ id, transferId data = .ok (id, data.drop 4)) := by
  match data with
  | [] | [_] | [_, _] | [_, _, _] => exact .inl ⟨by simp, rfl⟩
  | _ :: _ :: _ :: _ :: _ => exact .inr ⟨by simp, _, rfl⟩

theorem transferId_eq_error_iff {data : Bytes} {error : WireError} :
    transferId data = .error error ↔ data.length < 4 ∧ error = .shortPayload 4 data.length := by
  obtain ⟨hlen, hid⟩ | ⟨hlen, id, hid⟩ := transferId_cases data
  · rw [hid]
    simp [hlen, eq_comm]
  · rw [hid]
    simp [Nat.not_lt.mpr hlen]

theorem transferId_ofUInt32_append (id : UInt32) (rest : Bytes) :
    transferId (Bytes.ofUInt32 id ++ rest) = .ok (id, rest) := by
  rw [transferId, Bytes.uint32?_ofUInt32_append]

namespace ClientMessage

-- ---------------------------------------------------------------------------
-- What the tokens mean
-- ---------------------------------------------------------------------------

/-- The messages that say no more than which transfer they are about, by token. -/
def bare : List (Token × (UInt32 → ClientMessage)) :=
  [(.downloadAck, downloadAck), (.downloadConfirm, downloadConfirm), (.cancel, cancel),
    (.uploadEnd, uploadEnd)]

/-- The tokens that mean something to the server. -/
def tokens : List Token :=
  [.signOn, .downloadAck, .downloadConfirm, .cancel, .uploadPicked, .uploadStats, .uploadData,
    .uploadEnd]

theorem bare_cases {token : Token} {make : UInt32 → ClientMessage} (h : (token, make) ∈ bare) :
    (token = .downloadAck ∧ make = downloadAck) ∨ (token = .downloadConfirm ∧ make = downloadConfirm) ∨
      (token = .cancel ∧ make = cancel) ∨ (token = .uploadEnd ∧ make = uploadEnd) := by
  simpa [bare] using h

theorem ne_of_not_mem_tokens {token : Token} (h : token ∉ tokens) :
    token ≠ .signOn ∧ token ≠ .downloadAck ∧ token ≠ .downloadConfirm ∧ token ≠ .cancel ∧
      token ≠ .uploadPicked ∧ token ≠ .uploadStats ∧ token ≠ .uploadData ∧ token ≠ .uploadEnd := by
  simpa [tokens] using h

theorem parse_signOn (data : Bytes) : parse .signOn data = (textField data).map signOn := rfl

theorem parse_bare {token : Token} {make : UInt32 → ClientMessage} (h : (token, make) ∈ bare)
    (data : Bytes) : parse token data = (transferId data).map fun found => make found.1 := by
  obtain ⟨rfl, rfl⟩ | ⟨rfl, rfl⟩ | ⟨rfl, rfl⟩ | ⟨rfl, rfl⟩ := bare_cases h <;> rfl

theorem parse_uploadPicked (data : Bytes) :
    parse .uploadPicked data = (transferId data).bind fun found =>
      (textField found.2).map (uploadPicked found.1) := rfl

theorem parse_uploadStats (data : Bytes) :
    parse .uploadStats data = (transferId data).bind fun found =>
      match Bytes.uint32? found.2 with
      | some (size, _) => .ok (uploadStats found.1 size)
      | none => .error (.shortPayload 8 data.length) := rfl

theorem parse_uploadData (data : Bytes) :
    parse .uploadData data = (transferId data).map fun found => uploadData found.1 found.2 := rfl

/-- A token that means nothing takes all bytes. -/
theorem parse_other {token : Token} (h : token ∉ tokens) (data : Bytes) :
    parse token data = .ok (other token data) := by
  obtain ⟨h₁, h₂, h₃, h₄, h₅, h₆, h₇, h₈⟩ := ne_of_not_mem_tokens h
  simp only [parse, if_neg h₁, if_neg h₂, if_neg h₃, if_neg h₄, if_neg h₅, if_neg h₆, if_neg h₇,
    if_neg h₈]
  rfl

/-- Every token is one of those that mean something, or means nothing. -/
theorem token_cases (token : Token) :
    token = .signOn ∨ (∃ make, (token, make) ∈ bare) ∨ token = .uploadPicked ∨
      token = .uploadStats ∨ token = .uploadData ∨ token ∉ tokens := by
  by_cases h : token ∈ tokens
  · simp only [tokens, List.mem_cons, List.not_mem_nil, or_false] at h
    rcases h with h | h | h | h | h | h | h | h
    · exact .inl h
    · exact .inr (.inl ⟨downloadAck, by simp [bare, h]⟩)
    · exact .inr (.inl ⟨downloadConfirm, by simp [bare, h]⟩)
    · exact .inr (.inl ⟨cancel, by simp [bare, h]⟩)
    · exact .inr (.inr (.inl h))
    · exact .inr (.inr (.inr (.inl h)))
    · exact .inr (.inr (.inr (.inr (.inl h))))
    · exact .inr (.inl ⟨uploadEnd, by simp [bare, h]⟩)
  · exact .inr (.inr (.inr (.inr (.inr h))))

-- ---------------------------------------------------------------------------
-- Bodies that are refused
-- ---------------------------------------------------------------------------

/-- How many bytes stand before the text or the content of a message. -/
def fixedLength (token : Token) : Nat :=
  if token = .uploadStats then 8 else if token ∈ tokens ∧ token ≠ .signOn then 4 else 0

/-- The messages that end in a text. -/
def EndsInText (token : Token) : Prop :=
  token = .signOn ∨ token = .uploadPicked

instance (token : Token) : Decidable (EndsInText token) :=
  inferInstanceAs (Decidable (_ ∨ _))

/-- Why a body is refused under a token. -/
@[mk_iff]
inductive Refused (token : Token) (data : Bytes) : WireError → Prop where
  /-- The body ends inside the fixed part, whose first four bytes are asked for first. -/
  | short : data.length < fixedLength token →
      Refused token data
        (.shortPayload (if data.length < 4 then 4 else fixedLength token) data.length)
  /-- What follows the fixed part is no text. -/
  | text : fixedLength token ≤ data.length → EndsInText token →
      Text.utf8? (data.drop (fixedLength token)) = none → Refused token data .badText

theorem fixedLength_of_bare {token : Token} {make : UInt32 → ClientMessage}
    (h : (token, make) ∈ bare) : fixedLength token = 4 ∧ ¬EndsInText token := by
  obtain ⟨rfl, rfl⟩ | ⟨rfl, rfl⟩ | ⟨rfl, rfl⟩ | ⟨rfl, rfl⟩ := bare_cases h <;>
    exact ⟨rfl, by decide⟩

theorem fixedLength_of_other {token : Token} (h : token ∉ tokens) :
    fixedLength token = 0 ∧ ¬EndsInText token := by
  constructor
  · obtain ⟨-, -, -, -, -, hstats, -, -⟩ := ne_of_not_mem_tokens h
    rw [fixedLength, if_neg hstats, if_neg fun hmeans => h hmeans.1]
  · rintro (rfl | rfl) <;> exact h (by decide)

/-- A body is refused for the reasons there are, and for no other. -/
theorem parse_eq_error_iff {token : Token} {data : Bytes} {error : WireError} :
    parse token data = .error error ↔ Refused token data error := by
  rw [refused_iff]
  rcases token_cases token with rfl | ⟨make, hmake⟩ | rfl | rfl | rfl | hother
  · have hfixed : fixedLength .signOn = 0 := rfl
    rw [parse_signOn, map_eq_error_iff, textField_eq_error_iff, hfixed]
    simp [EndsInText]
  · obtain ⟨hfixed, hends⟩ := fixedLength_of_bare hmake
    rw [parse_bare hmake, map_eq_error_iff, transferId_eq_error_iff, hfixed]
    simp [hends]
  · have hfixed : fixedLength .uploadPicked = 4 := rfl
    rw [parse_uploadPicked, hfixed]
    obtain ⟨hlen, hid⟩ | ⟨hlen, id, hid⟩ := transferId_cases data
    · rw [hid]
      have hnot : ¬4 ≤ data.length := by omega
      simp [Except.bind, hlen, hnot, eq_comm]
    · rw [hid]
      show (textField (data.drop 4)).map _ = _ ↔ _
      rw [map_eq_error_iff, textField_eq_error_iff]
      simp [EndsInText, hlen, Nat.not_lt.mpr hlen]
  · have hfixed : fixedLength .uploadStats = 8 := rfl
    have hends : ¬EndsInText .uploadStats := by decide
    rw [parse_uploadStats, hfixed]
    obtain ⟨hlen, hid⟩ | ⟨hlen, id, hid⟩ := transferId_cases data
    · rw [hid]
      have hshort : data.length < 8 := by omega
      simp [Except.bind, hlen, hshort, hends, eq_comm]
    · rw [hid]
      show (match Bytes.uint32? (data.drop 4) with
        | some (size, _) => .ok (uploadStats id size)
        | none => .error (.shortPayload 8 data.length)) = Except.error error ↔ _
      cases hsize : Bytes.uint32? (data.drop 4) with
      | none =>
        rw [Bytes.uint32?_eq_none_iff, List.length_drop] at hsize
        have hshort : data.length < 8 := by omega
        simp [Nat.not_lt.mpr hlen, hshort, hends, eq_comm]
      | some found =>
        have hlong : ¬data.length < 8 := by
          intro hshort
          rw [Bytes.uint32?_eq_none_iff.mpr (by rw [List.length_drop]; omega)] at hsize
          cases hsize
        simp [hlong, hends]
  · have hfixed : fixedLength .uploadData = 4 := rfl
    have hends : ¬EndsInText .uploadData := by decide
    rw [parse_uploadData, map_eq_error_iff, transferId_eq_error_iff, hfixed]
    simp [hends]
  · obtain ⟨hfixed, hends⟩ := fixedLength_of_other hother
    rw [parse_other hother, hfixed]
    simp [hends]

-- ---------------------------------------------------------------------------
-- Reading by position
-- ---------------------------------------------------------------------------

/-- A reading that checks every access: `none` is an access to bytes that are not there. -/
abbrev Checked := ExceptT WireError Option

/-- A step that accesses nothing. -/
def sure {α : Type} (x : Except WireError α) : Checked α :=
  ExceptT.mk (some x)

/-- The byte at a position. -/
def byteAt (data : Bytes) (i : Nat) : Checked UInt8 :=
  ExceptT.lift data[i]?

/-- The bytes from a position up to another, if they are there. -/
def slice? (data : Bytes) (start stop : Nat) : Option Bytes :=
  if start ≤ stop ∧ stop ≤ data.length then some ((data.take stop).drop start) else none

/-- All bytes from a position. -/
def bytesFrom (data : Bytes) (start : Nat) : Checked Bytes :=
  ExceptT.lift (slice? data start data.length)

/-- The number in the four bytes from a position; a body that ends before their end is refused. -/
def numberAt (data : Bytes) (start : Nat) : Checked UInt32 :=
  match slice? data start (start + 4) with
  | some four => do
    return Bytes.uint32 (← byteAt four 0) (← byteAt four 1) (← byteAt four 2) (← byteAt four 3)
  | none => throw (.shortPayload (start + 4) data.length)

/-- Reads a message by position. -/
def readAt (token : Token) (data : Bytes) : Checked ClientMessage := do
  if token = .signOn then return signOn (← sure (textField data))
  else if token = .downloadAck then return downloadAck (← numberAt data 0)
  else if token = .downloadConfirm then return downloadConfirm (← numberAt data 0)
  else if token = .cancel then return cancel (← numberAt data 0)
  else if token = .uploadPicked then
    let id ← numberAt data 0
    return uploadPicked id (← sure (textField (← bytesFrom data 4)))
  else if token = .uploadStats then return uploadStats (← numberAt data 0) (← numberAt data 4)
  else if token = .uploadData then return uploadData (← numberAt data 0) (← bytesFrom data 4)
  else if token = .uploadEnd then return uploadEnd (← numberAt data 0)
  else return other token data

theorem bytesFrom_eq {data : Bytes} {start : Nat} (h : start ≤ data.length) :
    bytesFrom data start = sure (.ok (data.drop start)) := by
  rw [bytesFrom, slice?, if_pos ⟨h, Nat.le_refl _⟩, List.take_length]
  rfl

/-- The four bytes that a number needs are all there once they have been cut out. -/
theorem numberAt_eq (data : Bytes) (start : Nat) :
    numberAt data start = sure (match Bytes.uint32? (data.drop start) with
      | some (n, _) => .ok n
      | none => .error (.shortPayload (start + 4) data.length)) := by
  by_cases h : start + 4 ≤ data.length
  · have hfour : (data.take (start + 4)).drop start = (data.drop start).take 4 := by
      rw [List.drop_take, Nat.add_sub_cancel_left]
    rw [numberAt, slice?, if_pos ⟨Nat.le_add_right .., h⟩, hfour]
    have hlen : 4 ≤ (data.drop start).length := by
      rw [List.length_drop]
      omega
    match data.drop start, hlen with
    | _ :: _ :: _ :: _ :: _, _ => rfl
  · have hnone : Bytes.uint32? (data.drop start) = none := by
      rw [Bytes.uint32?_eq_none_iff, List.length_drop]
      omega
    rw [numberAt, slice?, if_neg fun hin => h hin.2, hnone]
    rfl

theorem numberAt_zero (data : Bytes) :
    numberAt data 0 = sure ((transferId data).map (·.1)) := by
  rw [numberAt_eq, List.drop_zero, transferId]
  cases Bytes.uint32? data <;> rfl

theorem readAt_bare {token : Token} {make : UInt32 → ClientMessage} (h : (token, make) ∈ bare)
    (data : Bytes) : readAt token data = do return make (← numberAt data 0) := by
  obtain ⟨rfl, rfl⟩ | ⟨rfl, rfl⟩ | ⟨rfl, rfl⟩ | ⟨rfl, rfl⟩ := bare_cases h <;> rfl

theorem readAt_other {token : Token} (h : token ∉ tokens) (data : Bytes) :
    readAt token data = sure (.ok (other token data)) := by
  obtain ⟨h₁, h₂, h₃, h₄, h₅, h₆, h₇, h₈⟩ := ne_of_not_mem_tokens h
  rw [readAt, if_neg h₁, if_neg h₂, if_neg h₃, if_neg h₄, if_neg h₅, if_neg h₆, if_neg h₇, if_neg h₈]
  rfl

/-- Reading by position never leaves the bytes, and gives what reading gives. -/
theorem readAt_eq (token : Token) (data : Bytes) : readAt token data = sure (parse token data) := by
  rcases token_cases token with rfl | ⟨make, hmake⟩ | rfl | rfl | rfl | hother
  · rw [parse_signOn]
    show (do return signOn (← sure (textField data))) = _
    cases textField data <;> rfl
  · rw [parse_bare hmake, readAt_bare hmake, numberAt_zero]
    cases transferId data <;> rfl
  · rw [parse_uploadPicked]
    show (do return uploadPicked (← numberAt data 0) (← sure (textField (← bytesFrom data 4)))) = _
    rw [numberAt_zero]
    obtain ⟨hlen, hid⟩ | ⟨hlen, id, hid⟩ := transferId_cases data
    · rw [hid]
      rfl
    · rw [hid, bytesFrom_eq hlen]
      show (do return uploadPicked id (← sure (textField (data.drop 4)))) =
        sure ((textField (data.drop 4)).map (uploadPicked id))
      cases textField (data.drop 4) <;> rfl
  · rw [parse_uploadStats]
    show (do return uploadStats (← numberAt data 0) (← numberAt data 4)) = _
    rw [numberAt_zero, numberAt_eq]
    obtain ⟨hlen, hid⟩ | ⟨hlen, id, hid⟩ := transferId_cases data
    · rw [hid]
      rfl
    · rw [hid]
      dsimp only [Except.bind]
      cases Bytes.uint32? (data.drop 4) <;> rfl
  · rw [parse_uploadData]
    show (do return uploadData (← numberAt data 0) (← bytesFrom data 4)) = _
    rw [numberAt_zero]
    obtain ⟨hlen, hid⟩ | ⟨hlen, id, hid⟩ := transferId_cases data
    · rw [hid]
      rfl
    · rw [hid, bytesFrom_eq hlen]
      rfl
  · rw [parse_other hother, readAt_other hother]

-- ---------------------------------------------------------------------------
-- Normal messages
-- ---------------------------------------------------------------------------

/-- A message as reading makes it: its text has no zeros at its end, and its token, if it is kept, means
nothing. -/
def IsNormal : ClientMessage → Prop
  | signOn screenName => IsUnpadded screenName
  | uploadPicked _ filename => IsUnpadded filename
  | other token _ => token ∉ tokens
  | _ => True

theorem isNormal_of_parse {token : Token} {data : Bytes} {m : ClientMessage}
    (h : parse token data = .ok m) : m.IsNormal := by
  rcases token_cases token with rfl | ⟨make, hmake⟩ | rfl | rfl | rfl | hother
  · rw [parse_signOn, map_eq_ok_iff] at h
    obtain ⟨screenName, htext, rfl⟩ := h
    exact isUnpadded_of_textField htext
  · rw [parse_bare hmake, map_eq_ok_iff] at h
    obtain ⟨found, -, rfl⟩ := h
    obtain ⟨-, rfl⟩ | ⟨-, rfl⟩ | ⟨-, rfl⟩ | ⟨-, rfl⟩ := bare_cases hmake <;> trivial
  · rw [parse_uploadPicked] at h
    obtain ⟨found, -, h⟩ := bind_eq_ok_iff.mp h
    obtain ⟨filename, htext, rfl⟩ := map_eq_ok_iff.mp h
    exact isUnpadded_of_textField htext
  · rw [parse_uploadStats] at h
    obtain ⟨found, -, h⟩ := bind_eq_ok_iff.mp h
    split at h
    · cases h
      trivial
    · cases h
  · rw [parse_uploadData, map_eq_ok_iff] at h
    obtain ⟨found, -, rfl⟩ := h
    trivial
  · rw [parse_other hother] at h
    cases h
    exact hother

/-- A normal message is read as it is written. -/
theorem parse_encode {m : ClientMessage} (h : m.IsNormal) :
    parse m.encode.1 m.encode.2 = .ok m := by
  -- a message that is no more than its transfer id
  have hbare {token : Token} {make : UInt32 → ClientMessage} (hmake : (token, make) ∈ bare)
      (id : UInt32) : parse token (Bytes.ofUInt32 id) = .ok (make id) := by
    rw [parse_bare hmake, ← List.append_nil (Bytes.ofUInt32 id), transferId_ofUInt32_append]
    rfl
  cases m with
  | signOn screenName =>
    show parse .signOn (Text.utf8 screenName) = _
    rw [parse_signOn, textField_utf8 h]
    rfl
  | downloadAck id => exact hbare (by simp [bare, encode]) id
  | downloadConfirm id => exact hbare (by simp [bare, encode]) id
  | cancel id => exact hbare (by simp [bare, encode]) id
  | uploadPicked id filename =>
    show parse .uploadPicked (Bytes.ofUInt32 id ++ Text.utf8 filename) = _
    rw [parse_uploadPicked, transferId_ofUInt32_append]
    show (textField (Text.utf8 filename)).map _ = _
    rw [textField_utf8 h]
    rfl
  | uploadStats id size =>
    show parse .uploadStats (Bytes.ofUInt32 id ++ Bytes.ofUInt32 size) = _
    have hsize : Bytes.uint32? (Bytes.ofUInt32 size) = some (size, []) := by
      rw [← List.append_nil (Bytes.ofUInt32 size), Bytes.uint32?_ofUInt32_append]
    rw [parse_uploadStats, transferId_ofUInt32_append]
    simp only [Except.bind, hsize]
  | uploadData id data =>
    show parse .uploadData (Bytes.ofUInt32 id ++ data) = _
    rw [parse_uploadData, transferId_ofUInt32_append]
    rfl
  | uploadEnd id => exact hbare (by simp [bare, encode]) id
  | other token data => exact parse_other h data

/-- Reading makes normal messages, and makes every one of them. -/
theorem exists_parse_iff {m : ClientMessage} :
    (∃ token data, parse token data = .ok m) ↔ m.IsNormal := by
  constructor
  · rintro ⟨token, data, h⟩
    exact isNormal_of_parse h
  · intro h
    exact ⟨m.encode.1, m.encode.2, parse_encode h⟩

/-- Different normal messages are written differently. -/
theorem eq_of_encode_eq {m m' : ClientMessage} (hm : m.IsNormal) (hm' : m'.IsNormal)
    (heq : m.encode = m'.encode) : m = m' := by
  have hread := parse_encode hm
  rw [heq, parse_encode hm'] at hread
  cases hread
  rfl

/-- Whatever the body, reading it accesses no byte outside, and it is refused only when it ends in the
fixed part or when its text is none.  A message that has been read is read again from what is written for
it; the normal messages are those that can be read, and two of them are written alike only if they are
the same. -/
theorem one_normal_form (token : Token) (data : Bytes) :
    readAt token data = sure (parse token data) ∧
    (∀ error, parse token data = .error error ↔ Refused token data error) ∧
    (∀ m, parse token data = .ok m → parse m.encode.1 m.encode.2 = .ok m) ∧
    (∀ m : ClientMessage, (∃ token' data', parse token' data' = .ok m) ↔ m.IsNormal) ∧
    (∀ m token' data' m', parse token data = .ok m → parse token' data' = .ok m' →
      m.encode = m'.encode → m = m') := by
  refine ⟨readAt_eq token data, fun _ => parse_eq_error_iff, ?_, fun _ => exists_parse_iff, ?_⟩
  · intro m h
    exact parse_encode (isNormal_of_parse h)
  · intro m token' data' m' h h' heq
    exact eq_of_encode_eq (isNormal_of_parse h) (isNormal_of_parse h') heq

/-- A file name padded to a whole number of words is read without the padding. -/
theorem one_normal_form_padded :
    parse .uploadPicked (Bytes.ofUInt32 2 ++ Text.utf8 "a.gif" ++ [0, 0, 0]) =
        .ok (uploadPicked 2 "a.gif") ∧
      parse .uploadPicked (Bytes.ofUInt32 2 ++ Text.utf8 "a.gif") = .ok (uploadPicked 2 "a.gif") := by
  have hread : parse .uploadPicked (Bytes.ofUInt32 2 ++ Text.utf8 "a.gif" ++ [0, 0, 0]) =
      .ok (uploadPicked 2 "a.gif") := by decide
  exact ⟨hread, (one_normal_form _ _).2.2.1 _ hread⟩

end ClientMessage

end Switchboard
