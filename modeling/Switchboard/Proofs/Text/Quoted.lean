import Mathlib.Tactic.SplitIfs
import Switchboard.Proofs.Text.Floor
import Switchboard.Text.Quoted

/-!
# Quoted text

Main results:

* `Text.isVisible_iff`: the characters that stand for themselves between quotes.
* `Text.utf8ByteSize_le_quoted`: text is not shorter between quotes.
-/

namespace Switchboard.Text

theorem areApart_hiddenRanges : AreApart Prod.fst Prod.snd hiddenRanges := by
  decide +kernel

/-- One hidden range lies below the letters of ASCII, and the others lie behind them. -/
theorem hiddenRanges_ascii :
    (0, 0x1F) ∈ hiddenRanges.toList ∧
      ∀ range ∈ hiddenRanges.toList, range = (0, 0x1F) ∨ 0x7F ≤ range.1 := by
  decide +kernel

/-- A character is visible if no hidden range holds it. -/
theorem isVisible_iff {c : Char} : isVisible c = true ↔
    ∀ range ∈ hiddenRanges.toList, range.1 ≤ c.toNat → range.2 < c.toNat := by
  unfold isVisible
  split
  · next hascii =>
    rw [decide_eq_true_iff]
    constructor
    · intro hprinted range hrange hstart
      rcases hiddenRanges_ascii.2 range hrange with rfl | hbehind
      · exact hprinted
      · omega
    · intro h
      exact h (0, 0x1F) hiddenRanges_ascii.1 (Nat.zero_le _)
  · rw [Option.all_eq_true]
    constructor
    · intro h range hrange hstart
      -- if the range holds the character, it is the one that is found
      by_contra hstop
      have hfloor := areApart_hiddenRanges.floor?_eq_some hrange hstart (Nat.le_of_not_lt hstop)
      exact hstop (of_decide_eq_true (h range hfloor))
    · intro h range hfloor
      obtain ⟨hrange, hstart⟩ := areApart_hiddenRanges.of_floor? hfloor
      exact decide_eq_true (h range hrange hstart)

theorem utf8ByteSize_ofList_cons (c : Char) (cs : List Char) :
    (String.ofList (c :: cs)).utf8ByteSize = c.utf8Size + (String.ofList cs).utf8ByteSize := by
  rw [← List.singleton_append, String.ofList_append, String.utf8ByteSize_append,
    ← String.singleton_eq_ofList, String.utf8ByteSize_singleton]

theorem length_le_utf8ByteSize (cs : List Char) : cs.length ≤ (String.ofList cs).utf8ByteSize := by
  induction cs with
  | nil => exact Nat.zero_le _
  | cons c cs ih =>
    rw [utf8ByteSize_ofList_cons, List.length_cons]
    have hsize := c.utf8Size_pos
    omega

/-- No character is shorter between quotes. -/
theorem utf8Size_le_escapeChar (quote c : Char) :
    c.utf8Size ≤ (String.ofList (escapeChar quote c)).utf8ByteSize := by
  unfold escapeChar
  split_ifs with hzero htab hreturn hnewline hbackslash hquote
  · rw [hzero]; decide
  · rw [htab]; decide
  · rw [hreturn]; decide
  · rw [hnewline]; decide
  · rw [hbackslash]; decide
  · rw [hquote, utf8ByteSize_ofList_cons, utf8ByteSize_ofList_cons]
    omega
  · rw [utf8ByteSize_ofList_cons]
    omega
  · -- a number takes at least as many bytes as there are around its digits
    refine Nat.le_trans c.utf8Size_le_four (Nat.le_trans ?_ (length_le_utf8ByteSize _))
    simp only [List.length_append, List.length_cons, List.length_nil]
    omega

/-- Text is not shorter between quotes. -/
theorem utf8ByteSize_le_quoted (s : String) : s.utf8ByteSize ≤ (quoted s).utf8ByteSize := by
  have hescaped (cs : List Char) : (String.ofList cs).utf8ByteSize ≤
      (String.ofList (cs.flatMap (escapeChar '"'))).utf8ByteSize := by
    induction cs with
    | nil => exact Nat.le_refl _
    | cons c cs ih =>
      rw [utf8ByteSize_ofList_cons, List.flatMap_cons, String.ofList_append,
        String.utf8ByteSize_append]
      exact Nat.add_le_add (utf8Size_le_escapeChar '"' c) ih
  have hall := hescaped s.toList
  rw [String.ofList_toList] at hall
  rw [quoted, quotedChars, utf8ByteSize_ofList_cons, String.ofList_append,
    String.utf8ByteSize_append]
  omega

end Switchboard.Text
