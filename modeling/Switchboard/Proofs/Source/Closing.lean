import Mathlib.Algebra.Ring.Parity
import Mathlib.Data.List.DropRight
import Switchboard.Proofs.Source.Places

/-!
# Ends of quoted text

Quoted text ends at the first quote behind its opening quote that is not escaped.  A backslash escapes what
follows it, so that of several in a row each second one is escaped itself: what stands behind them is
escaped if their number is odd.  A source that ends before such a quote is refused, on the line of the text
that is open, with one exception: where a backslash that is not escaped is the last character, the text is
taken as if it ended there.

Main results:

* `Quotes.staysOpen`, `Quotes.not_escapes`, `exists_quotes_of_staysOpen`: what stands between quotes, by its
  quotes and backslashes.
* `Piece.Places.exists_split`: where in a text a lexeme stands.
* `Lexeme.texts_closed`: where quoted text ends, and what becomes of a source in which it is open.
* `Lexeme.open_text_accepted`: text that is open and not refused, and text that is refused on a line before
  its own.
-/

namespace Switchboard

-- ---------------------------------------------------------------------------
-- Escaped characters
-- ---------------------------------------------------------------------------

/-- Whether a character behind the given ones, within quoted text, is escaped: the backslashes directly in
front of it are odd in number. -/
def Escapes (chars : List Char) : Prop :=
  Odd (chars.rtakeWhile (· = '\\')).length

instance : DecidablePred Escapes := fun _ => inferInstanceAs (Decidable (Odd _))

/-- What stands behind an opening quote does not close it: each quote in it is escaped. -/
def StaysOpen (chars : List Char) : Prop :=
  ∀ i, ∀ h : i < chars.length, chars[i] = '"' → Escapes (chars.take i)

instance : DecidablePred StaysOpen := fun chars =>
  inferInstanceAs (Decidable (∀ i, ∀ h : i < chars.length, chars[i] = '"' → Escapes (chars.take i)))

/-- Only a backslash escapes, and only if it is not escaped. -/
theorem escapes_concat (chars : List Char) (c : Char) :
    Escapes (chars ++ [c]) ↔ c = '\\' ∧ ¬Escapes chars := by
  unfold Escapes
  rw [List.rtakeWhile_concat]
  by_cases hslash : c = '\\'
  · rw [if_pos (decide_eq_true hslash), List.length_append, List.length_singleton, Nat.odd_add_one]
    exact (and_iff_right hslash).symm
  · rw [if_neg (mt of_decide_eq_true hslash), List.length_nil]
    exact iff_of_false (by decide) fun h => hslash h.1

/-- Behind what does not escape the next character, escapes are as they are without it. -/
theorem escapes_append {front : List Char} (h : ¬Escapes front) (chars : List Char) :
    Escapes (front ++ chars) ↔ Escapes chars := by
  induction chars using List.reverseRecOn with
  | nil =>
    rw [List.append_nil]
    exact iff_of_false h (by decide)
  | append_singleton chars c ih => rw [← List.append_assoc, escapes_concat, escapes_concat, ih]

theorem not_escapes_singleton {c : Char} (h : c ≠ '\\') : ¬Escapes [c] := fun hesc =>
  h ((escapes_concat [] c).mp hesc).1

/-- A backslash and the character that it escapes. -/
theorem not_escapes_pair (c : Char) : ¬Escapes ['\\', c] := fun hesc =>
  ((escapes_concat ['\\'] c).mp hesc).2 (by decide)

namespace Quotes

variable {raw content : List Char}

/-- What stands between quotes does not escape the quote behind it. -/
theorem not_escapes (h : Quotes raw content) : ¬Escapes raw := by
  induction h with
  | nil => decide
  | plain quote slash rest ih =>
    rw [← List.singleton_append, escapes_append (not_escapes_singleton slash)]
    exact ih
  | @escape c raw content rest ih =>
    show ¬Escapes (['\\', c] ++ raw)
    rw [escapes_append (not_escapes_pair c)]
    exact ih

/-- A quote between quotes is escaped. -/
theorem staysOpen (h : Quotes raw content) : StaysOpen raw := by
  induction h with
  | nil => decide
  | plain quote slash rest ih =>
    rintro (_ | i) hi hquote
    · exact absurd hquote quote
    · exact (escapes_append (not_escapes_singleton slash) _).mpr
        (ih i (Nat.lt_of_succ_lt_succ hi) hquote)
  | @escape c raw content rest ih =>
    rintro (_ | _ | i) hi hquote
    · cases hquote
    · show Escapes ['\\']
      decide
    · exact (escapes_append (not_escapes_pair c) _).mpr
        (ih i (Nat.lt_of_succ_lt_succ (Nat.lt_of_succ_lt_succ hi)) hquote)

end Quotes

/-- A quote that is not escaped closes the text. -/
theorem StaysOpen.escapes {before after : List Char} (h : StaysOpen (before ++ '"' :: after)) :
    Escapes before := by
  have hquote := h before.length (by simp) (by simp)
  rwa [List.take_left] at hquote

/-- Text that is open to the end stands for something, up to a backslash at its end that escapes nothing. -/
theorem exists_quotes_of_staysOpen {chars : List Char} (h : StaysOpen chars) :
    ∃ raw content, Quotes raw content ∧
      ((¬Escapes chars ∧ chars = raw) ∨ (Escapes chars ∧ chars = raw ++ ['\\'])) := by
  obtain ⟨raw, content, left, rfl, hquotes, hleft⟩ := Piece.exists_quotes chars
  refine ⟨raw, content, hquotes, ?_⟩
  rcases hleft with rfl | rfl | ⟨rest, rfl⟩
  · rw [List.append_nil]
    exact .inl ⟨hquotes.not_escapes, rfl⟩
  · exact .inr ⟨(escapes_concat raw '\\').mpr ⟨rfl, hquotes.not_escapes⟩, rfl⟩
  · exact absurd h.escapes hquotes.not_escapes

-- ---------------------------------------------------------------------------
-- Where lexemes stand
-- ---------------------------------------------------------------------------

namespace Piece

variable {pieces front back : List Piece} {p : Piece} {rest : List Char} {lexemes : List Placed}

theorem AreCut.of_concat (h : AreCut (pieces ++ [p]) rest) :
    AreCut pieces (p.chars ++ rest) ∧ p.Reads rest := by
  generalize hall : pieces ++ [p] = all at h
  cases h with
  | nil => exact absurd hall (List.append_ne_nil_of_right_ne_nil _ (List.cons_ne_nil _ _))
  | snoc before last =>
    obtain ⟨rfl, heq⟩ := List.append_inj' hall rfl
    cases heq
    exact ⟨before, last⟩

/-- The pieces at the front are cut from all that stands behind them. -/
theorem AreCut.of_append (h : AreCut (front ++ back) rest) : AreCut front (text back ++ rest) := by
  induction back using List.reverseRecOn generalizing rest with
  | nil => rwa [List.append_nil] at h
  | append_singleton back p ih =>
    rw [← List.append_assoc] at h
    rw [text_append, text_singleton, List.append_assoc]
    exact ih h.of_concat.1

/-- No piece is empty. -/
theorem AreCut.eq_nil_of_text (h : AreCut (front ++ back) rest) (hnone : text back = []) :
    back = [] := by
  cases back with
  | nil => rfl
  | cons p back =>
    rw [List.append_cons] at h
    exact absurd (List.append_eq_nil_iff.mp hnone).1 h.of_append.of_concat.2.chars_ne_nil

theorem Places.of_concat (h : Places (pieces ++ [p]) lexemes) :
    ∃ before line, lexemes = before ++ p.placed line ∧ Places pieces before ∧ IsLine line pieces := by
  generalize hall : pieces ++ [p] = all at h
  cases h with
  | nil => exact absurd hall (List.append_ne_nil_of_right_ne_nil _ (List.cons_ne_nil _ _))
  | snoc before isLine last =>
    obtain ⟨rfl, heq⟩ := List.append_inj' hall rfl
    cases heq
    exact ⟨_, _, rfl, before, isLine⟩

/-- Each lexeme is that of a piece, behind the pieces of the lexemes before it. -/
theorem Places.exists_split (h : Places pieces lexemes) {before after : List Placed} {x : Placed}
    (heq : lexemes = before ++ x :: after) :
    ∃ front chars back, pieces = front ++ .lexeme x.lexeme chars :: back ∧ Places front before ∧
      IsLine x.line front ∧ (back = [] → after = []) := by
  induction h generalizing after with
  | nil => exact absurd heq.symm (List.append_ne_nil_of_right_ne_nil _ (List.cons_ne_nil _ _))
  | @snoc pieces lexemes line hplaces hline p ih =>
    -- the lexeme belongs to the last piece, or stands further to the front
    have hfront {after' : List Placed} (heq : lexemes = before ++ x :: after') :
        ∃ front chars back, pieces ++ [p] = front ++ .lexeme x.lexeme chars :: back ∧
          Places front before ∧ IsLine x.line front ∧ (back = [] → after = []) := by
      obtain ⟨front, chars, back, rfl, hbefore, hx, -⟩ := ih heq
      refine ⟨front, chars, back ++ [p], ?_, hbefore, hx, fun hnil => ?_⟩
      · rw [List.append_assoc, List.cons_append]
      · exact absurd hnil (List.append_ne_nil_of_right_ne_nil _ (List.cons_ne_nil _ _))
    cases p with
    | blank | comment => exact hfront ((List.append_nil lexemes).symm.trans heq)
    | lexeme found chars =>
      rcases List.eq_nil_or_concat' after with rfl | ⟨after', last, rfl⟩
      · obtain ⟨rfl, hlast⟩ := List.append_inj' heq rfl
        cases hlast
        exact ⟨pieces, chars, [], rfl, hplaces, hline, fun _ => rfl⟩
      · rw [← List.cons_append, ← List.append_assoc] at heq
        exact hfront (List.append_inj' heq rfl).1

/-- The piece of quoted text stands between quotes, or between a quote and a backslash at the end of the
source. -/
theorem Reads.of_text {content : String} {chars : List Char}
    (h : Reads (.lexeme (.text content) chars) rest) :
    ∃ raw, Quotes raw content.toList ∧
      (chars = '"' :: (raw ++ ['"']) ∨ (chars = '"' :: (raw ++ ['\\']) ∧ rest = [])) := by
  generalize hp : Piece.lexeme (.text content) chars = p at h
  cases h with
  | blank | comment | opening | closing | comma => cases hp
  | @word word =>
    have hlexeme := (Piece.lexeme.inj hp).1
    unfold Lexeme.ofWord at hlexeme
    split at hlexeme <;> cases hlexeme
  | @quoted raw content' _ hquotes =>
    cases hp
    rw [← String.toList_ofList (l := content')] at hquotes
    exact ⟨raw, hquotes, .inl rfl⟩
  | @cutOff raw content' hquotes =>
    cases hp
    rw [← String.toList_ofList (l := content')] at hquotes
    exact ⟨raw, hquotes, .inr ⟨rfl, rfl⟩⟩

-- ---------------------------------------------------------------------------
-- Quoted text in a source
-- ---------------------------------------------------------------------------

/-- Behind the given pieces of a source stands an opening quote, and behind that the given tail. -/
structure Opens (source : List Char) (pieces : List Piece) (tail : List Char) : Prop where
  source_eq : source = text pieces ++ '"' :: tail
  cut : AreCut pieces ('"' :: tail)

/-- Text that is open, and does not end with a backslash that escapes nothing, is refused. -/
theorem Opens.scan_eq_error {source tail : List Char} (h : Opens source pieces tail)
    (hopen : StaysOpen tail) (hescapes : ¬Escapes tail) :
    ∃ line, Lexeme.scan source = .error (.format (.source line .unterminatedText)) ∧
      IsLine line pieces := by
  obtain ⟨raw, content, hquotes, ⟨-, rfl⟩ | ⟨hescapes', -⟩⟩ := exists_quotes_of_staysOpen hopen
  · rw [h.source_eq]
    exact h.cut.scan_eq_error (.unclosed hquotes)
  · exact absurd hescapes' hescapes

/-- Text that is open, and ends with a backslash that escapes nothing, is taken without it. -/
theorem Opens.scan_eq_ok {source tail : List Char} (h : Opens source pieces tail)
    (hopen : StaysOpen tail) (hescapes : Escapes tail) :
    ∃ raw content before line, tail = raw ++ ['\\'] ∧ Quotes raw content ∧
      Lexeme.scan source = .ok (before ++ [⟨.text (String.ofList content), line⟩]) ∧
      Places pieces before ∧ IsLine line pieces := by
  obtain ⟨raw, content, hquotes, ⟨hescapes', -⟩ | ⟨-, rfl⟩⟩ := exists_quotes_of_staysOpen hopen
  · exact absurd hescapes hescapes'
  · have hcut :
        AreCut (pieces ++ [.lexeme (.text (String.ofList content)) ('"' :: (raw ++ ['\\']))]) [] := by
      refine .snoc ?_ (.cutOff hquotes)
      rw [List.append_nil]
      exact h.cut
    obtain ⟨lexemes, hscan, hplaces⟩ := hcut.scan_eq_ok
    obtain ⟨before, line, rfl, hbefore, hline⟩ := hplaces.of_concat
    refine ⟨raw, content, before, line, rfl, hquotes, ?_, hbefore, hline⟩
    rw [text_append, text_singleton] at hscan
    rw [h.source_eq]
    exact hscan

/-- Quoted text that is a lexeme stands behind an opening quote, up to a quote or a backslash at the end of
the source. -/
theorem exists_opens {source : List Char} {before after : List Placed} {content : String} {line : Nat}
    (h : Lexeme.scan source = .ok (before ++ ⟨.text content, line⟩ :: after)) :
    ∃ pieces raw tail, Opens source pieces (raw ++ tail) ∧ Places pieces before ∧ IsLine line pieces ∧
      Quotes raw content.toList ∧
      ((∃ rest, tail = '"' :: rest ∧
          AreCut (pieces ++ [.lexeme (.text content) ('"' :: (raw ++ ['"']))]) rest) ∨
        (tail = ['\\'] ∧ after = [])) := by
  obtain ⟨pieces, rest, rfl, hcut, rfl | ⟨fault, hstops⟩⟩ := exists_cut source
  · rw [List.append_nil] at h ⊢
    obtain ⟨lexemes, hscan, hplaces⟩ := hcut.scan_eq_ok
    cases hscan.symm.trans h
    obtain ⟨front, chars, back, rfl, hbefore, hline, hlast⟩ := hplaces.exists_split rfl
    rw [List.append_cons] at hcut
    have hfront := hcut.of_append
    rw [List.append_nil] at hfront
    obtain ⟨hopens, hreads⟩ := hfront.of_concat
    have htext : text (front ++ .lexeme (.text content) chars :: back) =
        text front ++ (chars ++ text back) :=
      text_append front _
    rcases hreads.of_text with ⟨raw, hquotes, rfl | ⟨rfl, hnone⟩⟩
    · refine ⟨front, raw, '"' :: text back, ⟨?_, ?_⟩, hbefore, hline, hquotes,
        .inl ⟨_, rfl, hfront⟩⟩
      · rw [htext, List.cons_append, List.append_assoc, List.singleton_append]
      · rwa [chars, List.cons_append, List.append_assoc, List.singleton_append] at hopens
    · refine ⟨front, raw, ['\\'], ⟨?_, ?_⟩, hbefore, hline, hquotes,
        .inr ⟨rfl, hlast (hcut.eq_nil_of_text hnone)⟩⟩
      · rw [htext, hnone, List.append_nil]
      · rwa [chars, hnone, List.append_nil] at hopens
  · obtain ⟨line', herror, -⟩ := hcut.scan_eq_error hstops
    rw [herror] at h
    cases h

/-- What is refused for quoted text that is open has such a text. -/
theorem exists_opens_of_error {source : List Char} {line : Nat}
    (h : Lexeme.scan source = .error (.format (.source line .unterminatedText))) :
    ∃ pieces tail, Opens source pieces tail ∧ StaysOpen tail ∧ ¬Escapes tail ∧ IsLine line pieces := by
  obtain ⟨pieces, rest, rfl, hcut, rfl | ⟨fault, hstops⟩⟩ := exists_cut source
  · rw [List.append_nil] at h
    obtain ⟨lexemes, hscan, -⟩ := hcut.scan_eq_ok
    cases hscan.symm.trans h
  · obtain ⟨line', herror, hline⟩ := hcut.scan_eq_error hstops
    cases herror.symm.trans h
    cases hstops with
    | unclosed hquotes =>
      exact ⟨pieces, _, ⟨rfl, hcut⟩, hquotes.staysOpen, hquotes.not_escapes, hline⟩

end Piece

/-- How the error about a fault of the source names its line. -/
theorem CompileError.message_source (line : Nat) (fault : SourceFault) :
    (CompileError.format (.source line fault)).message =
      s!"format error: line {line}: {fault.message}" := by
  have hfront : "format error: line " = "format error: " ++ "line " := rfl
  show "format error: " ++ ("line " ++ toString line ++ ": " ++ fault.message) =
    "format error: line " ++ toString line ++ ": " ++ fault.message
  simp only [hfront, String.append_assoc]

namespace Lexeme

open Piece

/-- Quoted text in a source that is accepted ends at the first quote behind its opening quote that is not
escaped, with one exception: it is the last lexeme, no such quote is left, and a backslash that is not
escaped itself ends the source.  A source in which quoted text is open at the end is refused on the line of
that text, unless it ends with such a backslash, and for nothing else is a source refused in this way.  The
line is the true one if no line break in front of the text is escaped.  What stands behind a fault is no
text: a source is refused for its first fault. -/
theorem texts_closed (source : List Char) :
    (∀ before after content line, scan source = .ok (before ++ ⟨.text content, line⟩ :: after) →
      ∃ pieces raw tail, Opens source pieces (raw ++ tail) ∧ Places pieces before ∧ IsLine line pieces ∧
        Quotes raw content.toList ∧ StaysOpen raw ∧ ¬Escapes raw ∧
        ((∃ rest, tail = '"' :: rest ∧
            AreCut (pieces ++ [.lexeme (.text content) ('"' :: (raw ++ ['"']))]) rest) ∨
          (tail = ['\\'] ∧ after = []))) ∧
    (∀ pieces tail, Opens source pieces tail → StaysOpen tail → ∃ line, IsLine line pieces ∧
      ((∀ p ∈ pieces, p.escaped = 0) → line = 1 + (Piece.text pieces).count '\n') ∧
      if Escapes tail then
        ∃ raw content before, tail = raw ++ ['\\'] ∧ Quotes raw content ∧ Places pieces before ∧
          scan source = .ok (before ++ [⟨.text (String.ofList content), line⟩])
      else ∃ error, scan source = .error error ∧ error = .format (.source line .unterminatedText) ∧
        error.message = s!"format error: line {line}: unterminated string literal") ∧
    (∀ line, scan source = .error (.format (.source line .unterminatedText)) →
      ∃ pieces tail, Opens source pieces tail ∧ StaysOpen tail ∧ ¬Escapes tail ∧
        IsLine line pieces) ∧
    ∀ pieces rest fault, source = Piece.text pieces ++ rest → AreCut pieces rest → Stops fault rest →
      ∃ line, scan source = .error (.format (.source line fault)) ∧ IsLine line pieces := by
  have htrue (pieces : List Piece) (line : Nat) (hline : IsLine line pieces)
      (hnone : ∀ p ∈ pieces, p.escaped = 0) : line = 1 + (Piece.text pieces).count '\n' := by
    rwa [IsLine, escapedEach_eq_zero hnone] at hline
  refine ⟨fun before after content line h => ?_, fun pieces tail h hopen => ?_,
    fun line => exists_opens_of_error, fun pieces rest fault heq hcut hstops => ?_⟩
  · obtain ⟨pieces, raw, tail, hopens, hbefore, hline, hquotes, hends⟩ := exists_opens h
    exact ⟨pieces, raw, tail, hopens, hbefore, hline, hquotes, hquotes.staysOpen, hquotes.not_escapes,
      hends⟩
  · by_cases hescapes : Escapes tail
    · obtain ⟨raw, content, before, line, htail, hquotes, hscan, hbefore, hline⟩ :=
        h.scan_eq_ok hopen hescapes
      refine ⟨line, hline, htrue pieces line hline, ?_⟩
      rw [if_pos hescapes]
      exact ⟨raw, content, before, htail, hquotes, hbefore, hscan⟩
    · obtain ⟨line, hscan, hline⟩ := h.scan_eq_error hopen hescapes
      refine ⟨line, hline, htrue pieces line hline, ?_⟩
      rw [if_neg hescapes]
      exact ⟨_, hscan, rfl,
        (CompileError.message_source line .unterminatedText).trans (String.append_assoc ..)⟩
  · rw [heq]
    exact hcut.scan_eq_error hstops

/-- On a second line, text with an escaped quote and a comma behind it, text that is open behind an escaped
backslash, text that is open behind a backslash, and a slash that stands in front of a quote. -/
theorem texts_closed_second_line :
    let closed : List Char := ['\n', '"', 'a', '\\', '"', '"', ',']
    let unclosed : List Char := ['\n', '"', 'a', '\\', '\\']
    let cutOff : List Char := ['\n', '"', 'a', '\\']
    scan closed = .ok ([] ++ ⟨.text "a\"", 2⟩ :: [⟨.comma, 2⟩]) ∧
      (∃ pieces raw rest, Opens closed pieces (raw ++ '"' :: rest) ∧ Places pieces [] ∧
        Quotes raw ['a', '"'] ∧ StaysOpen raw ∧ ¬Escapes raw) ∧
      Opens unclosed [.blank '\n'] ['a', '\\', '\\'] ∧ StaysOpen ['a', '\\', '\\'] ∧
      scan unclosed = .error (.format (.source 2 .unterminatedText)) ∧
      (∃ pieces tail, Opens unclosed pieces tail ∧ StaysOpen tail ∧ ¬Escapes tail ∧
        IsLine 2 pieces) ∧
      Opens cutOff [.blank '\n'] ['a', '\\'] ∧ StaysOpen ['a', '\\'] ∧
      (∃ raw content before, ['a', '\\'] = raw ++ ['\\'] ∧ Quotes raw content ∧
        scan cutOff = .ok (before ++ [⟨.text (String.ofList content), 2⟩])) ∧
      Stops .unexpectedSlash ['/', '"'] ∧
      ∃ line, scan ['\n', '/', '"'] = .error (.format (.source line .unexpectedSlash)) ∧
        IsLine line [.blank '\n'] := by
  intro closed unclosed cutOff
  have hblank (rest : List Char) : AreCut ([] ++ [.blank '\n']) rest :=
    AreCut.nil.snoc (.blank (by decide))
  have hnone : ∀ p ∈ [Piece.blank '\n'], p.escaped = 0 := by
    decide
  have hscan : scan closed = .ok ([] ++ ⟨.text "a\"", 2⟩ :: [⟨.comma, 2⟩]) := by
    decide
  obtain ⟨pieces, raw, tail, hopens, hbefore, -, hquotes, hopen, hescapes, hends⟩ :=
    (texts_closed closed).1 _ _ _ _ hscan
  obtain ⟨rest, rfl, -⟩ | ⟨-, hafter⟩ := hends
  swap
  · cases hafter
  have hunclosed : Opens unclosed [.blank '\n'] ['a', '\\', '\\'] := ⟨rfl, hblank _⟩
  have hcutOff : Opens cutOff [.blank '\n'] ['a', '\\'] := ⟨rfl, hblank _⟩
  obtain ⟨line, -, hline, herror⟩ := (texts_closed unclosed).2.1 _ _ hunclosed (by decide)
  obtain rfl : line = 2 := hline hnone
  rw [if_neg (by decide)] at herror
  obtain ⟨_, herror, rfl, -⟩ := herror
  obtain ⟨line, -, hline, hok⟩ := (texts_closed cutOff).2.1 _ _ hcutOff (by decide)
  obtain rfl : line = 2 := hline hnone
  rw [if_pos (by decide)] at hok
  obtain ⟨raw', content, before, htail, hquotes', -, hok⟩ := hok
  have hstops : Stops .unexpectedSlash ['/', '"'] := .slash (by decide)
  exact ⟨hscan, ⟨pieces, raw, rest, hopens, hbefore, hquotes, hopen, hescapes⟩, hunclosed, by decide,
    herror, (texts_closed unclosed).2.2.1 2 herror, hcutOff, by decide,
    ⟨raw', content, before, htail, hquotes', hok⟩, hstops,
    (texts_closed ['\n', '/', '"']).2.2.2 [.blank '\n'] _ _ rfl (hblank _) hstops⟩

/-- Text that is open at the end of the source is accepted if a backslash stands there, and text that is
refused is refused on the line before its own if the line break is escaped. -/
theorem open_text_accepted :
    let broken : Piece := .lexeme (.text "\n") ['"', '\\', '\n', '"']
    Opens ['"', 'a', '\\'] [] ['a', '\\'] ∧ StaysOpen ['a', '\\'] ∧
      scan ['"', 'a', '\\'] = .ok [⟨.text "a", 1⟩] ∧
      Opens (broken.chars ++ ['"', 'a']) [broken] ['a'] ∧ StaysOpen ['a'] ∧
      scan (broken.chars ++ ['"', 'a']) = .error (.format (.source 1 .unterminatedText)) ∧
      1 + (Piece.text [broken]).count '\n' = 2 := by
  intro broken
  have hquotes : Quotes ['\\', '\n'] ['\n'] := .escape .nil
  have hcut : AreCut ([] ++ [broken]) ['"', 'a'] := AreCut.nil.snoc (.quoted hquotes)
  exact ⟨⟨rfl, .nil⟩, by decide, by decide, ⟨rfl, hcut⟩, by decide, by decide, by decide⟩

end Lexeme

end Switchboard
