import Switchboard.Proofs.Source.Listing

/-!
# Lines of lexemes

A source text is cut into pieces: white space, comments and the characters of lexemes.  How it is cut
depends on the text alone, as each piece is as long as it can be.  The scanner gives every lexeme a line.
It counts the line breaks in front of the lexeme for that, with one exception: it passes over a line break
that is escaped, behind a backslash in quoted text.

Main results:

* `Piece.exists_cut`: every source text is cut into pieces, up to its end or to what starts none.
* `Piece.Reads.foldlM`: how the scanner takes one piece.
* `Piece.AreCut.foldlM`: how it takes a text, piece by piece.
* `Lexeme.scan_places`: the line of every lexeme, and of every fault.
* `Lexeme.escaped_break_passed`: where the line is not the true one.
-/

namespace Switchboard

-- ---------------------------------------------------------------------------
-- Pieces of source text
-- ---------------------------------------------------------------------------

/-- What stands between quotes, and the text that it stands for. -/
inductive Quotes : List Char → List Char → Prop where
  | nil : Quotes [] []
  | plain {c : Char} {raw content : List Char} (quote : c ≠ '"') (slash : c ≠ '\\')
      (rest : Quotes raw content) : Quotes (c :: raw) (c :: content)
  | escape {c : Char} {raw content : List Char} (rest : Quotes raw content) :
      Quotes ('\\' :: c :: raw) (Scanner.unescape c :: content)

/-- A part of source text that is taken as a whole. -/
inductive Piece where
  /-- A character of white space. -/
  | blank (c : Char)
  /-- A comment, by what stands behind its two slashes. -/
  | comment (body : List Char)
  /-- The characters of a lexeme. -/
  | lexeme (lexeme : Lexeme) (chars : List Char)
  deriving DecidableEq

namespace Piece

/-- The characters of a piece. -/
def chars : Piece → List Char
  | blank c => [c]
  | comment body => '/' :: '/' :: body
  | lexeme _ chars => chars

/-- The characters of pieces, one after the other. -/
def text (pieces : List Piece) : List Char :=
  pieces.flatMap chars

/-- Whether a piece comes off the front of a text, of which the given rest is left.  Comments and words go
on for as long as they can.  Quoted text ends with a quote that is not escaped, or with a backslash at the
end of the source. -/
inductive Reads : Piece → List Char → Prop where
  | blank {c : Char} {rest : List Char} (blank : Text.isBlank c = true) : Reads (.blank c) rest
  | comment {body rest : List Char} (line : '\n' ∉ body) (ends : ∀ c ∈ rest.head?, c = '\n') :
      Reads (.comment body) rest
  | opening {rest : List Char} : Reads (.lexeme .opening ['<']) rest
  | closing {rest : List Char} : Reads (.lexeme .closing ['>']) rest
  | comma {rest : List Char} : Reads (.lexeme .comma [',']) rest
  | word {word rest : List Char} (isWord : IsWord word)
      (ends : ∀ c ∈ rest.head?, ¬IsWord (word ++ [c])) : Reads (.lexeme (.ofWord word) word) rest
  | quoted {raw content rest : List Char} (quotes : Quotes raw content) :
      Reads (.lexeme (.text (String.ofList content)) ('"' :: (raw ++ ['"']))) rest
  | cutOff {raw content : List Char} (quotes : Quotes raw content) :
      Reads (.lexeme (.text (String.ofList content)) ('"' :: (raw ++ ['\\']))) []

/-- Pieces come off the front of a text one after the other, and leave the given rest. -/
inductive AreCut : List Piece → List Char → Prop where
  | nil {rest : List Char} : AreCut [] rest
  | snoc {pieces : List Piece} {p : Piece} {rest : List Char} (before : AreCut pieces (p.chars ++ rest))
      (last : p.Reads rest) : AreCut (pieces ++ [p]) rest

/-- What is wrong with a text that no piece comes off. -/
inductive Stops : SourceFault → List Char → Prop where
  | slash {rest : List Char} (single : rest.head? ≠ some '/') : Stops .unexpectedSlash ('/' :: rest)
  | character {c : Char} {rest : List Char} (blank : Text.isBlank c = false)
      (sign : c ∉ ['/', '<', '>', ',', '"']) (word : isWordChar c = false) :
      Stops (.unexpectedCharacter c) (c :: rest)
  | unclosed {raw content : List Char} (quotes : Quotes raw content) :
      Stops .unterminatedText ('"' :: raw)

-- ---------------------------------------------------------------------------
-- Every text is cut
-- ---------------------------------------------------------------------------

/-- Quoted text goes on up to a quote that is not escaped, or up to the end of the source, where a
backslash may be left over. -/
theorem exists_quotes :
    ∀ chars : List Char, ∃ raw content left, chars = raw ++ left ∧ Quotes raw content ∧
      (left = [] ∨ left = ['\\'] ∨ ∃ rest, left = '"' :: rest)
  | [] => ⟨[], [], [], rfl, .nil, .inl rfl⟩
  | [c] => by
    by_cases hquote : c = '"'
    · exact ⟨[], [], [c], rfl, .nil, .inr (.inr ⟨[], by rw [hquote]⟩)⟩
    by_cases hslash : c = '\\'
    · exact ⟨[], [], [c], rfl, .nil, .inr (.inl (by rw [hslash]))⟩
    · exact ⟨[c], [c], [], rfl, .plain hquote hslash .nil, .inl rfl⟩
  | c :: d :: chars => by
    by_cases hquote : c = '"'
    · exact ⟨[], [], c :: d :: chars, rfl, .nil, .inr (.inr ⟨d :: chars, by rw [hquote]⟩)⟩
    by_cases hslash : c = '\\'
    · obtain ⟨raw, content, left, rfl, hquotes, hleft⟩ := exists_quotes chars
      exact ⟨'\\' :: d :: raw, _, left, by rw [hslash]; rfl, .escape hquotes, hleft⟩
    · obtain ⟨raw, content, left, heq, hquotes, hleft⟩ := exists_quotes (d :: chars)
      exact ⟨c :: raw, c :: content, left, by rw [heq]; rfl, .plain hquote hslash hquotes, hleft⟩

/-- The longest front of a text whose characters are of one kind. -/
theorem exists_front (kind : Char → Bool) (chars : List Char) :
    ∃ front rest, chars = front ++ rest ∧ (∀ c ∈ front, kind c = true) ∧
      ∀ c ∈ rest.head?, kind c = false := by
  refine ⟨chars.takeWhile kind, chars.dropWhile kind, List.takeWhile_append_dropWhile.symm,
    fun c hc => List.mem_takeWhile_imp hc, fun c hc => ?_⟩
  have hnot := List.head?_dropWhile_not kind chars
  rw [Option.mem_def.mp hc] at hnot
  simpa using hnot

/-- A piece comes off every text that is not empty, or something is wrong with it. -/
theorem exists_reads (c : Char) (chars : List Char) :
    (∃ p rest, c :: chars = Piece.chars p ++ rest ∧ p.Reads rest) ∨
      ∃ fault, Stops fault (c :: chars) := by
  by_cases hblank : Text.isBlank c = true
  · exact .inl ⟨.blank c, chars, rfl, .blank hblank⟩
  by_cases hslash : c = '/'
  · subst hslash
    by_cases hsingle : chars.head? = some '/'
    · obtain ⟨rest, rfl⟩ := List.head?_eq_some_iff.mp hsingle
      -- the comment goes on to the end of the line
      obtain ⟨body, rest, rfl, hbody, hends⟩ := exists_front (· ≠ '\n') rest
      refine .inl ⟨.comment body, rest, rfl, .comment (fun hmem => ?_) fun c hc => ?_⟩
      · simpa using hbody _ hmem
      · simpa using hends c hc
    · exact .inr ⟨_, .slash hsingle⟩
  by_cases hopening : c = '<'
  · exact .inl ⟨.lexeme .opening ['<'], chars, by rw [hopening]; rfl, .opening⟩
  by_cases hclosing : c = '>'
  · exact .inl ⟨.lexeme .closing ['>'], chars, by rw [hclosing]; rfl, .closing⟩
  by_cases hcomma : c = ','
  · exact .inl ⟨.lexeme .comma [','], chars, by rw [hcomma]; rfl, .comma⟩
  by_cases hquote : c = '"'
  · subst hquote
    obtain ⟨raw, content, left, rfl, hquotes, rfl | rfl | ⟨rest, rfl⟩⟩ := exists_quotes chars
    · rw [List.append_nil]
      exact .inr ⟨_, .unclosed hquotes⟩
    · exact .inl ⟨_, [], (List.append_nil _).symm, .cutOff hquotes⟩
    · refine .inl ⟨.lexeme _ ('"' :: (raw ++ ['"'])), rest, ?_, .quoted hquotes⟩
      simp [Piece.chars]
  by_cases hword : isWordChar c = true
  · -- the word goes on for as long as its characters may stand in it
    obtain ⟨front, rest, rfl, hfront, hends⟩ :=
      exists_front (fun d => isWordChar d || (Text.isDigit c && d == '-')) chars
    have hall : ∀ d ∈ front, isWordChar d = true ∨ (Text.isDigit c = true ∧ d = '-') := by
      simpa using hfront
    have hfirst : IsWord (c :: front) := ⟨hword, hall⟩
    refine .inl ⟨_, rest, rfl, .word hfirst fun d hd hlonger => ?_⟩
    have hd := hends d hd
    rcases hlonger.2 d (List.mem_append_right _ List.mem_cons_self) with hlonger | ⟨hdigit, rfl⟩
    · rw [hlonger] at hd
      cases hd
    · rw [hdigit] at hd
      simp at hd
  · refine .inr ⟨_, .character (Bool.eq_false_iff.mpr hblank) ?_ (Bool.eq_false_iff.mpr hword)⟩
    simp [hslash, hopening, hclosing, hcomma, hquote]

theorem text_append (pieces more : List Piece) : text (pieces ++ more) = text pieces ++ text more :=
  List.flatMap_append

theorem text_singleton (p : Piece) : text [p] = p.chars :=
  List.flatMap_singleton chars p

theorem Reads.chars_ne_nil {p : Piece} {rest : List Char} (h : p.Reads rest) : p.chars ≠ [] := by
  cases h with
  | @word word _ isWord _ =>
    rintro (rfl : word = [])
    exact isWord
  | _ => exact List.cons_ne_nil _ _

/-- What is left behind pieces is cut as well, up to its end or to what starts none. -/
theorem AreCut.exists_end {pieces : List Piece} {rest : List Char} (h : AreCut pieces rest) :
    ∃ pieces' rest', text pieces ++ rest = text pieces' ++ rest' ∧ AreCut pieces' rest' ∧
      (rest' = [] ∨ ∃ fault, Stops fault rest') := by
  match rest, h with
  | [], h => exact ⟨pieces, [], rfl, h, .inl rfl⟩
  | c :: chars, h =>
    rcases exists_reads c chars with ⟨p, rest, heq, hreads⟩ | hstops
    · rw [heq] at h ⊢
      obtain ⟨pieces', rest', heq', hcut, hends⟩ := (h.snoc hreads).exists_end
      rw [text_append, text_singleton, List.append_assoc] at heq'
      exact ⟨pieces', rest', heq', hcut, hends⟩
    · exact ⟨pieces, _, rfl, h, .inr hstops⟩
termination_by rest.length
decreasing_by
  have hpos := List.length_pos_iff.mpr hreads.chars_ne_nil
  have hlength := congrArg List.length heq
  rw [List.length_append] at hlength
  omega

/-- Every source text is cut into pieces, up to its end or to what starts none. -/
theorem exists_cut (source : List Char) :
    ∃ pieces rest, source = text pieces ++ rest ∧ AreCut pieces rest ∧
      (rest = [] ∨ ∃ fault, Stops fault rest) :=
  (AreCut.nil : AreCut [] source).exists_end

end Piece

-- ---------------------------------------------------------------------------
-- Line breaks
-- ---------------------------------------------------------------------------

/-- The number of line breaks that are escaped: those behind a backslash that is not escaped itself. -/
def escapedBreaks : List Char → Nat
  | [] => 0
  | [_] => 0
  | c :: d :: rest =>
    if c = '\\' then (if d = '\n' then 1 else 0) + escapedBreaks rest else escapedBreaks (d :: rest)

theorem escapedBreaks_cons {c : Char} (h : c ≠ '\\') (rest : List Char) :
    escapedBreaks (c :: rest) = escapedBreaks rest := by
  cases rest with
  | nil => rfl
  | cons d rest => rw [escapedBreaks, if_neg h]

theorem escapedBreaks_escape (c : Char) (rest : List Char) :
    escapedBreaks ('\\' :: c :: rest) = (if c = '\n' then 1 else 0) + escapedBreaks rest := by
  rw [escapedBreaks, if_pos rfl]

/-- Quoted text ends behind an escape, not within one. -/
theorem Quotes.escapedBreaks_append {raw content : List Char} (h : Quotes raw content)
    (more : List Char) : escapedBreaks (raw ++ more) = escapedBreaks raw + escapedBreaks more := by
  induction h with
  | nil => exact (Nat.zero_add _).symm
  | plain quote slash rest ih =>
    rw [List.cons_append, escapedBreaks_cons slash, escapedBreaks_cons slash, ih]
  | escape rest ih =>
    rw [List.cons_append, List.cons_append, escapedBreaks_escape, escapedBreaks_escape, ih,
      Nat.add_assoc]

namespace Piece

/-- The number of line breaks in a piece that are escaped.  Only quoted text has any. -/
def escaped : Piece → Nat
  | lexeme (.text _) chars => escapedBreaks chars
  | _ => 0

/-- The number of line breaks in pieces that are escaped. -/
def escapedEach : List Piece → Nat
  | [] => 0
  | p :: pieces => p.escaped + escapedEach pieces

theorem escapedEach_concat (pieces : List Piece) (p : Piece) :
    escapedEach (pieces ++ [p]) = escapedEach pieces + p.escaped := by
  induction pieces with
  | nil => exact Nat.add_comm ..
  | cons first pieces ih => rw [List.cons_append, escapedEach, escapedEach, ih, Nat.add_assoc]

theorem escapedEach_eq_zero {pieces : List Piece} (h : ∀ p ∈ pieces, p.escaped = 0) :
    escapedEach pieces = 0 := by
  induction pieces with
  | nil => rfl
  | cons p pieces ih =>
    obtain ⟨hfirst, hrest⟩ := List.forall_mem_cons.mp h
    rw [escapedEach, hfirst, ih hrest]

theorem escaped_ofWord (word chars : List Char) : (lexeme (.ofWord word) chars).escaped = 0 := by
  unfold Lexeme.ofWord
  split <;> rfl

/-- The line behind pieces: the first line is line 1, and each line break counts unless it is
escaped. -/
def IsLine (line : Nat) (pieces : List Piece) : Prop :=
  line + escapedEach pieces = 1 + (text pieces).count '\n'

/-- The lexeme of a piece that starts on the given line, if it is the piece of a lexeme. -/
def placed (line : Nat) : Piece → List Placed
  | .lexeme found _ => [⟨found, line⟩]
  | _ => []

/-- The lexemes of pieces, each with the line behind the pieces before it. -/
inductive Places : List Piece → List Placed → Prop where
  | nil : Places [] []
  | snoc {pieces : List Piece} {lexemes : List Placed} {line : Nat} (before : Places pieces lexemes)
      (isLine : IsLine line pieces) (p : Piece) : Places (pieces ++ [p]) (lexemes ++ p.placed line)

end Piece

-- ---------------------------------------------------------------------------
-- The scanner on pieces
-- ---------------------------------------------------------------------------

namespace Scanner

variable {s : State} {line : Nat} {done : List Placed} {rest : List Char}

/-- With the given rest of the source in front of it, the scanner is at the end of a piece: the next
character starts something new, and at the end nothing is missing. -/
structure State.IsBetween (s : State) (line : Nat) (done : List Placed) (rest : List Char) : Prop where
  step : ∀ c ∈ rest.head?, s.step c = State.begin ⟨.between, line, done⟩ c
  finish : rest = [] → s.finish = .ok done.reverse

theorem isBetween (line : Nat) (done : List Placed) (rest : List Char) :
    State.IsBetween ⟨.between, line, done⟩ line done rest :=
  ⟨fun _ _ => rfl, fun _ => rfl⟩

/-- It goes on as if it were in the middle of nothing. -/
theorem State.IsBetween.foldlM {front : List Char} (h : s.IsBetween line done (front ++ rest))
    (hne : front ≠ []) :
    front.foldlM State.step s = front.foldlM State.step ⟨.between, line, done⟩ := by
  cases front with
  | nil => exact absurd rfl hne
  | cons c front =>
    rw [List.foldlM_cons, List.foldlM_cons, h.step c rfl]
    rfl

/-- A comment takes all that stands on its line. -/
theorem foldlM_comment {body : List Char} (h : '\n' ∉ body) :
    body.foldlM State.step ⟨.comment, line, done⟩ = .ok ⟨.comment, line, done⟩ := by
  induction body with
  | nil => rfl
  | cons c body ih =>
    rw [List.mem_cons, not_or] at h
    rw [List.foldlM_cons, State.step]
    dsimp only
    rw [if_neg (Ne.symm h.1), ok_bind, ih h.2]

/-- Quoted text is taken as what it stands for, and of its line breaks those count that are not
escaped. -/
theorem foldlM_quotes {raw content : List Char} (h : Quotes raw content) (start line : Nat)
    (chars : List Char) :
    ∃ line', raw.foldlM State.step ⟨.quote start chars, line, done⟩ =
        .ok ⟨.quote start (content.reverse ++ chars), line', done⟩ ∧
      line' + escapedBreaks raw = line + raw.count '\n' := by
  induction h generalizing line chars with
  | nil => exact ⟨line, rfl, rfl⟩
  | @plain c raw content quote slash rest ih =>
    obtain ⟨line', hfold, hline⟩ := ih (if c = '\n' then line + 1 else line) (c :: chars)
    refine ⟨line', ?_, ?_⟩
    · rw [List.foldlM_cons, State.step]
      dsimp only
      rw [if_neg quote, if_neg slash, ok_bind, hfold, List.reverse_cons, List.append_assoc,
        List.singleton_append]
    · rw [escapedBreaks_cons slash, hline, List.count_cons]
      simp only [beq_iff_eq]
      split <;> omega
  | @escape c raw content rest ih =>
    obtain ⟨line', hfold, hline⟩ := ih line (unescape c :: chars)
    refine ⟨line', ?_, ?_⟩
    · have hescape : State.step ⟨.quote start chars, line, done⟩ '\\' =
          .ok ⟨.escape start chars, line, done⟩ := rfl
      rw [List.foldlM_cons, hescape, ok_bind, List.foldlM_cons, State.step]
      dsimp only
      rw [ok_bind, hfold, List.reverse_cons, List.append_assoc, List.singleton_append]
    · -- the line break that is escaped is passed over
      rw [escapedBreaks_escape, List.count_cons, List.count_cons]
      simp only [beq_iff_eq, Char.reduceEq, if_false]
      split <;> omega

/-- An opening quote and what follows it, up to a character that ends the text. -/
theorem foldlM_openQuote {raw content : List Char} (h : Quotes raw content) (line : Nat)
    (done : List Placed) :
    ∃ line', ('"' :: raw).foldlM State.step ⟨.between, line, done⟩ =
        .ok ⟨.quote line content.reverse, line', done⟩ ∧
      ∀ last, last ≠ '\n' →
        line' + escapedBreaks ('"' :: (raw ++ [last])) =
          line + ('"' :: (raw ++ [last])).count '\n' := by
  obtain ⟨line', hfold, hline⟩ := foldlM_quotes h line line []
  rw [List.append_nil] at hfold
  refine ⟨line', hfold, fun last hlast => ?_⟩
  have hsingle : [last].count '\n' = 0 :=
    List.count_eq_zero_of_not_mem fun hmem => hlast (List.mem_singleton.mp hmem).symm
  rw [escapedBreaks_cons (by decide), h.escapedBreaks_append, List.count_cons_of_ne (by decide),
    List.count_append, hsingle]
  exact hline

/-- A word is a lexeme once no longer one can be made of it. -/
theorem foldlM_wordPiece {word : List Char} (h : IsWord word)
    (hends : ∀ c ∈ rest.head?, ¬IsWord (word ++ [c])) :
    ∃ s, word.foldlM State.step ⟨.between, line, done⟩ = .ok s ∧
      s.IsBetween line (⟨.ofWord word, line⟩ :: done) rest := by
  cases word with
  | nil => exact absurd h id
  | cons first others =>
    refine ⟨_, foldlM_isWord h, fun c hc => ?_, fun _ => ?_⟩
    · have hstops : ¬(isWordChar c = true ∨ (Text.isDigit first = true ∧ c = '-')) := by
        intro hc'
        refine hends c hc ⟨h.1, fun d hd => ?_⟩
        rcases List.mem_append.mp hd with hd | hd
        · exact h.2 d hd
        · rw [List.mem_singleton.mp hd]
          exact hc'
      rw [State.step]
      dsimp only
      rw [if_neg hstops, wordLexeme_reverse]
      rfl
    · rw [State.finish]
      dsimp only
      rw [wordLexeme_reverse]
      rfl

end Scanner

namespace Piece

open Scanner

theorem not_mem_of_isWord {word : List Char} (h : IsWord word) : '\n' ∉ word := by
  cases word with
  | nil => exact List.not_mem_nil
  | cons first others =>
    intro hmem
    rcases List.mem_cons.mp hmem with rfl | hmem
    · exact absurd h.1 (by decide)
    · rcases h.2 _ hmem with hword | ⟨-, heq⟩
      · exact absurd hword (by decide)
      · exact absurd heq (by decide)

/-- A piece without a line break leaves the line as it is. -/
theorem line_of_not_mem {p : Piece} (h : '\n' ∉ p.chars) (hnone : p.escaped = 0) (line : Nat) :
    line + p.escaped = line + p.chars.count '\n' := by
  rw [hnone, List.count_eq_zero_of_not_mem h]

/-- The scanner takes a piece: the lexeme starts on the line of the scanner. -/
theorem Reads.foldlM {p : Piece} {rest : List Char} (h : p.Reads rest) (line : Nat)
    (done : List Placed) :
    ∃ s line', p.chars.foldlM State.step ⟨.between, line, done⟩ = .ok s ∧
      s.IsBetween line' (p.placed line ++ done) rest ∧
      line' + p.escaped = line + p.chars.count '\n' := by
  cases h with
  | @blank c _ hblank =>
    by_cases hbreak : c = '\n'
    · subst hbreak
      exact ⟨_, line + 1, rfl, isBetween (line + 1) done rest, rfl⟩
    · refine ⟨⟨.between, line, done⟩, line, ?_, isBetween line done rest, ?_⟩
      · show State.begin _ c >>= _ = _
        rw [State.begin, if_neg hbreak, if_pos hblank]
        rfl
      · exact line_of_not_mem (fun hmem => hbreak (List.mem_singleton.mp hmem).symm) rfl line
  | @comment body _ hline hends =>
    refine ⟨⟨.comment, line, done⟩, line, foldlM_comment hline, ⟨fun c hc => ?_, fun _ => rfl⟩, ?_⟩
    · rw [hends c hc]
      rfl
    · refine line_of_not_mem (fun hmem => ?_) rfl line
      rcases List.mem_cons.mp hmem with heq | hmem
      · exact absurd heq (by decide)
      rcases List.mem_cons.mp hmem with heq | hmem
      · exact absurd heq (by decide)
      · exact hline hmem
  | opening | closing | comma => exact ⟨_, line, rfl, isBetween line _ rest, rfl⟩
  | @word word _ hword hends =>
    obtain ⟨s, hfold, hbetween⟩ := foldlM_wordPiece hword hends
    have hbreak : '\n' ∉ (lexeme (.ofWord word) word).chars := not_mem_of_isWord hword
    exact ⟨s, line, hfold, hbetween, line_of_not_mem hbreak (escaped_ofWord word word) line⟩
  | @quoted raw content _ hquotes =>
    obtain ⟨line', hfold, hline⟩ := foldlM_openQuote hquotes line done
    refine ⟨⟨.between, line', ⟨.text (String.ofList content), line⟩ :: done⟩, line', ?_,
      isBetween line' _ rest, hline '"' (by decide)⟩
    have hclose : State.step ⟨.quote line content.reverse, line', done⟩ '"' =
        .ok ⟨.between, line', ⟨.text (String.ofList content), line⟩ :: done⟩ := by
      rw [State.step]
      dsimp only
      rw [if_pos rfl, List.reverse_reverse]
      rfl
    show ('"' :: raw ++ ['"']).foldlM State.step _ = _
    rw [List.foldlM_append, hfold, ok_bind, List.foldlM_cons, hclose]
    rfl
  | @cutOff raw content hquotes =>
    obtain ⟨line', hfold, hline⟩ := foldlM_openQuote hquotes line done
    refine ⟨⟨.escape line content.reverse, line', done⟩, line', ?_, ⟨?_, fun _ => ?_⟩,
      hline '\\' (by decide)⟩
    · show ('"' :: raw ++ ['\\']).foldlM State.step _ = _
      rw [List.foldlM_append, hfold, ok_bind]
      rfl
    · rintro c ⟨⟩
    · rw [State.finish]
      dsimp only
      rw [List.reverse_reverse]
      rfl

/-- The scanner takes a text that is cut into pieces. -/
theorem AreCut.foldlM {pieces : List Piece} {rest : List Char} (h : AreCut pieces rest) :
    ∃ s lexemes line, (text pieces).foldlM State.step start = .ok s ∧
      s.IsBetween line lexemes.reverse rest ∧ Places pieces lexemes ∧ IsLine line pieces := by
  induction h with
  | nil => exact ⟨start, [], 1, rfl, isBetween 1 [] _, .nil, rfl⟩
  | @snoc pieces p rest _ last ih =>
    obtain ⟨s, lexemes, line, hfold, hbetween, hplaces, hline⟩ := ih
    obtain ⟨s', line', hfold', hbetween', hline'⟩ := last.foldlM line lexemes.reverse
    refine ⟨s', lexemes ++ p.placed line, line', ?_, ?_, hplaces.snoc hline p, ?_⟩
    · rw [text_append, text_singleton, List.foldlM_append, hfold, ok_bind,
        hbetween.foldlM last.chars_ne_nil, hfold']
    · have hreverse : (p.placed line).reverse = p.placed line := by
        cases p <;> rfl
      rw [List.reverse_append, hreverse]
      exact hbetween'
    · rw [IsLine] at hline ⊢
      rw [text_append, text_singleton, List.count_append, escapedEach_concat]
      omega

variable {pieces : List Piece} {rest : List Char} {fault : SourceFault}

/-- A text that is cut up to its end is scanned. -/
theorem AreCut.scan_eq_ok (h : AreCut pieces []) :
    ∃ lexemes, Lexeme.scan (text pieces) = .ok lexemes ∧ Places pieces lexemes := by
  obtain ⟨s, lexemes, line, hfold, hbetween, hplaces, -⟩ := h.foldlM
  refine ⟨lexemes, ?_, hplaces⟩
  rw [Lexeme.scan, hfold, ok_bind, hbetween.finish rfl, List.reverse_reverse]

/-- The scanner stops at what starts no piece, on its line. -/
theorem Stops.foldlM (h : Stops fault rest) (line : Nat) (done : List Placed) :
    (rest.foldlM State.step ⟨.between, line, done⟩ >>= State.finish) =
      .error (.format (.source line fault)) := by
  cases h with
  | @slash rest hsingle =>
    cases rest with
    | nil => rfl
    | cons c rest =>
      have hc : c ≠ '/' := fun heq => hsingle (congrArg some heq)
      have hstep : State.step ⟨.slash, line, done⟩ c =
          .error (.format (.source line .unexpectedSlash)) :=
        if_neg hc
      show ((State.step ⟨.slash, line, done⟩ c >>= _) >>= _) = _
      rw [hstep]
      rfl
  | @character c rest hblank hsign hword =>
    have hbreak : c ≠ '\n' := by
      rintro rfl
      exact absurd hblank (by decide)
    simp only [List.mem_cons, List.not_mem_nil, or_false, not_or] at hsign
    obtain ⟨hslash, hopening, hclosing, hcomma, hquote⟩ := hsign
    have hbegin : State.step ⟨.between, line, done⟩ c =
        .error (.format (.source line (.unexpectedCharacter c))) := by
      rw [State.step]
      dsimp only
      rw [State.begin, if_neg hbreak, if_neg (Bool.eq_false_iff.mp hblank), if_neg hslash,
        if_neg hopening, if_neg hclosing, if_neg hcomma, if_neg hquote,
        if_neg (Bool.eq_false_iff.mp hword)]
    rw [List.foldlM_cons, hbegin]
    rfl
  | @unclosed raw content hquotes =>
    obtain ⟨line', hfold, -⟩ := foldlM_openQuote hquotes line done
    rw [hfold]
    rfl

theorem Stops.ne_nil (h : Stops fault rest) : rest ≠ [] := by
  cases h <;> exact List.cons_ne_nil _ _

/-- A text that is cut up to what starts no piece is refused for it. -/
theorem AreCut.scan_eq_error (h : AreCut pieces rest) (hstops : Stops fault rest) :
    ∃ line, Lexeme.scan (text pieces ++ rest) = .error (.format (.source line fault)) ∧
      IsLine line pieces := by
  obtain ⟨s, lexemes, line, hfold, hbetween, -, hline⟩ := h.foldlM
  refine ⟨line, ?_, hline⟩
  rw [← List.append_nil rest] at hbetween
  rw [Lexeme.scan, List.foldlM_append, hfold, ok_bind, hbetween.foldlM hstops.ne_nil]
  exact hstops.foldlM line lexemes.reverse

end Piece

namespace Lexeme

open Piece

/-- Every source text is cut into pieces, up to its end or to what starts none, and is scanned or refused
by that.  There is no other way to cut it for which this would not hold.  The line of a lexeme, and of a
fault, is 1 and the number of line breaks in front of it, those left out that are escaped.  If none is, it
is the true line. -/
theorem scan_places (source : List Char) :
    (∃ pieces rest, source = Piece.text pieces ++ rest ∧ AreCut pieces rest ∧
      ((rest = [] ∧ ∃ lexemes, scan source = .ok lexemes ∧ Places pieces lexemes) ∨
        ∃ fault line, Stops fault rest ∧
          scan source = .error (.format (.source line fault)) ∧ IsLine line pieces)) ∧
    (∀ pieces rest, source = Piece.text pieces ++ rest → AreCut pieces rest →
      (rest = [] → ∃ lexemes, scan source = .ok lexemes ∧ Places pieces lexemes) ∧
      ∀ fault, Stops fault rest → ∃ line,
        scan source = .error (.format (.source line fault)) ∧ IsLine line pieces) ∧
    ∀ pieces line, IsLine line pieces → (∀ p ∈ pieces, p.escaped = 0) →
      line = 1 + (Piece.text pieces).count '\n' := by
  have hcut (pieces : List Piece) (rest : List Char) (heq : source = Piece.text pieces ++ rest)
      (h : AreCut pieces rest) :
      (rest = [] → ∃ lexemes, scan source = .ok lexemes ∧ Places pieces lexemes) ∧
      ∀ fault, Stops fault rest → ∃ line,
        scan source = .error (.format (.source line fault)) ∧ IsLine line pieces := by
    refine ⟨?_, fun fault hstops => heq ▸ h.scan_eq_error hstops⟩
    rintro rfl
    rw [heq, List.append_nil]
    exact h.scan_eq_ok
  refine ⟨?_, hcut, fun pieces line hline hnone => ?_⟩
  · obtain ⟨pieces, rest, heq, h, hends⟩ := exists_cut source
    obtain ⟨hok, herror⟩ := hcut pieces rest heq h
    refine ⟨pieces, rest, heq, h, ?_⟩
    rcases hends with hend | ⟨fault, hstops⟩
    · exact .inl ⟨hend, hok hend⟩
    · obtain ⟨line, hscan, hline⟩ := herror fault hstops
      exact .inr ⟨fault, line, hstops, hscan, hline⟩
  · rwa [IsLine, escapedEach_eq_zero hnone] at hline

/-- A comma behind text over two lines and a name on the third line, alone and with a slash behind
them. -/
theorem scan_places_third :
    let pieces : List Piece := [.lexeme (.text (String.ofList ['a', '\n'])) ['"', 'a', '\n', '"'],
      .lexeme .comma [','], .blank '\n', .lexeme (.ofWord ['b']) ['b']]
    (∀ rest, (∀ c ∈ rest.head?, ¬IsWord ['b', c]) → AreCut pieces rest) ∧
      scan (Piece.text pieces) =
        .ok [⟨.text (String.ofList ['a', '\n']), 1⟩, ⟨.comma, 2⟩, ⟨.ofWord ['b'], 3⟩] ∧
      Places pieces
        [⟨.text (String.ofList ['a', '\n']), 1⟩, ⟨.comma, 2⟩, ⟨.ofWord ['b'], 3⟩] ∧
      Stops .unexpectedSlash ['/'] ∧
      scan (Piece.text pieces ++ ['/']) = .error (.format (.source 3 .unexpectedSlash)) ∧
      IsLine 3 pieces ∧ (∀ p ∈ pieces, p.escaped = 0) ∧
      3 = 1 + (Piece.text pieces).count '\n' := by
  intro pieces
  have hcut (rest : List Char) (hends : ∀ c ∈ rest.head?, ¬IsWord ['b', c]) : AreCut pieces rest := by
    have hquotes : Quotes ['a', '\n'] ['a', '\n'] :=
      .plain (by decide) (by decide) (.plain (by decide) (by decide) .nil)
    have hword : IsWord ['b'] := ⟨by decide, List.forall_mem_nil _⟩
    have hfirst (rest : List Char) : AreCut ([] ++ [_]) rest := AreCut.nil.snoc (.quoted hquotes)
    exact (((hfirst _).snoc .comma).snoc (.blank (by decide))).snoc (.word hword hends)
  have hscan : scan (Piece.text pieces) =
      .ok [⟨.text (String.ofList ['a', '\n']), 1⟩, ⟨.comma, 2⟩, ⟨.ofWord ['b'], 3⟩] := by
    cbv
  have hend : ∀ c ∈ ([] : List Char).head?, ¬IsWord ['b', c] := by
    rintro c ⟨⟩
  obtain ⟨lexemes, hlexemes, hplaces⟩ :=
    ((scan_places (Piece.text pieces)).2.1 pieces [] (List.append_nil _).symm (hcut [] hend)).1 rfl
  cases hscan.symm.trans hlexemes
  have hnone : ∀ p ∈ pieces, p.escaped = 0 := by
    decide
  have hstops : Stops .unexpectedSlash ['/'] := .slash (by decide)
  have hslash : ∀ c ∈ ['/'].head?, ¬IsWord ['b', c] := by
    rintro _ ⟨⟩ ⟨-, hlonger⟩
    exact absurd (hlonger '/' List.mem_cons_self) (by decide)
  obtain ⟨-, hcuts, htrue⟩ := scan_places (Piece.text pieces ++ ['/'])
  obtain ⟨line, herror, hline⟩ := (hcuts pieces ['/'] rfl (hcut _ hslash)).2 _ hstops
  obtain rfl : line = 3 := htrue pieces line hline hnone
  exact ⟨hcut, hscan, hplaces, hstops, herror, hline, hnone, htrue pieces 3 hline hnone⟩

/-- Behind an escaped line break a comma, and a slash, are given the line before their own. -/
theorem escaped_break_passed :
    let quoted : Piece := .lexeme (.text "\n") ['"', '\\', '\n', '"']
    scan (Piece.text [quoted, .lexeme .comma [',']]) = .ok [⟨.text "\n", 1⟩, ⟨.comma, 1⟩] ∧
      scan (quoted.chars ++ ['/']) = .error (.format (.source 1 .unexpectedSlash)) ∧
      1 + quoted.chars.count '\n' = 2 := by
  decide

end Lexeme

end Switchboard
