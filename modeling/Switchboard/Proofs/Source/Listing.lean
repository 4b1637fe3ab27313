import Switchboard.Proofs.Atom.Made
import Switchboard.Proofs.Except
import Switchboard.Proofs.Source.Literal
import Switchboard.Source.Statement

/-!
# Listings, read as source text

The listing of a stream has a statement for each of its atoms.  Text can be read back as it was
written if each of its characters is visible or has an escape of one letter.

The scanner and the reader take what has been written so far, latest first.  What they make of the
next character depends on little: a word at the end may still go on, and the statement at the end
may still get arguments.  `flush` ends both.

Main result: `Atom.read_listing`, the statements that a listing is read as.
-/

namespace Switchboard

-- ---------------------------------------------------------------------------
-- Statements of atoms
-- ---------------------------------------------------------------------------

mutual

/-- The argument that an operand is written as. -/
def Operand.argument (line : Nat) (kind : FieldKind) : Operand → Argument
  | .int v => .literals [.ofWord (numberLiteral kind v)]
  | .str s => .literals [.text s]
  | .raw bytes => .literals (bytes.map fun b => .ofWord (byteLiteral b))
  | .gid g => .literals [.ofWord g.chars]
  | .stream atoms => .stream (Atom.statements line atoms)

/-- The arguments that operands are written as, for the fields in order. -/
def Operand.arguments (line : Nat) : List FieldKind → List Operand → List Argument
  | kind :: kinds, op :: ops => op.argument line kind :: Operand.arguments line kinds ops
  | _, _ => []

/-- The statement that an atom is written as, on the given line. -/
def Atom.statement (line : Nat) : Atom → Statement
  | .mk s ops _ => .mk s line (Operand.arguments line s.fields ops)

/-- The statements that atoms are written as, all on the given line. -/
def Atom.statements (line : Nat) : List Atom → List Statement
  | [] => []
  | a :: as => a.statement line :: Atom.statements line as

end

theorem Atom.statements_eq_map (line : Nat) (atoms : List Atom) :
    Atom.statements line atoms = atoms.map (·.statement line) := by
  induction atoms with
  | nil => rfl
  | cons a atoms ih => rw [statements, ih, List.map_cons]

/-- Whether a listing writes a character so that it is read back: as itself, or with an escape of
one letter other than that of the null character. -/
def Text.isLegible (c : Char) : Bool :=
  c = '\t' || c = '\r' || c = '\n' || c = '\\' || c = '"' || isVisible c

/-- Whether a listing writes an operand so that it is read back: text that is legible, and a block
of bytes that is not empty.  Nothing is written for an empty block. -/
def Operand.IsLegible : Operand → Prop
  | str s => ∀ c ∈ s.toList, Text.isLegible c = true
  | raw bytes => bytes ≠ []
  | _ => True

/-- Whether a listing writes an atom so that it is read back: the look-up built it, its operands are
legible, and the streams it carries have atoms. -/
structure Atom.IsLegible (a : Atom) : Prop where
  made : a.IsMade
  operands : ∀ op ∈ a.operands, op.IsLegible
  filled : ∀ inner, .stream inner ∈ a.operands → inner ≠ []

-- ---------------------------------------------------------------------------
-- The scanner
-- ---------------------------------------------------------------------------

namespace Scanner

/-- The state with the last word complete. -/
def State.flush (s : State) : State :=
  match s.mode with
  | .word numeric chars => s.emit (wordLexeme numeric chars) s.line
  | _ => s

variable {s : State} {line : Nat} {done : List Placed}

theorem State.mode_of_flush (h : s.flush = ⟨.between, line, done⟩) :
    s = ⟨.between, line, done⟩ ∨ ∃ numeric chars, s.mode = .word numeric chars := by
  unfold flush at h
  split at h
  · next numeric chars hmode => exact .inr ⟨numeric, chars, hmode⟩
  · exact .inl h

/-- A character that belongs to no word ends the last one. -/
theorem State.step_of_flush (h : s.flush = ⟨.between, line, done⟩) {c : Char}
    (hword : isWordChar c = false) (hdash : c ≠ '-') :
    s.step c = State.begin ⟨.between, line, done⟩ c := by
  rcases mode_of_flush h with rfl | ⟨numeric, chars, hmode⟩
  · rfl
  · rw [flush, hmode] at h
    dsimp only at h
    rw [step, hmode]
    dsimp only
    have hends : ¬(isWordChar c = true ∨ (numeric = true ∧ c = '-')) := by
      rintro (hc | hc)
      · rw [hword] at hc
        cases hc
      · exact hdash hc.2
    rw [if_neg hends, h]

theorem State.finish_of_flush (h : s.flush = ⟨.between, line, done⟩) :
    s.finish = .ok done.reverse := by
  rcases mode_of_flush h with rfl | ⟨numeric, chars, hmode⟩
  · rfl
  · rw [flush, hmode] at h
    dsimp only at h
    rw [finish, hmode]
    dsimp only
    rw [h]

theorem foldlM_wordChars {numeric : Bool} {chars : List Char} {word : List Char}
    (h : ∀ c ∈ word, isWordChar c = true ∨ (numeric = true ∧ c = '-')) :
    word.foldlM State.step ⟨.word numeric chars, line, done⟩ =
      .ok ⟨.word numeric (word.reverse ++ chars), line, done⟩ := by
  induction word generalizing chars with
  | nil => rfl
  | cons c rest ih =>
    obtain ⟨hc, hrest⟩ := List.forall_mem_cons.mp h
    rw [List.foldlM_cons, State.step]
    dsimp only
    rw [if_pos hc, ok_bind, ih hrest, List.reverse_cons, List.append_assoc, List.singleton_append]

/-- A character that starts a word starts nothing else. -/
theorem begin_of_isWordChar {c : Char} (h : isWordChar c = true) :
    State.begin ⟨.between, line, done⟩ c = .ok ⟨.word (Text.isDigit c) [c], line, done⟩ := by
  have hblank : Text.isBlank c = false := isBlank_of_isWordChar h
  have hne {d : Char} (hd : isWordChar d = false) : c ≠ d := fun heq => by
    rw [heq, hd] at h
    cases h
  rw [State.begin, if_neg (hne (by decide)), if_neg (by rw [hblank]; decide),
    if_neg (hne (by decide)), if_neg (hne (by decide)), if_neg (hne (by decide)),
    if_neg (hne (by decide)), if_neg (hne (by decide)), if_pos h]

/-- The characters of a word are held until it ends. -/
theorem foldlM_isWord {first : Char} {rest : List Char} (h : IsWord (first :: rest)) :
    (first :: rest).foldlM State.step ⟨.between, line, done⟩ =
      .ok ⟨.word (Text.isDigit first) (first :: rest).reverse, line, done⟩ := by
  rw [List.foldlM_cons, State.step, List.reverse_cons]
  dsimp only
  rw [begin_of_isWordChar h.1, ok_bind]
  exact foldlM_wordChars h.2

theorem wordLexeme_reverse (first : Char) (rest : List Char) :
    wordLexeme (Text.isDigit first) (first :: rest).reverse = .ofWord (first :: rest) := by
  rw [wordLexeme, List.reverse_reverse, Lexeme.ofWord, List.head?_cons, Option.any_some]

/-- A word is scanned as one lexeme, once it ends. -/
theorem foldlM_word (line : Nat) (done : List Placed) {word : List Char} (h : IsWord word) :
    ∃ s, word.foldlM State.step ⟨.between, line, done⟩ = .ok s ∧
      s.flush = ⟨.between, line, ⟨.ofWord word, line⟩ :: done⟩ := by
  cases word with
  | nil => cases h
  | cons first rest =>
    refine ⟨_, foldlM_isWord h, ?_⟩
    rw [State.flush, ← wordLexeme_reverse]
    rfl

/-- A legible character is scanned as it stands for. -/
theorem foldlM_escapeChar {c : Char} (h : Text.isLegible c = true) (start : Nat)
    (chars : List Char) :
    (Text.escapeChar '"' c).foldlM State.step ⟨.quote start chars, line, done⟩ =
      .ok ⟨.quote start (c :: chars), line, done⟩ := by
  rw [Text.isLegible] at h
  simp only [Bool.or_eq_true, decide_eq_true_eq] at h
  rcases h with ((((rfl | rfl) | rfl) | rfl) | rfl) | hvisible
  · rfl
  · rfl
  · rfl
  · rfl
  · rfl
  · have hnull : c ≠ '\x00' := by
      rintro rfl
      exact absurd hvisible (by decide)
    rw [Text.escapeChar, if_neg hnull]
    split_ifs with htab hcr hnl hback hquote
    · subst htab; rfl
    · subst hcr; rfl
    · subst hnl; rfl
    · subst hback; rfl
    · subst hquote; rfl
    · rw [List.foldlM_cons, State.step]
      dsimp only
      rw [if_neg hquote, if_neg hback, if_neg hnl]
      rfl

/-- Legible text between quotes is scanned as the text. -/
theorem foldlM_quotedChars {content : List Char} (h : ∀ c ∈ content, Text.isLegible c = true) :
    (Text.quotedChars content).foldlM State.step ⟨.between, line, done⟩ =
      .ok ⟨.between, line, ⟨.text (String.ofList content), line⟩ :: done⟩ := by
  have hcontent (chars : List Char) :
      (content.flatMap (Text.escapeChar '"')).foldlM State.step ⟨.quote line chars, line, done⟩ =
        .ok ⟨.quote line (content.reverse ++ chars), line, done⟩ := by
    induction content generalizing chars with
    | nil => rfl
    | cons c rest ih =>
      obtain ⟨hc, hrest⟩ := List.forall_mem_cons.mp h
      rw [List.flatMap_cons, List.foldlM_append, foldlM_escapeChar hc, ok_bind, ih hrest,
        List.reverse_cons, List.append_assoc, List.singleton_append]
  have hquote : State.step ⟨.between, line, done⟩ '"' = .ok ⟨.quote line [], line, done⟩ := rfl
  rw [Text.quotedChars, List.foldlM_cons, hquote, ok_bind, List.foldlM_append, hcontent, ok_bind,
    List.append_nil, List.foldlM_cons, State.step]
  dsimp only
  rw [if_pos rfl, List.reverse_reverse]
  rfl

end Scanner

-- ---------------------------------------------------------------------------
-- The reader
-- ---------------------------------------------------------------------------

/-- Whether a lexeme is part of an argument made of literals. -/
def Lexeme.isLiteral : Lexeme → Bool
  | name _ | literal _ | text _ => true
  | opening | closing | comma => false

theorem Lexeme.isLiteral_ofWord (word : List Char) : (Lexeme.ofWord word).isLiteral = true := by
  unfold ofWord
  split <;> rfl

namespace Reader

/-- The state with the last statement complete, if it has no arguments so far. -/
def State.flush (r : State) : State :=
  match r.mode with
  | .named signature line => r.complete signature line []
  | _ => r

variable {r next : State} {pending : List Pending} {before : List Statement} {signature : Signature}
  {line : Nat} {arguments : List Argument}

/-- A lexeme that starts no arguments ends the last statement. -/
theorem State.step_of_flush (h : r.flush = ⟨pending, before, .statement⟩) {t : Placed}
    (hopening : t.lexeme ≠ .opening) : r.step t = State.begin ⟨pending, before, .statement⟩ t := by
  unfold flush at h
  rw [step]
  split at h
  · next hmode =>
    rw [hmode]
    dsimp only
    rw [if_neg hopening, h]
  · rw [h]

theorem State.finish_of_flush (h : r.flush = ⟨[], before, .statement⟩) :
    r.finish = .ok before.reverse := by
  unfold flush at h
  rw [finish]
  split at h
  · next hmode =>
    rw [hmode]
    dsimp only
    rw [h]
    rfl
  · rw [h]
    rfl

/-- Whether the name of an atom starts a statement as in the state `base`. -/
def State.Admits (r base : State) : Prop :=
  ∀ word line, r.step ⟨.name word, line⟩ = base.begin ⟨.name word, line⟩

theorem State.admits_of_flush (h : r.flush = ⟨pending, before, .statement⟩) :
    r.Admits ⟨pending, before, .statement⟩ :=
  fun _ _ => step_of_flush h Lexeme.noConfusion

/-- Where a nested stream is due, a name is its first statement. -/
theorem State.admits_argument (h : signature.fields[arguments.length]? = some .stream) :
    State.Admits ⟨pending, before, .argument signature line arguments⟩
      ⟨⟨signature, line, arguments, before⟩ :: pending, [], .statement⟩ := by
  intro word n
  rw [step]
  dsimp only
  rw [if_neg Lexeme.noConfusion, h]

theorem State.step_name {s : Signature} {n : Nat} (h : r.Admits ⟨pending, before, .statement⟩)
    (hknown : Signature.byName? s.name = some s) :
    r.step ⟨.name s.name, n⟩ = .ok ⟨pending, before, .named s n⟩ := by
  rw [h, begin]
  dsimp only
  rw [hknown]

/-- A nested stream ends, and with it the statement around it. -/
theorem State.step_closing_of_flush {n : Nat} {inner : List Statement}
    (h : r.flush = ⟨⟨signature, line, arguments, before⟩ :: pending, inner, .statement⟩) :
    r.step ⟨.closing, n⟩ =
      .ok ⟨pending, .mk signature line (.stream inner.reverse :: arguments).reverse :: before,
        .statement⟩ := by
  rw [step_of_flush h Lexeme.noConfusion]
  rfl

/-- A literal is added to the argument. -/
theorem State.takeLiteral_of_isLiteral {lexemes : List Lexeme} {t : Placed}
    (h : t.lexeme.isLiteral = true) :
    r.takeLiteral signature line arguments lexemes t =
      .ok { r with mode := .literal signature line arguments (t.lexeme :: lexemes) } := by
  obtain ⟨lexeme, n⟩ := t
  cases lexeme <;> first | rfl | cases h

/-- The first literal of an argument. -/
theorem State.step_argument {kind : FieldKind} {t : Placed} (h : t.lexeme.isLiteral = true)
    (hkind : signature.fields[arguments.length]? = some kind) (hplain : kind ≠ .stream) :
    State.step ⟨pending, before, .argument signature line arguments⟩ t =
      .ok ⟨pending, before, .literal signature line arguments [t.lexeme]⟩ := by
  have hclosing : t.lexeme ≠ .closing := by
    intro heq
    rw [heq] at h
    cases h
  rw [step]
  dsimp only
  rw [if_neg hclosing, hkind]
  cases kind with
  | stream => exact absurd rfl hplain
  | _ => exact takeLiteral_of_isLiteral h

end Reader

-- ---------------------------------------------------------------------------
-- Scanning and reading at once
-- ---------------------------------------------------------------------------

namespace Reader

/-- What has been written, latest first, brings the reader into a state, and the scanner is between
lexemes. -/
def Reaches (out : List Char) (line : Nat) (r : State) : Prop :=
  ∃ done, out.reverse.foldlM Scanner.State.step Scanner.start = .ok ⟨.between, line, done⟩ ∧
    done.reverse.foldlM State.step start = .ok r

/-- What has been written, latest first, brings the reader into a state, once the last word ends. -/
def Settles (out : List Char) (line : Nat) (r : State) : Prop :=
  ∃ s done, out.reverse.foldlM Scanner.State.step Scanner.start = .ok s ∧
    s.flush = ⟨.between, line, done⟩ ∧ done.reverse.foldlM State.step start = .ok r

variable {out : List Char} {line : Nat} {r next : State}

theorem Reaches.settles (h : Reaches out line r) : Settles out line r := by
  obtain ⟨done, hscan, hread⟩ := h
  exact ⟨_, done, hscan, rfl, hread⟩

/-- A character that is no part of a word is taken between lexemes. -/
theorem Settles.delimiter (h : Settles out line r) {c : Char} (hword : isWordChar c = false)
    (hdash : c ≠ '-') :
    ∃ done, (c :: out).reverse.foldlM Scanner.State.step Scanner.start =
        Scanner.State.begin ⟨.between, line, done⟩ c ∧
      done.reverse.foldlM State.step start = .ok r := by
  obtain ⟨s, done, hscan, hflush, hread⟩ := h
  refine ⟨done, ?_, hread⟩
  rw [foldlM_reverse_cons hscan, Scanner.State.step_of_flush hflush hword hdash]

theorem Settles.blank (h : Settles out line r) : Reaches (' ' :: out) line r := by
  obtain ⟨done, hscan, hread⟩ := h.delimiter (c := ' ') (by decide) (by decide)
  exact ⟨done, hscan, hread⟩

theorem Settles.newline (h : Settles out line r) : Reaches ('\n' :: out) (line + 1) r := by
  obtain ⟨done, hscan, hread⟩ := h.delimiter (c := '\n') (by decide) (by decide)
  exact ⟨done, hscan, hread⟩

/-- A bracket or a comma is a lexeme. -/
theorem Settles.opening (h : Settles out line r) (hstep : r.step ⟨.opening, line⟩ = .ok next) :
    Reaches ('<' :: out) line next := by
  obtain ⟨done, hscan, hread⟩ := h.delimiter (c := '<') (by decide) (by decide)
  exact ⟨⟨.opening, line⟩ :: done, hscan, (foldlM_reverse_cons hread _).trans hstep⟩

@[inherit_doc Settles.opening]
theorem Settles.closing (h : Settles out line r) (hstep : r.step ⟨.closing, line⟩ = .ok next) :
    Reaches ('>' :: out) line next := by
  obtain ⟨done, hscan, hread⟩ := h.delimiter (c := '>') (by decide) (by decide)
  exact ⟨⟨.closing, line⟩ :: done, hscan, (foldlM_reverse_cons hread _).trans hstep⟩

@[inherit_doc Settles.opening]
theorem Settles.comma (h : Settles out line r) (hstep : r.step ⟨.comma, line⟩ = .ok next) :
    Reaches (',' :: out) line next := by
  obtain ⟨done, hscan, hread⟩ := h.delimiter (c := ',') (by decide) (by decide)
  exact ⟨⟨.comma, line⟩ :: done, hscan, (foldlM_reverse_cons hread _).trans hstep⟩

/-- A word is a lexeme, once it ends. -/
theorem Reaches.word (h : Reaches out line r) {word : List Char} (hword : IsWord word)
    (hstep : r.step ⟨.ofWord word, line⟩ = .ok next) : Settles (word.reverseAux out) line next := by
  obtain ⟨done, hscan, hread⟩ := h
  obtain ⟨s, hs, hflush⟩ := Scanner.foldlM_word line done hword
  refine ⟨s, _, ?_, hflush, (foldlM_reverse_cons hread _).trans hstep⟩
  rw [List.reverseAux_eq, List.reverse_append, List.reverse_reverse, List.foldlM_append, hscan,
    ok_bind, hs]

/-- Legible text between quotes is a lexeme. -/
theorem Reaches.text (h : Reaches out line r) {content : String}
    (hlegible : ∀ c ∈ content.toList, Text.isLegible c = true)
    (hstep : r.step ⟨.text content, line⟩ = .ok next) :
    Reaches ((Text.quotedChars content.toList).reverseAux out) line next := by
  obtain ⟨done, hscan, hread⟩ := h
  refine ⟨⟨.text content, line⟩ :: done, ?_, (foldlM_reverse_cons hread _).trans hstep⟩
  rw [List.reverseAux_eq, List.reverse_append, List.reverse_reverse, List.foldlM_append, hscan,
    ok_bind, Scanner.foldlM_quotedChars hlegible, String.ofList_toList]

/-- The end of the text. -/
theorem Settles.finish (h : Settles out line r) :
    (Lexeme.scan out.reverse >>= Statement.read) = r.finish := by
  obtain ⟨s, done, hscan, hflush, hread⟩ := h
  rw [Lexeme.scan, hscan, ok_bind, Scanner.State.finish_of_flush hflush, ok_bind, Statement.read,
    hread, ok_bind]

end Reader

-- ---------------------------------------------------------------------------
-- Operands and atoms
-- ---------------------------------------------------------------------------

open Reader

section

variable {out : List Char} {line : Nat} {pending : List Pending} {before : List Statement}
  {s : Signature} {args : List Argument}

/-- An argument has been read but for the bracket or the comma after it. -/
def Reader.Awaits (out : List Char) (line : Nat) (pending : List Pending) (before : List Statement)
    (s : Signature) (args : List Argument) (kind : FieldKind) (arg : Argument) : Prop :=
  ∃ r, Settles out line r ∧
    r.step ⟨.closing, line⟩ =
      .ok ⟨pending, .mk s line (args.reverse ++ [arg]) :: before, .statement⟩ ∧
    (kind ≠ .stream → r.step ⟨.comma, line⟩ = .ok ⟨pending, before, .argument s line (arg :: args)⟩)

theorem Reader.awaits_of_literals {kind : FieldKind} {lexemes : List Lexeme}
    (h : Settles out line ⟨pending, before, .literal s line args lexemes.reverse⟩) :
    Awaits out line pending before s args kind (.literals lexemes) := by
  refine ⟨_, h, ?_, fun _ => ?_⟩
  · simp only [State.step, State.takeLiteral, State.complete, List.reverse_reverse,
      List.reverse_cons]
  · simp only [State.step, State.takeLiteral, List.reverse_reverse]

theorem joinWith_cons_cons (separator first next : List Char) (rest : List (List Char)) :
    joinWith separator (first :: next :: rest) =
      first ++ (separator ++ joinWith separator (next :: rest)) :=
  rfl

/-- A word is an argument of its own. -/
theorem Reader.awaits_word {kind : FieldKind} {word : List Char}
    (hr : Reaches out line ⟨pending, before, .argument s line args⟩)
    (hkind : s.fields[args.length]? = some kind) (hplain : kind ≠ .stream) (hword : IsWord word) :
    Awaits (word.reverseAux out) line pending before s args kind (.literals [.ofWord word]) := by
  have hsettles := hr.word hword
    (State.step_argument (t := ⟨_, line⟩) (Lexeme.isLiteral_ofWord word) hkind hplain)
  exact awaits_of_literals hsettles

/-- Legible text between quotes is an argument of its own. -/
theorem Reader.awaits_text {kind : FieldKind} {content : String}
    (hr : Reaches out line ⟨pending, before, .argument s line args⟩)
    (hkind : s.fields[args.length]? = some kind) (hplain : kind ≠ .stream)
    (hlegible : ∀ c ∈ content.toList, Text.isLegible c = true) :
    Awaits ((Text.quotedChars content.toList).reverseAux out) line pending before s args kind
      (.literals [.text content]) := by
  have hreaches := hr.text hlegible
    (State.step_argument (t := ⟨.text content, line⟩) rfl hkind hplain)
  exact awaits_of_literals hreaches.settles

/-- Literals that are words, with blanks between them. -/
theorem Reader.settles_words {words : List (List Char)} {word : List Char} {lexemes : List Lexeme}
    {r : State} (hr : Reaches out line r)
    (hstep : r.step ⟨.ofWord word, line⟩ =
      .ok ⟨pending, before, .literal s line args (.ofWord word :: lexemes)⟩)
    (hwords : ∀ w ∈ word :: words, IsWord w) :
    Settles ((joinWith [' '] (word :: words)).reverseAux out) line
      ⟨pending, before, .literal s line args
        (((word :: words).map Lexeme.ofWord).reverse ++ lexemes)⟩ := by
  induction words generalizing out word lexemes r with
  | nil =>
    rw [joinWith, List.intersperse_singleton, List.flatten_singleton]
    exact hr.word (hwords word List.mem_cons_self) hstep
  | cons next words ih =>
    obtain ⟨hword, hrest⟩ := List.forall_mem_cons.mp hwords
    have hblank := (hr.word hword hstep).blank
    have hnext := ih hblank (State.takeLiteral_of_isLiteral (Lexeme.isLiteral_ofWord next)) hrest
    rw [joinWith_cons_cons, List.map_cons]
    simp only [List.reverseAux_eq, List.reverse_append, List.reverse_cons, List.append_assoc,
      List.singleton_append] at hnext ⊢
    exact hnext

/-- Words with blanks between them are one argument. -/
theorem Reader.awaits_words {kind : FieldKind} {word : List Char} {words : List (List Char)}
    (hr : Reaches out line ⟨pending, before, .argument s line args⟩)
    (hkind : s.fields[args.length]? = some kind) (hplain : kind ≠ .stream)
    (hwords : ∀ w ∈ word :: words, IsWord w) :
    Awaits ((joinWith [' '] (word :: words)).reverseAux out) line pending before s args kind
      (.literals ((word :: words).map Lexeme.ofWord)) := by
  have hsettles := settles_words hr
    (State.step_argument (t := ⟨_, line⟩) (Lexeme.isLiteral_ofWord word) hkind hplain) hwords
  rw [List.append_nil] at hsettles
  exact awaits_of_literals hsettles

/-- Only a nested stream is given where one is due. -/
theorem FieldKind.ne_stream_of_check {kind : FieldKind} {name : String} {index : Nat} {op : Operand}
    (h : kind.check name index op = .ok ()) (hop : ∀ inner, op ≠ .stream inner) :
    kind ≠ .stream := by
  rintro rfl
  cases op with
  | stream inner => exact hop inner rfl
  | _ => cases h

/-- The next field. -/
theorem Signature.field_of_drop {kind : FieldKind} {kinds : List FieldKind} {n : Nat}
    (h : s.fields.drop n = kind :: kinds) :
    s.fields[n]? = some kind ∧ s.fields.drop (n + 1) = kinds := by
  constructor
  · rw [← Nat.add_zero n, ← List.getElem?_drop, h]
    rfl
  · rw [← List.drop_drop, h]
    rfl

end

section

variable {line : Nat}

mutual

/-- An operand is read as its argument. -/
theorem Operand.awaits_charsOnto :
    ∀ (op : Operand) {out : List Char} {pending : List Pending} {before : List Statement}
      {s : Signature} {args : List Argument} {kind : FieldKind} {index : Nat},
      kind.check s.name index op = .ok () → op.IsLegible →
      (∀ inner, .stream inner = op → inner ≠ [] ∧ Atom.Everywhere Atom.IsLegible inner) →
      s.fields[args.length]? = some kind →
      Reaches out line ⟨pending, before, .argument s line args⟩ →
      Awaits (op.charsOnto kind out) line pending before s args kind (op.argument line kind)
  | .int v, out, pending, before, s, args, kind, index, hcheck, _, _, hkind, hr => by
    rw [Operand.charsOnto, Operand.argument]
    exact awaits_word hr hkind (FieldKind.ne_stream_of_check hcheck nofun)
      (isWord_numberLiteral kind v)
  | .str content, out, pending, before, s, args, kind, index, hcheck, hlegible, _, hkind, hr => by
    rw [Operand.charsOnto, Operand.argument]
    exact awaits_text hr hkind (FieldKind.ne_stream_of_check hcheck nofun) hlegible
  | .raw [], out, pending, before, s, args, kind, index, _, hlegible, _, _, _ =>
    absurd rfl hlegible
  | .raw (b :: bytes), out, pending, before, s, args, kind, index, hcheck, _, _, hkind, hr => by
    rw [Operand.charsOnto, Operand.argument]
    have hbytes : ∀ w ∈ (b :: bytes).map byteLiteral, IsWord w :=
      List.forall_mem_map.mpr fun b _ => isWord_byteLiteral b
    have hwords := awaits_words hr hkind (FieldKind.ne_stream_of_check hcheck nofun) hbytes
    rw [← List.map_cons, List.map_map] at hwords
    exact hwords
  | .gid gid, out, pending, before, s, args, kind, index, hcheck, _, _, hkind, hr => by
    rw [Operand.charsOnto, Operand.argument]
    exact awaits_word hr hkind (FieldKind.ne_stream_of_check hcheck nofun) gid.isWord_chars
  | .stream atoms, out, pending, before, s, args, kind, index, hcheck, _, hinner, hkind, hr => by
    rw [Operand.charsOnto, Operand.argument]
    obtain rfl : kind = .stream := by
      cases kind <;> first | rfl | cases hcheck
    obtain ⟨hfilled, hatoms⟩ := hinner atoms rfl
    obtain ⟨r, hsettles, hflush⟩ := Atom.settles_charsOntoEach [] atoms hfilled hatoms
      (State.admits_argument hkind) hr
    refine ⟨r, hsettles, ?_, fun hplain => absurd rfl hplain⟩
    rw [State.step_closing_of_flush hflush, List.append_nil, List.reverse_reverse,
      List.reverse_cons]

/-- Operands are read as their arguments. -/
theorem Operand.awaits_charsOntoEach :
    ∀ (separator : List Char) (args : List Argument) (ops : List Operand) {out : List Char}
      {pending : List Pending} {before : List Statement} {s : Signature} {kinds : List FieldKind},
      Operand.Fills s args.length kinds ops → s.fields.drop args.length = kinds → ops ≠ [] →
      (∀ op ∈ ops, op.IsLegible) →
      (∀ inner, .stream inner ∈ ops → inner ≠ [] ∧ Atom.Everywhere Atom.IsLegible inner) →
      Reaches (separator.reverseAux out) line ⟨pending, before, .argument s line args⟩ →
      ∃ r, Settles (Operand.charsOntoEach separator out kinds ops) line r ∧
        r.step ⟨.closing, line⟩ = .ok ⟨pending,
          .mk s line (args.reverse ++ Operand.arguments line kinds ops) :: before, .statement⟩
  | separator, args, [], out, pending, before, s, kinds, _, _, hne, _, _, _ => absurd rfl hne
  | separator, args, op :: ops, out, pending, before, s, kind :: kinds, hfills, hdrop, _, hlegible,
      hinner, hr => by
    obtain ⟨hkind, hrest⟩ := Signature.field_of_drop hdrop
    obtain ⟨hop, hops⟩ := List.forall_mem_cons.mp hlegible
    have hawaits {index : Nat} (hcheck : kind.check s.name index op = .ok ()) :=
      Operand.awaits_charsOnto op hcheck hop
        (fun inner heq => hinner inner (heq ▸ List.mem_cons_self)) hkind hr
    cases hfills with
    | last width check optional =>
      obtain ⟨r, hsettles, hclosing, -⟩ := hawaits check
      refine ⟨r, ?_, ?_⟩
      · rw [Operand.charsOntoEach, Operand.charsOntoEach]
        · exact hsettles
        · rintro _ _ _ _ ⟨⟩
      · rw [Operand.arguments, Operand.arguments]
        · exact hclosing
        · rintro _ _ _ _ ⟨⟩
    | fixed width check rest =>
      obtain ⟨r, hsettles, hclosing, hcomma⟩ := hawaits check
      rw [Operand.charsOntoEach, Operand.arguments]
      cases ops with
      | nil =>
        refine ⟨r, ?_, ?_⟩
        · rw [Operand.charsOntoEach]
          · exact hsettles
          · rintro _ _ _ _ _ ⟨⟩
        · rw [Operand.arguments]
          · exact hclosing
          · rintro _ _ _ _ _ ⟨⟩
      | cons next ops =>
        have hplain : kind ≠ .stream := by
          rintro rfl
          cases width
        have hnext := (hsettles.comma (hcomma hplain)).settles.blank
        obtain ⟨r', hsettles', hclosing'⟩ := Operand.awaits_charsOntoEach [',', ' ']
          (op.argument line kind :: args) (next :: ops) rest hrest (List.cons_ne_nil _ _) hops
          (fun inner hmem => hinner inner (List.mem_cons_of_mem _ hmem)) hnext
        rw [List.reverse_cons, List.append_assoc, List.singleton_append] at hclosing'
        exact ⟨r', hsettles', hclosing'⟩

/-- An atom is read as its statement. -/
theorem Atom.settles_charsOnto :
    ∀ (a : Atom) {out : List Char} {pending : List Pending} {before : List Statement}
      {r : Reader.State}, Atom.Everywhere Atom.IsLegible [a] →
      r.Admits ⟨pending, before, .statement⟩ → Reaches out line r →
      ∃ r', Settles (a.charsOnto out) line r' ∧
        r'.flush = ⟨pending, a.statement line :: before, .statement⟩
  | .mk s ops d, out, pending, before, r, hlegible, hadmits, hr => by
    obtain ⟨⟨hmade, hops, hfilled⟩, hinner, -⟩ := Atom.everywhere_cons.mp hlegible
    obtain ⟨hknown, -, -⟩ := Atom.isMade_iff.mp hmade
    have hstep := State.step_name (n := line) hadmits hknown
    rw [← String.ofList_toList (s := s.name),
      ← Lexeme.ofWord_of_isName (Signature.isName_of_byName? hknown)] at hstep
    have hnamed := hr.word (isWord_of_isName (Signature.isName_of_byName? hknown)) hstep
    rw [Atom.statement]
    cases ops with
    | nil =>
      refine ⟨_, hnamed, ?_⟩
      rw [Operand.arguments]
      · rfl
      · rintro _ _ _ _ _ ⟨⟩
    | cons op ops =>
      have hopening := hnamed.blank.settles.opening rfl
      obtain ⟨r', hsettles, hclosing⟩ := Operand.awaits_charsOntoEach [] [] (op :: ops)
        (Operand.fills_of_isMade hmade) rfl (List.cons_ne_nil _ _) hops
        (fun inner hmem => ⟨hfilled inner hmem, hinner inner hmem⟩) hopening
      exact ⟨_, (hsettles.closing hclosing).settles, rfl⟩

/-- Atoms are read as their statements. -/
theorem Atom.settles_charsOntoEach :
    ∀ (separator : List Char) (atoms : List Atom) {out : List Char} {pending : List Pending}
      {before : List Statement} {r : Reader.State}, atoms ≠ [] →
      Atom.Everywhere Atom.IsLegible atoms → r.Admits ⟨pending, before, .statement⟩ →
      Reaches (separator.reverseAux out) line r →
      ∃ r', Settles (Atom.charsOntoEach separator out atoms) line r' ∧
        r'.flush = ⟨pending, (Atom.statements line atoms).reverse ++ before, .statement⟩
  | separator, [], out, pending, before, r, hne, _, _, _ => absurd rfl hne
  | separator, a :: atoms, out, pending, before, r, _, hlegible, hadmits, hr => by
    obtain ⟨hhere, hrest⟩ := Atom.everywhere_cons_iff.mp hlegible
    obtain ⟨r', hsettles, hflush⟩ := Atom.settles_charsOnto a hhere hadmits hr
    rw [Atom.charsOntoEach, Atom.statements, List.reverse_cons, List.append_assoc,
      List.singleton_append]
    cases atoms with
    | nil => exact ⟨r', hsettles, hflush⟩
    | cons next atoms =>
      exact Atom.settles_charsOntoEach [' '] (next :: atoms) (List.cons_ne_nil _ _) hrest
        (State.admits_of_flush hflush) hsettles.blank

end

end

-- ---------------------------------------------------------------------------
-- Listings
-- ---------------------------------------------------------------------------

/-! What an atom is written as does not depend on what has been written before it. -/

mutual

theorem Operand.charsOnto_eq (kind : FieldKind) (out : List Char) :
    ∀ op : Operand, op.charsOnto kind out = op.charsOnto kind [] ++ out
  | .int _ | .str _ | .raw _ | .gid _ => by
    rw [Operand.charsOnto, Operand.charsOnto]
    exact List.reverseAux_eq_append
  | .stream atoms => by
    rw [Operand.charsOnto, Operand.charsOnto, Atom.charsOntoEach_eq]

theorem Operand.charsOntoEach_eq (separator out : List Char) :
    ∀ (kinds : List FieldKind) (ops : List Operand), Operand.charsOntoEach separator out kinds ops =
      Operand.charsOntoEach separator [] kinds ops ++ out
  | [], ops => by
    rw [Operand.charsOntoEach, Operand.charsOntoEach] <;> first | rfl | rintro _ _ _ _ ⟨⟩
  | kind :: kinds, [] => by
    rw [Operand.charsOntoEach, Operand.charsOntoEach] <;> first | rfl | rintro _ _ _ _ _ ⟨⟩
  | kind :: kinds, op :: ops => by
    rw [Operand.charsOntoEach, Operand.charsOntoEach, Operand.charsOntoEach_eq _ _ kinds ops,
      Operand.charsOnto_eq _ _ op]
    rw [Operand.charsOntoEach_eq _ (op.charsOnto kind (separator.reverseAux [])) kinds ops,
      Operand.charsOnto_eq _ (separator.reverseAux []) op]
    simp only [List.reverseAux_eq, List.append_nil, List.append_assoc]

theorem Atom.charsOnto_eq (out : List Char) : ∀ a : Atom, a.charsOnto out = a.charsOnto [] ++ out
  | .mk s [] d => by
    rw [Atom.charsOnto, Atom.charsOnto]
    exact List.reverseAux_eq_append
  | .mk s (op :: ops) d => by
    rw [Atom.charsOnto, Atom.charsOnto, Operand.charsOntoEach_eq _ _ s.fields (op :: ops)]
    rw [Operand.charsOntoEach_eq _ ('<' :: ' ' :: s.name.toList.reverseAux []) s.fields (op :: ops)]
    simp only [List.reverseAux_eq, List.append_nil, List.append_assoc, List.cons_append]

theorem Atom.charsOntoEach_eq (separator out : List Char) :
    ∀ atoms : List Atom, Atom.charsOntoEach separator out atoms =
      Atom.charsOntoEach separator [] atoms ++ out
  | [] => by rw [Atom.charsOntoEach, Atom.charsOntoEach, List.nil_append]
  | a :: atoms => by
    rw [Atom.charsOntoEach, Atom.charsOntoEach, Atom.charsOntoEach_eq _ _ atoms,
      Atom.charsOnto_eq _ a]
    rw [Atom.charsOntoEach_eq _ (a.charsOnto (separator.reverseAux [])) atoms,
      Atom.charsOnto_eq (separator.reverseAux []) a]
    simp only [List.reverseAux_eq, List.append_nil, List.append_assoc]

end

theorem Reader.Reaches.blanks {out : List Char} {line : Nat} {r : State} (h : Reaches out line r) :
    ∀ n : Nat, Reaches (List.replicate n ' ' ++ out) line r
  | 0 => h
  | n + 1 => (h.blanks n).settles.blank

/-- Each line of a listing is read as a statement. -/
theorem Atom.reaches_lines {atoms : List Atom} {out : List Char} {line : Nat} {r : Reader.State}
    {before : List Statement} (h : Everywhere IsLegible atoms) (hr : Reaches out line r)
    (hflush : r.flush = ⟨[], before, .statement⟩) :
    ∃ r', Reaches ((atoms.flatMap (·.line.toList)).reverse ++ out) (line + atoms.length) r' ∧
      r'.flush = ⟨[], ((atoms.zipIdx line).map fun p => p.1.statement p.2).reverse ++ before,
        .statement⟩ := by
  induction atoms generalizing out line r before with
  | nil => exact ⟨r, hr, hflush⟩
  | cons a atoms ih =>
    obtain ⟨hhere, hrest⟩ := everywhere_cons_iff.mp h
    obtain ⟨r', hsettles, hflush'⟩ := settles_charsOnto a hhere (State.admits_of_flush hflush)
      (hr.blanks (2 * a.depth.toNat))
    obtain ⟨final, hfinal, hflushFinal⟩ := ih hrest hsettles.newline hflush'
    refine ⟨final, ?_, ?_⟩
    · have hline : a.line.toList.reverse ++ out =
          '\n' :: a.charsOnto (List.replicate (2 * a.depth.toNat) ' ' ++ out) := by
        rw [toList_line, charsOnto_eq, chars]
        simp only [List.reverse_append, List.reverse_reverse, List.reverse_replicate,
          List.reverse_cons, List.reverse_nil, List.nil_append, List.append_assoc, List.cons_append]
      rw [List.flatMap_cons, List.reverse_append, List.append_assoc, hline, List.length_cons,
        Nat.add_comm atoms.length, ← Nat.add_assoc]
      exact hfinal
    · rw [List.zipIdx_cons, List.map_cons, List.reverse_cons, List.append_assoc,
        List.singleton_append]
      exact hflushFinal

/-- The listing of legible atoms is read as their statements, each on its line. -/
theorem Atom.read_listing {atoms : List Atom} (h : Everywhere IsLegible atoms) :
    (Lexeme.scan (listing atoms).toList >>= Statement.read) =
      .ok ((atoms.zipIdx 1).map fun p => p.1.statement p.2) := by
  have hstart : Reaches [] 1 Reader.start := ⟨[], rfl, rfl⟩
  obtain ⟨r, hreaches, hflush⟩ := reaches_lines h hstart rfl
  have hread := hreaches.settles.finish
  rw [State.finish_of_flush hflush] at hread
  rw [listing, String.toList_join, List.flatMap_map]
  simpa using hread

end Switchboard
