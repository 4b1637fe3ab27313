import Switchboard.Script.Error
import Switchboard.Text.Blank
import Switchboard.Text.Decimal

/-!
# Lexemes of source text

Source text consists of names, literals that start with a digit, quoted text, brackets and commas.
White space separates them, and a comment runs from two slashes to the end of its line.

The scanner is a machine that takes one character at a time.  Its state says what the characters
since the last complete lexeme can still become, and on which line it stands.
-/

namespace Switchboard

/-- A unit of source text. -/
inductive Lexeme where
  /-- A word that starts with a letter or an underscore. -/
  | name (word : String)
  /-- A word that starts with a digit: a number, a byte or a global id. -/
  | literal (word : String)
  /-- Quoted text, with its escapes resolved. -/
  | text (content : String)
  | opening
  | closing
  | comma
  deriving Repr, DecidableEq

/-- How messages refer to a lexeme. -/
def Lexeme.describe : Lexeme → String
  | name word | literal word => Text.quoted word
  | text content => "string " ++ Text.quoted content
  | opening => "'<'"
  | closing => "'>'"
  | comma => "','"

/-- A lexeme and the line on which it starts. -/
structure Placed where
  lexeme : Lexeme
  line : Nat
  deriving Repr, DecidableEq

/-- Whether a character may stand in a word. -/
def isWordChar (c : Char) : Bool :=
  ('a' ≤ c && c ≤ 'z') || ('A' ≤ c && c ≤ 'Z') || Text.isDigit c || c == '_'

namespace Scanner

/-- What the scanner is in the middle of.  Characters are held latest first. -/
inductive Mode where
  /-- Nothing: the next character starts something new. -/
  | between
  /-- One slash. -/
  | slash
  /-- A comment. -/
  | comment
  /-- A word; if it started with a digit, dashes belong to it. -/
  | word (numeric : Bool) (chars : List Char)
  /-- Quoted text that started on the given line. -/
  | quote (start : Nat) (chars : List Char)
  /-- Quoted text after a backslash. -/
  | escape (start : Nat) (chars : List Char)
  deriving Repr, DecidableEq

/-- The state of the scanner: the current line and the complete lexemes, latest first. -/
structure State where
  mode : Mode
  line : Nat
  done : List Placed
  deriving Repr, DecidableEq

/-- The state before the first character. -/
def start : State := ⟨.between, 1, []⟩

/-- The lexeme of a complete word. -/
def wordLexeme (numeric : Bool) (chars : List Char) : Lexeme :=
  let word := String.ofList chars.reverse
  if numeric then .literal word else .name word

/-- Adds a lexeme that started on the given line. -/
def State.emit (s : State) (lexeme : Lexeme) (line : Nat) : State :=
  { s with mode := .between, done := ⟨lexeme, line⟩ :: s.done }

/-- Takes a character that starts something new. -/
def State.begin (s : State) (c : Char) : Except CompileError State :=
  if c = '\n' then .ok { s with mode := .between, line := s.line + 1 }
  else if Text.isBlank c then .ok { s with mode := .between }
  else if c = '/' then .ok { s with mode := .slash }
  else if c = '<' then .ok (s.emit .opening s.line)
  else if c = '>' then .ok (s.emit .closing s.line)
  else if c = ',' then .ok (s.emit .comma s.line)
  else if c = '"' then .ok { s with mode := .quote s.line [] }
  else if isWordChar c then .ok { s with mode := .word (Text.isDigit c) [c] }
  else .error (.format (.source s.line (.unexpectedCharacter c)))

/-- The character that an escaped character stands for. -/
def unescape (c : Char) : Char :=
  if c = 'n' then '\n' else if c = 'r' then '\r' else if c = 't' then '\t' else c

/-- Takes the next character. -/
def State.step (s : State) (c : Char) : Except CompileError State :=
  match s.mode with
  | .between => s.begin c
  | .slash =>
    if c = '/' then .ok { s with mode := .comment }
    else .error (.format (.source s.line .unexpectedSlash))
  | .comment => if c = '\n' then s.begin c else .ok s
  | .word numeric chars =>
    if isWordChar c ∨ (numeric ∧ c = '-') then .ok { s with mode := .word numeric (c :: chars) }
    else (s.emit (wordLexeme numeric chars) s.line).begin c
  | .quote start chars =>
    if c = '"' then .ok (s.emit (.text (String.ofList chars.reverse)) start)
    else if c = '\\' then .ok { s with mode := .escape start chars }
    else
      .ok { s with
        mode := .quote start (c :: chars)
        line := if c = '\n' then s.line + 1 else s.line }
  | .escape start chars => .ok { s with mode := .quote start (unescape c :: chars) }

/-- The lexemes once the text has ended. -/
def State.finish (s : State) : Except CompileError (List Placed) :=
  match s.mode with
  | .between | .comment => .ok s.done.reverse
  | .slash => .error (.format (.source s.line .unexpectedSlash))
  | .word numeric chars => .ok (s.emit (wordLexeme numeric chars) s.line).done.reverse
  | .quote start _ => .error (.format (.source start .unterminatedText))
  | .escape start chars => .ok (s.emit (.text (String.ofList chars.reverse)) start).done.reverse

end Scanner

/-- The lexemes of a source text, in order. -/
def Lexeme.scan (source : List Char) : Except CompileError (List Placed) := do
  (← source.foldlM Scanner.State.step Scanner.start).finish

end Switchboard
