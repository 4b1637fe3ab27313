import Switchboard.Toml.Quoted
import Switchboard.Toml.Scalar

/-!
# Documents

A document is a sequence of lines: headers that open tables, and keys with their values, which go
into the table opened last.  Values nest, but not without limit.
-/

namespace Switchboard.Toml

/-- How deep values and keys may nest. -/
def nestingLimit : Nat := 79

-- ---------------------------------------------------------------------------
-- Keys
-- ---------------------------------------------------------------------------

/-- Whether a character may stand in a key without quotes. -/
def isKeyChar (c : Char) : Bool :=
  c.isAlphanum || c == '-' || c == '_'

/-- One part of a dotted key. -/
def keyPart : Reader String := do
  match ← peek with
  | some '"' | some '\'' => quotedLine
  | _ =>
    let chars ← takeWhile isKeyChar
    if chars.isEmpty then failure else return String.ofList chars

/-- A dotted key of at most so many parts, and one more before them: the parts before the last one
and the last one. -/
def keyWithin : Nat → Reader (List String × String)
  | 0 => failure
  | limit + 1 => do
    blanks
    let part ← keyPart
    blanks
    if ← char? '.' then
      let (path, key) ← keyWithin limit
      return (part :: path, key)
    else return ([], part)

/-- A dotted key. -/
def dottedKey : Reader (List String × String) := keyWithin nestingLimit

-- ---------------------------------------------------------------------------
-- Values
-- ---------------------------------------------------------------------------

/-- A value that does not nest. -/
def scalar : Reader Toml := do
  match ← peek with
  | some '"' | some '\'' => return .text (← quotedText)
  | _ =>
    let word ← takeWhile isWordChar
    let cs ← get
    match ofWord? word, cs with
    | none, _ => failure
    | some value, ' ' :: more =>
      if isDay word && isOffsetTime (more.takeWhile isWordChar) then
        set (more.dropWhile isWordChar)
      return value
    | some value, _ => return value

/-- The items of an array up to its closing bracket, separated by commas, behind those of `done`,
which stand latest first. -/
def arrayItems (item : Reader Toml) : Nat → List Toml → Reader (List Toml)
  | 0, _ => failure
  | fuel + 1, done => do
    gap
    if ← char? ']' then return done.reverse
    let next ← item
    gap
    if ← char? ',' then arrayItems item fuel (next :: done)
    else
      char ']'
      return (next :: done).reverse

/-- A key with its value. -/
def pair (value : Reader Toml) : Reader ((List String × String) × Toml) := do
  let key ← dottedKey
  char '='
  blanks
  return (key, ← value)

/-- The entries of a table in braces up to its closing brace, separated by commas, added to those
before them. -/
def inlineEntries (value : Reader Toml) : Nat → Entries → Reader Entries
  | 0, _ => failure
  | fuel + 1, entries => do
    let ((path, key), value') ← pair value
    let entries ← insert path key value' entries
    blanks
    if ← char? ',' then inlineEntries value fuel entries
    else
      char '\x7d'
      return entries

/-- A value inside which others may nest to the given depth, and in which nothing has more than `size`
parts. -/
def valueWithin (size : Nat) : Nat → Reader Toml
  | 0 => scalar
  | depth + 1 => do
    if ← char? '[' then return .array (← arrayItems (valueWithin size depth) size [])
    else if ← char? '\x7b' then
      blanks
      if ← char? '\x7d' then return .table .inline []
      return .table .inline (← inlineEntries (valueWithin size depth) size [])
    else scalar

-- ---------------------------------------------------------------------------
-- Lines
-- ---------------------------------------------------------------------------

/-- What a line says. -/
inductive Line where
  | blank
  /-- Opens a table. -/
  | header (path : List String) (key : String)
  /-- Opens one of several tables of a name. -/
  | element (path : List String) (key : String)
  | entry (path : List String) (key : String) (value : Toml)

/-- A line without blanks at its front and without its end, of a document with `size` characters. -/
def lineContent (size : Nat) : Reader Line := do
  match ← peek with
  | none | some '\n' | some '#' => return .blank
  | some '[' =>
    char '['
    if ← char? '[' then
      let (path, key) ← dottedKey
      char ']'
      char ']'
      return .element path key
    else
      let (path, key) ← dottedKey
      char ']'
      return .header path key
  | some _ =>
    let ((path, key), value) ← pair (valueWithin (size + 1) nestingLimit)
    return .entry path key value

/-- The lines of a document with `size` characters, behind those of `done`, which stand latest
first. -/
def lines (size : Nat) : Nat → List Line → Reader (List Line)
  | 0, _ => failure
  | fuel + 1, done => do
    blanks
    let line ← lineContent size
    restOfLine
    match ← peek with
    | none => return (line :: done).reverse
    | some _ => lines size fuel (line :: done)

/-- Adds what a line says to a document, which is its entries and the header opened last. -/
def apply (document : List String × Entries) (line : Line) : Option (List String × Entries) := do
  let (header, root) := document
  match line with
  | .blank => return document
  | .header path key => return (path ++ [key], ← openTable path key root)
  | .element path key => return (path ++ [key], ← openElement path key root)
  | .entry path key value => return (header, ← insertUnder header path key value root)

/-- The entries of the document that a text contains, if it is one.  A byte order mark at its front
does not count. -/
def parse? (source : String) : Option Entries := do
  let cs := unifyLineEnds source.toList
  let cs := if cs.head? = some '\ufeff' then cs.drop 1 else cs
  let (found, _) ← lines cs.length cs.length.succ [] cs
  return (← found.foldlM apply ([], [])).2

end Switchboard.Toml
