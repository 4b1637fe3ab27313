/-!
# Reading text from the front

A reader takes characters off the front of a text, or fails.  Line ends are single characters here:
`unifyLineEnds` comes first.
-/

namespace Switchboard.Toml

/-- A function that takes characters off the front of a text, or fails. -/
abbrev Reader := StateT (List Char) Option

/-- Replaces a carriage return and a line feed after it by the line feed alone, behind the characters
of `done`, which stand latest first. -/
def unifyLineEndsOnto (done : List Char) : List Char → List Char
  | '\r' :: '\n' :: rest => unifyLineEndsOnto ('\n' :: done) rest
  | c :: rest => unifyLineEndsOnto (c :: done) rest
  | [] => done.reverse

/-- The text without the carriage returns that precede a line feed. -/
def unifyLineEnds (cs : List Char) : List Char :=
  unifyLineEndsOnto [] cs

/-- Whether a character separates words on a line. -/
def isBlank (c : Char) : Bool :=
  c == ' ' || c == '\t'

/-- Whether a character may stand in comments and quoted text. -/
def isPlain (c : Char) : Bool :=
  c == '\t' || (' ' ≤ c && c != '\x7f')

/-- The next character, which stays there. -/
def peek : Reader (Option Char) := fun cs => some (cs.head?, cs)

/-- Takes a given character. -/
def char (c : Char) : Reader Unit
  | d :: rest => if c = d then some ((), rest) else none
  | [] => none

/-- Takes a given character if it is next, and tells whether it was. -/
def char? (c : Char) : Reader Bool
  | d :: rest => if c = d then some (true, rest) else some (false, d :: rest)
  | [] => some (false, [])

/-- Takes characters for as long as they satisfy a condition. -/
def takeWhile (p : Char → Bool) : Reader (List Char) := fun cs =>
  some (cs.takeWhile p, cs.dropWhile p)

/-- Skips blanks. -/
def blanks : Reader Unit := do
  let _ ← takeWhile isBlank

/-- Takes the rest of a line: blanks, perhaps a comment, and the line end or the end of the text. -/
def restOfLine : Reader Unit := do
  blanks
  if ← char? '#' then
    let _ ← takeWhile isPlain
  match ← peek with
  | none => return
  | some _ => char '\n'

/-- The text after blanks, line ends and comments, each of which runs to a line end. -/
def afterGap (inComment : Bool) : List Char → Option (List Char)
  | [] => if inComment then none else some []
  | c :: rest =>
    if c = '\n' then afterGap false rest
    else if inComment then if isPlain c then afterGap true rest else none
    else if isBlank c then afterGap false rest
    else if c = '#' then afterGap true rest
    else some (c :: rest)

/-- Skips blanks, line ends and comments. -/
def gap : Reader Unit := fun cs => (afterGap false cs).map ((), ·)

end Switchboard.Toml
