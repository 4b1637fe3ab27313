import Switchboard.Text.Hex

/-!
# Writing text into documents

Text is written between double quotes if it can stand there as it is.  Otherwise single quotes are
tried, then tripled double quotes and tripled single quotes, and only at last is anything escaped.
-/

namespace Switchboard.Toml

/-- The length of the longest run of a character in a text, counting on from a run before it and a
longest run so far. -/
def longestRun (c : Char) (run longest : Nat) : List Char → Nat
  | [] => longest
  | d :: rest =>
    if d = c then longestRun c (run + 1) (max longest (run + 1)) rest
    else longestRun c 0 longest rest

/-- Whether a character can only be written as an escape, wherever it stands. -/
def isControl (c : Char) : Bool :=
  (c < ' ' && c != '\t' && c != '\n') || c == '\x7f'

/-- The written form of one character where escapes count.  Line ends stand for themselves if the
text may run over several lines. -/
def escapeChar (lines : Bool) (c : Char) : List Char :=
  if c = '\x08' then ['\\', 'b']
  else if c = '\t' then ['\\', 't']
  else if c = '\n' then if lines then ['\n'] else ['\\', 'n']
  else if c = '\x0c' then ['\\', 'f']
  else if c = '\r' then ['\\', 'r']
  else if c = '\\' then ['\\', '\\']
  else if isControl c then ['\\', 'u'] ++ (Text.hexWord (UInt16.ofNat c.toNat)).map Char.toUpper
  else [c]

/-- The written form of a text where escapes count and at most `limit` double quotes may follow one
another, given how many have just been written. -/
def escapeText (lines : Bool) (limit run : Nat) : List Char → List Char
  | [] => []
  | c :: rest =>
    if c = '"' then
      if run < limit then '"' :: escapeText lines limit (run + 1) rest
      else '\\' :: '"' :: escapeText lines limit 0 rest
    else escapeChar lines c ++ escapeText lines limit 0 rest

/-- A text between tripled quotes; one that has line ends starts on a line of its own. -/
def tripled (quote : Char) (hasLines : Bool) (body : List Char) : List Char :=
  let quotes := [quote, quote, quote]
  quotes ++ (if hasLines then ['\n'] else []) ++ body ++ quotes

/-- The written form of a text. -/
def written (cs : List Char) : List Char :=
  let control := cs.any isControl
  let lines := cs.contains '\n'
  let doubles := longestRun '"' 0 0 cs
  let singles := longestRun '\'' 0 0 cs
  let escapes := cs.contains '\\'
  if !control && !escapes && doubles == 0 && !lines then
    '"' :: (escapeText false 0 0 cs ++ ['"'])
  else if !control && singles == 0 && !lines then '\'' :: (cs ++ ['\''])
  else if !control && !escapes && doubles ≤ 2 then tripled '"' lines (escapeText true 2 0 cs)
  else if !control && singles ≤ 2 then tripled '\'' lines cs
  else if lines then tripled '"' true (escapeText true 2 0 cs)
  else '"' :: (escapeText false 0 0 cs ++ ['"'])

end Switchboard.Toml
