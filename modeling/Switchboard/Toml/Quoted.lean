import Switchboard.Text.Hex
import Switchboard.Toml.Reader

/-!
# Quoted text in documents

Text stands between quotes of one of two kinds.  Between double quotes a backslash begins an escape;
between single quotes every character stands for itself.  Tripled quotes enclose text that may run
over several lines.
-/

namespace Switchboard.Toml

/-- The character with a number written in hexadecimal digits. -/
def scalarValue? (digits : List Char) : Option Char := do
  let n ← digits.foldlM (fun n c => do return n * 16 + (← Text.hexValue? c)) 0
  if n.isValidChar then some (Char.ofNat n) else none

/-- What an escape by number stands for: `count` hexadecimal digits follow its letter. -/
def numbered? (count : Nat) (rest : List Char) : Option (Char × Nat) :=
  let digits := rest.take count
  if digits.length = count then (scalarValue? digits).map (·, count + 1) else none

/-- The character that an escape stands for, and how many characters after the backslash belong to
it. -/
def escape? : List Char → Option (Char × Nat)
  | [] => none
  | c :: rest =>
    match c with
    | 'b' => some ('\x08', 1)
    | 't' => some ('\t', 1)
    | 'n' => some ('\n', 1)
    | 'f' => some ('\x0c', 1)
    | 'r' => some ('\r', 1)
    | '"' => some ('"', 1)
    | '\\' => some ('\\', 1)
    | 'u' => numbered? 4 rest
    | 'U' => numbered? 8 rest
    | _ => none

/-- Text up to a double quote on the same line, given the characters read so far, latest first. -/
def escapedLine (done : List Char) (cs : List Char) : Option (List Char × List Char) :=
  match cs with
  | [] => none
  | '"' :: rest => some (done.reverse, rest)
  | '\\' :: rest =>
    match escape? rest with
    | some (c, size) => escapedLine (c :: done) (rest.drop size)
    | none => none
  | c :: rest => if isPlain c then escapedLine (c :: done) rest else none
  termination_by cs.length
  decreasing_by all_goals simp only [List.length_cons, List.length_drop]; omega

/-- Text up to three double quotes, given the characters read so far, latest first.  One or two
quotes directly before them belong to the text.  A backslash at the end of a line takes the line end
away with all blanks and line ends after it. -/
def escapedLines (done : List Char) (cs : List Char) : Option (List Char × List Char) :=
  match cs with
  | [] => none
  | '"' :: '"' :: '"' :: '"' :: '"' :: rest => some (('"' :: '"' :: done).reverse, rest)
  | '"' :: '"' :: '"' :: '"' :: rest => some (('"' :: done).reverse, rest)
  | '"' :: '"' :: '"' :: rest => some (done.reverse, rest)
  | '\\' :: rest =>
    let after := rest.dropWhile isBlank
    if after.head? = some '\n' then
      escapedLines done (after.dropWhile fun c => isBlank c || c == '\n')
    else
      match escape? rest with
      | some (c, size) => escapedLines (c :: done) (rest.drop size)
      | none => none
  | c :: rest => if isPlain c || c == '\n' then escapedLines (c :: done) rest else none
  termination_by cs.length
  decreasing_by
    · have h₁ := (List.dropWhile_suffix isBlank (l := rest)).length_le
      have h₂ := (List.dropWhile_suffix (fun c => isBlank c || c == '\n')
        (l := rest.dropWhile isBlank)).length_le
      simp only [List.length_cons]
      omega
    · simp only [List.length_cons, List.length_drop]; omega
    · simp only [List.length_cons]; omega

/-- Text up to a single quote on the same line, given the characters read so far, latest first. -/
def literalLine (done : List Char) : List Char → Option (List Char × List Char)
  | [] => none
  | c :: rest =>
    if c = '\'' then some (done.reverse, rest)
    else if isPlain c then literalLine (c :: done) rest
    else none

/-- Text up to three single quotes, given the characters read so far, latest first.  One or two
quotes directly before them belong to the text. -/
def literalLines (done : List Char) : List Char → Option (List Char × List Char)
  | [] => none
  | '\'' :: '\'' :: '\'' :: '\'' :: '\'' :: rest => some (('\'' :: '\'' :: done).reverse, rest)
  | '\'' :: '\'' :: '\'' :: '\'' :: rest => some (('\'' :: done).reverse, rest)
  | '\'' :: '\'' :: '\'' :: rest => some (done.reverse, rest)
  | c :: rest => if isPlain c || c == '\n' then literalLines (c :: done) rest else none

/-- The text without a line end at its front. -/
def dropLineEnd : List Char → List Char
  | '\n' :: rest => rest
  | cs => cs

/-- Quoted text on one line. -/
def quotedLine : Reader String := fun cs => do
  let (chars, rest) ← match cs with
    | '"' :: rest => escapedLine [] rest
    | '\'' :: rest => literalLine [] rest
    | _ => none
  return (String.ofList chars, rest)

/-- Quoted text of either length.  A line end directly after tripled quotes is left out. -/
def quotedText : Reader String := fun cs => do
  match cs with
  | '"' :: '"' :: '"' :: rest =>
    let (chars, rest) ← escapedLines [] (dropLineEnd rest)
    return (String.ofList chars, rest)
  | '\'' :: '\'' :: '\'' :: rest =>
    let (chars, rest) ← literalLines [] (dropLineEnd rest)
    return (String.ofList chars, rest)
  | _ => quotedLine cs

end Switchboard.Toml
