import Switchboard.Text.Decimal
import Switchboard.Text.Hex
import Switchboard.Toml.Table

/-!
# Numbers, dates and truth values

A value that is neither quoted nor bracketed is a single word, which is read as a whole.  Only a date
and a time may be two words.
-/

namespace Switchboard.Toml

/-- Whether a character may stand in such a word. -/
def isWordChar (c : Char) : Bool :=
  c.isAlphanum || c == '+' || c == '-' || c == '_' || c == '.' || c == ':'

-- ---------------------------------------------------------------------------
-- Numbers
-- ---------------------------------------------------------------------------

/-- Whether a text consists of digits, with at most one underscore between any two. -/
def isGrouped (digit : Char → Bool) : List Char → Bool
  | [] => false
  | [c] => digit c
  | c :: '_' :: rest => digit c && isGrouped digit rest
  | c :: rest => digit c && isGrouped digit rest

/-- Whether a text is a decimal number without superfluous zeros. -/
def isDecimal (cs : List Char) : Bool :=
  isGrouped Text.isDigit cs && (cs.head? != some '0' || cs.length == 1)

/-- The digits in a text, underscores left out. -/
def digitsOf (cs : List Char) : List Nat :=
  cs.filterMap Text.hexValue?

/-- A text without a sign at its front, and whether the sign is negative. -/
def unsigned : List Char → Bool × List Char
  | '+' :: rest => (false, rest)
  | '-' :: rest => (true, rest)
  | cs => (false, cs)

/-- Whether a character is a digit of the given base, up to sixteen. -/
def isDigitIn (base : Nat) (c : Char) : Bool :=
  (Text.hexValue? c).any (· < base)

/-- The number below `bound` that grouped digits of a base denote. -/
def based? (base bound : Nat) (digits : List Char) : Option Nat :=
  if isGrouped (isDigitIn base) digits then Text.ofDigitsBelow? base bound (digitsOf digits)
  else none

/-- The number below `bound` that decimal digits without superfluous zeros denote. -/
def decimal? (bound : Nat) (digits : List Char) : Option Nat :=
  if isDecimal digits then Text.ofDigitsBelow? 10 bound (digitsOf digits) else none

/-- The whole number that a word denotes; it takes 64 bits. -/
def integer? (word : List Char) : Option Int :=
  match word with
  | '0' :: 'x' :: digits => (based? 16 (Nat.pow 2 63) digits).map Int.ofNat
  | '0' :: 'o' :: digits => (based? 8 (Nat.pow 2 63) digits).map Int.ofNat
  | '0' :: 'b' :: digits => (based? 2 (Nat.pow 2 63) digits).map Int.ofNat
  | '-' :: digits => (decimal? (Nat.pow 2 63 + 1) digits).map fun n => -Int.ofNat n
  | _ => (decimal? (Nat.pow 2 63) (unsigned word).2).map Int.ofNat

/-- An exponent that has reached this size takes no more digits. -/
def exponentLimit : Nat := 65536

/-- The exponent that digits denote. -/
def exponentOf (digits : List Nat) : Nat :=
  digits.foldl (fun n d => if n < exponentLimit then n * 10 + d else n) 0

/-- The exponent that a text denotes: zero if there is none. -/
def exponent? : List Char → Option Int
  | [] => some 0
  | c :: rest =>
    if c = 'e' ∨ c = 'E' then
      let (negative, digits) := unsigned rest
      if isGrouped Text.isDigit digits then
        let n := exponentOf (digitsOf digits)
        some (if negative then -Int.ofNat n else Int.ofNat n)
      else none
    else none

/-- The least number that is too large for a fraction of double precision: halfway between the
largest one and the next power of two. -/
def doubleLimit : Nat := Nat.pow 2 1024 - Nat.pow 2 970

/-- The number of decimal digits of `doubleLimit`. -/
def doublePlaces : Nat := 309

/-- Whether the number with the given digits, times a power of ten, is too large for double precision.
The number of places before the point decides, and where it does not, the digits at these places
do. -/
def isHuge (digits : List Nat) (exponent : Int) : Bool :=
  let significant := digits.dropWhile (· == 0)
  let places := significant.length + exponent
  if significant.isEmpty || places < doublePlaces then false
  else if doublePlaces < places then true
  else doubleLimit ≤ Text.ofDigits 10 (significant.take doublePlaces) *
    Nat.pow 10 (doublePlaces - significant.length)

/-- Whether a word is a number with a fraction or an exponent, an infinity or not a number.  A
positive number must not be too large for double precision. -/
def isFloat (word : List Char) : Bool :=
  let (negative, body) := unsigned word
  if body = ['i', 'n', 'f'] ∨ body = ['n', 'a', 'n'] then true
  else
    let isPart (c : Char) : Bool := Text.isDigit c || c == '_'
    let whole := body.takeWhile isPart
    let (fraction, rest) := match body.dropWhile isPart with
      | '.' :: more => (some (more.takeWhile isPart), more.dropWhile isPart)
      | rest => (none, rest)
    let fractionDigits := digitsOf (fraction.getD [])
    isDecimal whole && fraction.all (isGrouped Text.isDigit) &&
      (fraction.isSome || !rest.isEmpty) &&
      (exponent? rest).any fun exponent =>
        negative || !isHuge (digitsOf whole ++ fractionDigits) (exponent - fractionDigits.length)

-- ---------------------------------------------------------------------------
-- Dates
-- ---------------------------------------------------------------------------

/-- Whether two digits denote a number between two bounds. -/
def isBetween (low high : Nat) (digits : List Char) : Bool :=
  (Text.decimal? digits).any fun n => low ≤ n && n ≤ high

/-- The number of days of a month. -/
def daysIn (year month : Nat) : Nat :=
  if month = 2 then
    if year % 4 = 0 ∧ (year % 100 ≠ 0 ∨ year % 400 = 0) then 29 else 28
  else if month = 4 ∨ month = 6 ∨ month = 9 ∨ month = 11 then 30
  else 31

/-- Whether a text is a year, a month and a day. -/
def isDay : List Char → Bool
  | [y₁, y₂, y₃, y₄, '-', m₁, m₂, '-', d₁, d₂] =>
    [y₁, y₂, y₃, y₄].all Text.isDigit && isBetween 1 12 [m₁, m₂] &&
      isBetween 1 (daysIn (Text.decimalValue [y₁, y₂, y₃, y₄]) (Text.decimalValue [m₁, m₂]))
        [d₁, d₂]
  | _ => false

/-- What follows a time of day at the front of a text, if there is one. -/
def afterTime? : List Char → Option (List Char)
  | h₁ :: h₂ :: ':' :: m₁ :: m₂ :: ':' :: s₁ :: s₂ :: rest =>
    if isBetween 0 23 [h₁, h₂] && isBetween 0 59 [m₁, m₂] && isBetween 0 60 [s₁, s₂] then
      match rest with
      | '.' :: more => if more.head?.any Text.isDigit then some (more.dropWhile Text.isDigit) else none
      | _ => some rest
    else none
  | _ => none

/-- Whether a text says how far local time is from universal time, or is empty. -/
def isOffset : List Char → Bool
  | [] => true
  | [c] => c == 'Z' || c == 'z'
  | [sign, h₁, h₂, ':', m₁, m₂] =>
    (sign == '+' || sign == '-') && isBetween 0 23 [h₁, h₂] && isBetween 0 59 [m₁, m₂]
  | _ => false

/-- Whether a text is a time of day, perhaps with an offset. -/
def isOffsetTime (cs : List Char) : Bool :=
  (afterTime? cs).any isOffset

/-- Whether a word is a date, a date with a time, or a time. -/
def isDate (word : List Char) : Bool :=
  afterTime? word == some [] || isDay word ||
    (isDay (word.take 10) && match word.drop 10 with
      | c :: time => (c == 'T' || c == 't') && isOffsetTime time
      | [] => false)

-- ---------------------------------------------------------------------------
-- Words
-- ---------------------------------------------------------------------------

/-- The value of a word. -/
def ofWord? (word : List Char) : Option Toml :=
  if word = ['t', 'r', 'u', 'e'] then some (.boolean true)
  else if word = ['f', 'a', 'l', 's', 'e'] then some (.boolean false)
  else if isDate word then some .date
  else if isFloat word then some .float
  else (integer? word).map .integer

end Switchboard.Toml
