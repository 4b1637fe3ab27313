import Switchboard.Text.Hex
import Switchboard.Text.Visible

/-!
# Quoted text

Listings and messages show text between quotes.  The quote itself and the backslash are escaped,
the usual control characters have a letter, visible characters stand for themselves, and every other
character is written by its number.
-/

namespace Switchboard.Text

/-- The written form of one character between quotes of the given kind. -/
def escapeChar (quote c : Char) : List Char :=
  if c = '\x00' then ['\\', '0']
  else if c = '\t' then ['\\', 't']
  else if c = '\r' then ['\\', 'r']
  else if c = '\n' then ['\\', 'n']
  else if c = '\\' then ['\\', '\\']
  else if c = quote then ['\\', quote]
  else if isVisible c then [c]
  else ['\\', 'u', '\x7b'] ++ hexNat c.toNat ++ ['\x7d']

/-- Text between double quotes. -/
def quotedChars (cs : List Char) : List Char :=
  '"' :: (cs.flatMap (escapeChar '"') ++ ['"'])

/-- Text between double quotes. -/
def quoted (s : String) : String :=
  String.ofList (quotedChars s.toList)

/-- One character between single quotes. -/
def quotedChar (c : Char) : String :=
  String.ofList ('\'' :: (escapeChar '\'' c ++ ['\'']))

end Switchboard.Text
