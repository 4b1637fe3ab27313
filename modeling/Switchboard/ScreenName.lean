import Switchboard.Text.Blank
import Switchboard.Text.Lowercase

/-!
# Screen names

A screen name may be written with any spacing and in any case.  Its *identity* is what remains when
white space is removed and every letter is in lower case; connections, files and directory entries
are found by it.
-/

namespace Switchboard

/-- The identity of a screen name, character by character. -/
def identityChars (name : List Char) : List Char :=
  (name.filter fun c => !Text.isBlank c).flatMap Text.lowercaseChar

/-- The identity of a screen name. -/
def identityOf (name : String) : String :=
  String.ofList (identityChars name.toList)

end Switchboard
