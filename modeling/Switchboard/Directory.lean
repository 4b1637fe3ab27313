import Switchboard.ScreenName

/-!
# The directory

Who may sign on.  The directory is a list of screen names; a name is admitted if some entry has the
same identity, and is then known under the spelling of that entry.  A directory without entries
admits everyone.
-/

namespace Switchboard

/-- The screen names that may sign on, none of them blank. -/
structure Directory where
  /-- The names by identity, latest first. -/
  entries : List (String × String)
  deriving Repr, DecidableEq

namespace Directory

/-- The directory of some names; blank ones are left out. -/
def ofNames (names : List String) : Directory :=
  ⟨((names.map fun name => (identityOf name, name)).filter fun entry => !entry.1.isEmpty).reverse⟩

/-- Whether everyone is admitted. -/
def isOpen (directory : Directory) : Bool :=
  directory.entries.isEmpty

/-- The spelling under which a requested name is admitted.  Of entries with the same identity the
last one counts. -/
def lookup (directory : Directory) (requested : String) : Option String :=
  let identity := identityOf requested
  if identity.isEmpty then none
  else if directory.isOpen then some (String.ofList (Text.trim requested.toList))
  else directory.entries.lookup identity

end Directory

end Switchboard
