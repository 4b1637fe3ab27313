/-!
# Joining paths

Paths are texts with a slash between their components.
-/

namespace Switchboard

/-- A path relative to a base.  An absolute path stands for itself, and so does any path whose base
is empty. -/
def joinPath (base path : String) : String :=
  if path.toList.head? = some '/' ∨ base = "" then path
  else if base.toList.getLast? = some '/' then base ++ path
  else base ++ "/" ++ path

end Switchboard
