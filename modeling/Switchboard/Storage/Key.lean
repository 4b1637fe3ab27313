import Switchboard.Bytes
import Switchboard.Text.Quoted

/-!
# File names

A stored file is addressed by a scope, an owner and a filename.  Each of the three becomes one
component of a path, so names that could reach outside their place are refused.
-/

namespace Switchboard

/-- Why a store refuses an operation. -/
inductive StorageError where
  | invalidName (name : String)
  /-- No file under the given path. -/
  | notFound (path : String)
  | readOnly
  /-- The file system refused; why is not told apart. -/
  | io
  deriving Repr, DecidableEq

/-- The wording of the error. -/
def StorageError.message : StorageError → String
  | invalidName name => s!"invalid file name {Text.quoted name}"
  | notFound path => s!"not found: {path}"
  | readOnly => "storage is read-only"
  | io => "io error"

/-- The longest name, in bytes. -/
def maxNameLength : Nat := 255

/-- Whether a character may stand in a name: no separator and no zero character. -/
def isNameChar (c : Char) : Bool :=
  c != '/' && c != '\\' && c != '\x00'

/-- Whether a text can be one component of a path. -/
def isFileName (name : String) : Bool :=
  name != "" && name != "." && name != ".." && name.utf8ByteSize ≤ maxNameLength &&
    name.toList.all isNameChar

/-- Refuses texts that cannot be one component of a path. -/
def checkName (name : String) : Except StorageError Unit :=
  if isFileName name then .ok () else .error (.invalidName name)

/-- The address of a stored file. -/
structure FileKey where
  scope : String
  owner : String
  name : String
  deriving Repr, DecidableEq

namespace FileKey

/-- Checks the three parts; the first bad one counts. -/
def check (key : FileKey) : Except StorageError Unit := do
  checkName key.scope
  checkName key.owner
  checkName key.name

/-- The path of the file, as messages show it. -/
def path (key : FileKey) : String :=
  key.scope ++ "/" ++ key.owner ++ "/" ++ key.name

/-- The components of the path. -/
def components (key : FileKey) : List String :=
  [key.scope, key.owner, key.name]

end FileKey

/-- What is told about a stored file. -/
structure FileInfo where
  filename : String
  size : Nat
  deriving Repr, DecidableEq

/-- Entries in the order of their names. -/
def FileInfo.sort (files : List FileInfo) : List FileInfo :=
  files.mergeSort fun a b => a.filename ≤ b.filename

end Switchboard
