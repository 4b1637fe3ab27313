/-!
# Tables of settings

A document in the TOML format is a table of values by key.  A table can be written in several ways,
and the way decides what may be added to it later: a table in braces is closed, a header opens a
table once, and a dotted key adds only to tables that dotted keys or deeper headers have made.

Numbers with a fraction and dates are checked but not kept, since no setting is one.
-/

namespace Switchboard

/-- How a table came about. -/
inductive TableForm where
  /-- Written in braces. -/
  | inline
  /-- Opened by a header. -/
  | header
  /-- On the way to a header. -/
  | implied
  /-- On the way along a dotted key. -/
  | dotted
  deriving Repr, DecidableEq

/-- A value of a document. -/
inductive Toml where
  | text (s : String)
  | integer (n : Int)
  | float
  | boolean (b : Bool)
  | date
  | array (items : List Toml)
  | table (form : TableForm) (entries : List (String × Toml))
  /-- Tables under repeated headers of one name, latest first. -/
  | tables (items : List (List (String × Toml)))

namespace Toml

/-- The values of a table by key, each key at most once. -/
abbrev Entries := List (String × Toml)

/-- Puts a value under a key, in place of what stands there. -/
def put (entries : Entries) (key : String) (value : Toml) : Entries :=
  (key, value) :: if (entries.lookup key).isSome then entries.filter (·.1 ≠ key) else entries

/-- Changes the table that a path leads to, starting from a table of form `here`.  Missing tables on
the way are made in the given form.  Tables in braces are closed, and a dotted key does not enter
tables that a header has opened; of repeated tables the last one is entered. -/
def descend (form : TableForm) (change : TableForm → Entries → Option Entries)
    (here : TableForm) : List String → Entries → Option Entries
  | [], entries => change here entries
  | key :: path, entries => do
    match entries.lookup key with
    | none => return put entries key (.table form (← descend form change form path []))
    | some (.table next inner) =>
      if next = .inline ∨ (form = .dotted ∧ next = .header) then none
      else return put entries key (.table next (← descend form change next path inner))
    | some (.tables (last :: before)) =>
      return put entries key (.tables ((← descend form change .header path last) :: before))
    | some _ => none

/-- Adds a value under a dotted key, given as the keys before the last one and the last one.  The key
must be new, and a table that the dotted key leads to must have been made by dotted keys. -/
def insert (path : List String) (key : String) (value : Toml) : Entries → Option Entries :=
  descend .dotted (fun here entries =>
    if (path = [] ∨ here = .dotted) ∧ (entries.lookup key).isNone then some (put entries key value)
    else none) .header path

/-- Opens a table by a header.  It may have been implied before, but not opened. -/
def openTable (path : List String) (key : String) : Entries → Option Entries :=
  descend .implied (fun _ entries =>
    match entries.lookup key with
    | none => some (put entries key (.table .header []))
    | some (.table .implied inner) => some (put entries key (.table .header inner))
    | some _ => none) .header path

/-- Opens one more of the tables under a repeated header. -/
def openElement (path : List String) (key : String) : Entries → Option Entries :=
  descend .implied (fun _ entries =>
    match entries.lookup key with
    | none => some (put entries key (.tables [[]]))
    | some (.tables items) => some (put entries key (.tables ([] :: items)))
    | some _ => none) .header path

/-- Adds a value under a dotted key to the table opened last. -/
def insertUnder (header path : List String) (key : String) (value : Toml) :
    Entries → Option Entries :=
  descend .implied (fun _ entries => insert path key value entries) .header header

end Toml

end Switchboard
