/-!
# Symbolic names of operand values

Some operands are a byte with a fixed meaning for each of its first few values.  Source text and
listings may use a name for such a value; each family of names is a *vocabulary*.
-/

namespace Switchboard

/-- A family of names for the values of a byte. -/
inductive Vocabulary where
  | objectType
  | criterion
  | orientation
  | alert
  | bool
  deriving Repr, DecidableEq

namespace Vocabulary

/-- How messages refer to the vocabulary. -/
def label : Vocabulary → String
  | objectType => "ObjectType"
  | criterion => "Criterion"
  | orientation => "Orientation"
  | alert => "Alert"
  | bool => "Bool"

/-- The object types, numbered from zero. -/
def objectTypes : List String := [
  "org_group", "ind_group", "dms_list", "sms_list", "dss_list", "sss_list", "trigger", "ornament",
  "view", "edit_view", "boolean", "select_boolean", "range", "select_range", "variable", "ruler",
  "root", "rich_text", "multimedia", "chart", "pictalk", "www", "split", "organizer", "tree", "tab"]

/-- The criteria on which an action fires, numbered from one. -/
def criteria : List String := [
  "select", "gain_focus", "lose_focus", "close", "cancel", "create", "set_online", "set_offline",
  "restore", "minimize", "enter_free", "enter_paid", "double_click"]

/-- The kinds of alert box, numbered from zero. -/
def alerts : List String := ["info", "error", "warning", "yes_no", "ok_cancel"]

/-- The letters of an orientation: direction, justification and fill.  The position of each letter
is a bit field of the value: direction from bit four, justification from bit one, fill in bit
zero. -/
def directions : List Char := ['h', 'v']

@[inherit_doc directions]
def justifications : List Char := ['c', 'l', 'r', 't', 'b', 'e']

@[inherit_doc directions]
def fills : List Char := ['f', 't']

/-- The value of a name.  A truth value has two spellings for each of its values. -/
def value? (vocabulary : Vocabulary) (name : String) : Option UInt8 :=
  match vocabulary with
  | objectType => (objectTypes.idxOf? name).map UInt8.ofNat
  | criterion => (criteria.idxOf? name).map fun i => UInt8.ofNat (i + 1)
  | alert => (alerts.idxOf? name).map UInt8.ofNat
  | bool =>
    if name = "yes" ∨ name = "true" then some 1
    else if name = "no" ∨ name = "false" then some 0
    else none
  | orientation =>
    match name.toList with
    | [d, j, f] => do
      let d ← directions.idxOf? d
      let j ← justifications.idxOf? j
      let f ← fills.idxOf? f
      return UInt8.ofNat (d * 16 + j * 2 + f)
    | _ => none

/-- The name of a value; for a truth value, `yes` and `no`. -/
def nameOf? (vocabulary : Vocabulary) (value : Nat) : Option String :=
  match vocabulary with
  | objectType => objectTypes[value]?
  | criterion => if value = 0 then none else criteria[value - 1]?
  | alert => alerts[value]?
  | bool =>
    match value with
    | 0 => some "no"
    | 1 => some "yes"
    | _ => none
  | orientation => do
    let d ← directions[value / 16]?
    let j ← justifications[value / 2 % 8]?
    let f ← fills[value % 2]?
    return String.ofList [d, j, f]

end Vocabulary

end Switchboard
