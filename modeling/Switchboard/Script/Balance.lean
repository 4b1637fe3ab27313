import Switchboard.Script.Error

/-!
# Balanced streams

A stream is balanced if every scope it opens is closed by a closer of the same kind, siblings stand
only directly inside an object, and every nested stream is balanced on its own.
-/

namespace Switchboard

/-- The open scopes after an atom, innermost first, if the atom may stand there. -/
def ScopeEffect.apply (effect : ScopeEffect) (atom : String) (opened : List Scope) :
    Except StructureFault (List Scope) :=
  match effect with
  | .none => .ok opened
  | .opens scope => .ok (scope :: opened)
  | .closes scope =>
    if opened.head? = some scope then .ok opened.tail else .error (.nestedUnopened atom scope)
  | .reopens scope =>
    if opened.head? = some scope then .ok opened else .error (.nestedUnopened atom scope)

mutual

/-- Checks the streams that the operands carry. -/
def Operand.checkBalance : Operand → Except StructureFault Unit
  | .int _ | .str _ | .raw _ | .gid _ => .ok ()
  | .stream atoms => Atom.checkFrom [] atoms

/-- Checks the streams that the operands of an atom carry. -/
def Operand.checkBalanceList : List Operand → Except StructureFault Unit
  | [] => .ok ()
  | op :: ops => do
    op.checkBalance
    Operand.checkBalanceList ops

/-- Checks an atom inside the given scopes, and gives the scopes after it. -/
def Atom.checkWithin (opened : List Scope) : Atom → Except StructureFault (List Scope)
  | .mk s ops _ => do
    let opened ← s.effect.apply s.name opened
    Operand.checkBalanceList ops
    return opened

/-- Checks the rest of a stream inside the given scopes, innermost first. -/
def Atom.checkFrom (opened : List Scope) : List Atom → Except StructureFault Unit
  | [] =>
    match opened with
    | [] => .ok ()
    | scope :: _ => .error (.nestedUnclosed scope)
  | a :: as => do Atom.checkFrom (← a.checkWithin opened) as

end

/-- Checks that a stream is balanced. -/
def Atom.checkBalance (atoms : List Atom) : Except StructureFault Unit :=
  Atom.checkFrom [] atoms

end Switchboard
