import Switchboard.Atom.Check
import Switchboard.Source.Statement

/-!
# The operands that a statement writes

Each argument is read as the kind of operand that the signature has in its place.  Numbers are
decimal, or hexadecimal with an `x` at the end; a block of bytes is a sequence of such numbers or
one quoted text; enumerated operands take a name or a number.
-/

namespace Switchboard

/-- The digits of a hexadecimal literal: one to eight of them before an `x`. -/
def hexLiteral? (word : List Char) : Option (List Char) :=
  match word.reverse with
  | x :: digits =>
    if (x = 'x' ∨ x = 'X') ∧ digits ≠ [] ∧ digits.length ≤ 8 ∧
        digits.all fun c => (Text.hexValue? c).isSome then
      some digits.reverse
    else none
  | [] => none

/-- The value of hexadecimal digits. -/
def hexLiteralValue (digits : List Char) : Nat :=
  digits.foldl (fun n c => n * 16 + (Text.hexValue? c).getD 0) 0

/-- The value of a word as a number of 32 bits. -/
def numberWord? (word : List Char) : Option UInt32 :=
  match hexLiteral? word with
  | some digits => some (UInt32.ofNat (hexLiteralValue digits))
  | none => (Text.decimalBelow? UInt32.size word).map UInt32.ofNat

/-- The value of a lexeme as a number, or the text that messages quote in its place. -/
def Lexeme.number : Lexeme → Except String UInt32
  | .name word | .literal word =>
    match numberWord? word.toList with
    | some v => .ok v
    | none => .error word
  | other => .error other.describe

/-- Reads lexemes as a block of bytes. -/
def readBytes (atom : String) (line : Nat) (lexemes : List Lexeme) : Except CompileError Bytes :=
  match lexemes with
  | [.text content] => .ok (Text.utf8 content)
  | _ => lexemes.mapM fun lexeme =>
    match lexeme.number with
    | .error shown => .error (.format (.source line (.invalidByte atom shown)))
    | .ok v =>
      if v ≤ 0xFF then .ok v.toUInt8
      else .error (.format (.source line (.byteRange atom v)))

/-- Reads a lexeme as a number. -/
def readNumber (atom : String) (line : Nat) (lexeme : Lexeme) : Except CompileError Operand :=
  match lexeme.number with
  | .ok v => .ok (.int v)
  | .error shown => .error (.format (.source line (.invalidNumber atom shown)))

/-- Reads one lexeme as an operand of the given kind. -/
def readLexeme (atom : String) (line : Nat) (kind : FieldKind) (lexeme : Lexeme) :
    Except CompileError Operand :=
  match kind, lexeme with
  | .text _, .text content => .ok (.str content)
  | .gid, .literal word =>
    match Gid.parse? word with
    | some gid => .ok (.gid gid)
    | none => .error (.format (.source line (.invalidGid atom word)))
  | .named vocabulary, .name word =>
    match vocabulary.value? word with
    | some v => .ok (.int v.toUInt32)
    | none =>
      match lexeme.number with
      | .ok v => .ok (.int v)
      | .error _ => .error (.format (.source line (.unknownName atom vocabulary word)))
  | .byte, _ | .word, _ | .dword, _ | .num, _ | .named _, _ => readNumber atom line lexeme
  | kind, lexeme => .error (.format (.source line (.cannotTake atom lexeme.describe kind)))

/-- Reads the lexemes of one argument as an operand of the given kind. -/
def readLexemes (atom : String) (line : Nat) (kind : FieldKind) (lexemes : List Lexeme) :
    Except CompileError Operand :=
  match kind with
  | .raw => do return .raw (← readBytes atom line lexemes)
  | kind =>
    match lexemes with
    | [lexeme] => readLexeme atom line kind lexeme
    | _ => .error (.format (.source line (.literalCount atom lexemes.length)))

mutual

/-- The operand that an argument writes. -/
def Argument.operand (atom : String) (line : Nat) (kind : FieldKind) :
    Argument → Except CompileError Operand
  | .literals lexemes => readLexemes atom line kind lexemes
  | .stream statements => do return .stream (← Statement.plainAtoms statements)

/-- The operands that the arguments write, for the fields in order. -/
def Argument.operands (atom : String) (line : Nat) : List FieldKind → List Argument →
    Except CompileError (List Operand)
  | kind :: kinds, arg :: args => do
    let op ← arg.operand atom line kind
    let ops ← Argument.operands atom line kinds args
    return op :: ops
  | _, _ => .ok []

/-- The operands that a statement writes. -/
def Statement.operands : Statement → Except CompileError (List Operand)
  | .mk s line args => Argument.operands s.name line s.fields args

/-- The atoms of a nested stream that is carried as it is written. -/
def Statement.plainAtoms : List Statement → Except CompileError (List Atom)
  | [] => .ok []
  | st :: rest => do
    let ops ← st.operands
    match Atom.make st.signature.name ops with
    | .error error => .error (.ofAtomError error)
    | .ok atom => return atom :: (← Statement.plainAtoms rest)

end

end Switchboard
