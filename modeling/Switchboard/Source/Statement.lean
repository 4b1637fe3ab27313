import Switchboard.Source.Lexeme

/-!
# Statements of source text

A statement is the name of an atom, with arguments between angle brackets if it has any.  An
argument is a sequence of literals, or, where the atom takes a stream, a sequence of statements.
Arguments are separated by commas; a comma after the last one is allowed.

The reader is a machine that takes one lexeme at a time.  Its stack holds the statements whose
nested stream is being read.
-/

namespace Switchboard

mutual

/-- A statement and the line of its name. -/
inductive Statement where
  | mk (signature : Signature) (line : Nat) (arguments : List Argument)

/-- One argument of a statement. -/
inductive Argument where
  | literals (lexemes : List Lexeme)
  | stream (statements : List Statement)

end

namespace Statement

/-- The signature of the atom that the statement names. -/
def signature : Statement → Signature
  | mk s _ _ => s

/-- The line of the statement's name. -/
def line : Statement → Nat
  | mk _ n _ => n

/-- The arguments in order. -/
def arguments : Statement → List Argument
  | mk _ _ args => args

end Statement

namespace Reader

/-- A statement whose nested stream is being read: its arguments before the stream and the
statements before it at its level, both latest first. -/
structure Pending where
  signature : Signature
  line : Nat
  arguments : List Argument
  before : List Statement

/-- What the reader expects next.  Arguments and literals are held latest first. -/
inductive Mode where
  /-- The start of a statement, or the end of the nested stream. -/
  | statement
  /-- The arguments of the statement just named, or the next statement. -/
  | named (signature : Signature) (line : Nat)
  /-- The start of an argument, or the end of the arguments. -/
  | argument (signature : Signature) (line : Nat) (arguments : List Argument)
  /-- The rest of an argument. -/
  | literal (signature : Signature) (line : Nat) (arguments : List Argument)
      (lexemes : List Lexeme)

/-- The state of the reader: the pending statements, innermost first, and the complete statements
of the innermost stream, latest first. -/
structure State where
  pending : List Pending
  done : List Statement
  mode : Mode

/-- The state before the first lexeme. -/
def start : State := ⟨[], [], .statement⟩

/-- Completes a statement of the innermost stream. -/
def State.complete (s : State) (signature : Signature) (line : Nat)
    (arguments : List Argument) : State :=
  { s with done := .mk signature line arguments.reverse :: s.done, mode := .statement }

/-- Takes a lexeme where a statement may start. -/
def State.begin (s : State) (t : Placed) : Except CompileError State :=
  match t.lexeme, s.pending with
  | .name word, _ =>
    match Signature.byName? word with
    | some signature => .ok { s with mode := .named signature t.line }
    | none => .error (.unknownAtom word)
  | .closing, p :: outer =>
    .ok (State.complete ⟨outer, p.before, .statement⟩ p.signature p.line
      (.stream s.done.reverse :: p.arguments))
  | lexeme, _ => .error (.format (.source t.line (.expectedAtomName lexeme.describe)))

/-- Takes a lexeme inside an argument made of literals. -/
def State.takeLiteral (s : State) (signature : Signature) (line : Nat)
    (arguments : List Argument) (lexemes : List Lexeme) (t : Placed) : Except CompileError State :=
  match t.lexeme with
  | .comma =>
    .ok { s with mode := .argument signature line (.literals lexemes.reverse :: arguments) }
  | .closing => .ok (s.complete signature line (.literals lexemes.reverse :: arguments))
  | .opening => .error (.format (.source t.line (.unexpectedOpen signature.name)))
  | lexeme => .ok { s with mode := .literal signature line arguments (lexeme :: lexemes) }

/-- The fault of an argument for which the signature has no field. -/
def tooMany (signature : Signature) (line : Nat) : CompileError :=
  .format (.source line (.tooManyOperands signature.name signature.fields.length))

/-- Takes the next lexeme. -/
def State.step (s : State) (t : Placed) : Except CompileError State :=
  match s.mode with
  | .statement => s.begin t
  | .named signature line =>
    if t.lexeme = .opening then .ok { s with mode := .argument signature line [] }
    else (s.complete signature line []).begin t
  | .argument signature line arguments =>
    if t.lexeme = .closing then .ok (s.complete signature line arguments)
    else
      match signature.fields[arguments.length]? with
      | none => .error (tooMany signature line)
      | some .stream =>
        State.begin ⟨⟨signature, line, arguments, s.done⟩ :: s.pending, [], .statement⟩ t
      | some _ => s.takeLiteral signature line arguments [] t
  | .literal signature line arguments lexemes =>
    s.takeLiteral signature line arguments lexemes t

/-- The statements once the lexemes have ended where a statement may start. -/
def State.close (s : State) : Except CompileError (List Statement) :=
  if s.pending.isEmpty then .ok s.done.reverse else .error (.format .unterminatedNested)

/-- The fault of a source text that ends inside the arguments of a statement. -/
def unterminated (signature : Signature) (line : Nat) : CompileError :=
  .format (.source line (.unterminatedOperands signature.name))

/-- The statements once the lexemes have ended. -/
def State.finish (s : State) : Except CompileError (List Statement) :=
  match s.mode with
  | .statement => s.close
  | .named signature line => (s.complete signature line []).close
  | .argument signature line arguments =>
    match signature.fields[arguments.length]? with
    | none => .error (tooMany signature line)
    | some .stream => .error (.format .unterminatedNested)
    | some _ => .error (unterminated signature line)
  | .literal signature line _ _ => .error (unterminated signature line)

end Reader

/-- The statements that the lexemes form. -/
def Statement.read (lexemes : List Placed) : Except CompileError (List Statement) := do
  (← lexemes.foldlM Reader.State.step Reader.start).finish

end Switchboard
