import Switchboard.Atom.Error

/-!
# What can be wrong with a script

Every fault that building a script, reading it from source text or compiling it can meet, with the
one place that words it.
-/

namespace Switchboard

/-- The kinds of block a script is built from. -/
inductive Block where
  | stream
  | object
  | context
  | action
  deriving Repr, DecidableEq

/-- How messages refer to the block. -/
def Block.label : Block → String
  | stream => "stream"
  | object => "object"
  | context => "context"
  | action => "action"

/-- Blocks that do not pair up. -/
inductive StructureFault where
  /-- Something stands outside every stream. -/
  | outside (what : String)
  /-- A sibling that does not follow an open object. -/
  | siblingOutside
  /-- An action without an object or context around it. -/
  | actionOutside (criterion : String)
  /-- A block that is still open at the end of the script. -/
  | unclosed (block : Block)
  /-- An end that does not fit the innermost block. -/
  | wrongEnd (block innermost : Block)
  /-- An end with no block open. -/
  | noOpenBlock (block : Block)
  /-- An atom that opens or closes a scope among the plain ones. -/
  | changesScope (atom : String)
  /-- A closer in a nested stream without its opener. -/
  | nestedUnopened (atom : String) (scope : Scope)
  /-- A scope that is still open at the end of a nested stream. -/
  | nestedUnclosed (scope : Scope)
  deriving Repr, DecidableEq

/-- The wording of the fault. -/
def StructureFault.message : StructureFault → String
  | outside what => s!"{what} outside a stream"
  | siblingOutside => "man_start_sibling outside an object scope"
  | actionOutside criterion =>
    s!"action block <{criterion}> outside any object or context scope"
  | unclosed block => s!"unclosed {block.label} scope at end of script"
  | wrongEnd block innermost =>
    s!"end of {block.label} scope while {innermost.label} scope is innermost"
  | noOpenBlock block => s!"end of {block.label} scope with no open scope"
  | changesScope atom => s!"{atom} changes scope and cannot be appended as a plain atom"
  | nestedUnopened atom scope => s!"{atom} without an open {scope.label} scope in nested stream"
  | nestedUnclosed scope => s!"unclosed {scope.label} scope in nested stream"

/-- A literal or statement of source text that cannot be used where it stands. -/
inductive SourceFault where
  | unexpectedSlash
  | unexpectedCharacter (c : Char)
  | unterminatedText
  /-- Something else where the name of an atom should stand. -/
  | expectedAtomName (found : String)
  | tooManyOperands (atom : String) (limit : Nat)
  | unexpectedOpen (atom : String)
  | unterminatedOperands (atom : String)
  | invalidByte (atom literal : String)
  | byteRange (atom : String) (value : UInt32)
  | literalCount (atom : String) (got : Nat)
  | invalidGid (atom literal : String)
  | unknownName (atom : String) (vocabulary : Vocabulary) (name : String)
  | invalidNumber (atom literal : String)
  | cannotTake (atom found : String) (kind : FieldKind)
  | needsGid
  | needsTag
  | needsCriterion
  | needsObjectType (atom : String)
  deriving Repr, DecidableEq

/-- The wording of the fault. -/
def SourceFault.message : SourceFault → String
  | unexpectedSlash => "unexpected '/'"
  | unexpectedCharacter c => s!"unexpected character {Text.quotedChar c}"
  | unterminatedText => "unterminated string literal"
  | expectedAtomName found => s!"expected atom name, found {found}"
  | tooManyOperands atom limit => s!"{atom} takes at most {limit} operand(s)"
  | unexpectedOpen atom => s!"unexpected '<' in {atom} operand"
  | unterminatedOperands atom => s!"unterminated operand list for {atom}"
  | invalidByte atom literal => s!"{atom} invalid byte literal {Text.quoted literal}"
  | byteRange atom value => s!"{atom} byte literal {value} out of range"
  | literalCount atom got => s!"{atom} expects one literal per operand, got {got}"
  | invalidGid atom literal => s!"{atom} invalid gid literal {Text.quoted literal}"
  | unknownName atom vocabulary name =>
    s!"{atom} unknown {vocabulary.label} name {Text.quoted name}"
  | invalidNumber atom literal => s!"{atom} invalid number literal {Text.quoted literal}"
  | cannotTake atom found kind => s!"{atom} cannot take {found} as {kind.label}"
  | needsGid => "man_set_context_globalid needs a gid"
  | needsTag => "man_set_context_relative needs a tag"
  | needsCriterion => "act_set_criterion needs a known criterion"
  | needsObjectType atom => s!"{atom} needs an object type"

/-- Parts of a script that do not have the form they should. -/
inductive ScriptFault where
  /-- An atom's operands. -/
  | atom (fault : FormatFault)
  /-- A stream of atoms. -/
  | stream (error : AtomError)
  | unknownCriterion (name : String)
  | unknownObjectType (name : String)
  | noSymbolicOperand (opcode : String)
  | unknownName (opcode : String) (vocabulary : Vocabulary) (name : String)
  | missingParameter (key : String)
  | notANumber (key value : String)
  /-- The given line of source text. -/
  | source (line : Nat) (fault : SourceFault)
  /-- Source text that ends inside a nested stream. -/
  | unterminatedNested
  /-- A fault recorded by the code that drives the builder. -/
  | other (message : String)
  deriving Repr, DecidableEq

/-- The wording of the fault. -/
def ScriptFault.message : ScriptFault → String
  | atom fault => fault.message
  | stream error => error.message
  | unknownCriterion name => s!"unknown criterion {Text.quoted name}"
  | unknownObjectType name => s!"unknown object type {Text.quoted name}"
  | noSymbolicOperand opcode => s!"{opcode} has no symbolic first operand"
  | unknownName opcode vocabulary name =>
    s!"{opcode}: unknown {vocabulary.label} name {Text.quoted name}"
  | missingParameter key => s!"missing scene parameter {Text.quoted key}"
  | notANumber key value => s!"scene parameter {key}={Text.quoted value} is not a number"
  | source line fault => s!"line {line}: {fault.message}"
  | unterminatedNested => "unterminated nested stream, expected '>'"
  | other message => message

/-- Why a script cannot be built or compiled. -/
inductive CompileError where
  | structural (fault : StructureFault)
  | unknownAtom (name : String)
  | format (fault : ScriptFault)
  | unknownScene (id : String)
  /-- A frame payload limit that leaves no room for the header of an atom. -/
  | frameTooSmall (limit : Nat)
  deriving Repr, DecidableEq

namespace CompileError

/-- The wording of the error. -/
def message : CompileError → String
  | structural fault => s!"structural error: {fault.message}"
  | unknownAtom name => s!"unknown atom {Text.quoted name}"
  | format fault => s!"format error: {fault.message}"
  | unknownScene id => s!"unknown scene {Text.quoted id}"
  | frameTooSmall limit => s!"max frame payload {limit} leaves no room for an atom header"

/-- A refused atom as the reason why a script cannot be compiled. -/
def ofAtomError : AtomError → CompileError
  | .unknownAtom name => unknownAtom name
  | .format fault => format (.atom fault)
  | error => format (.stream error)

end CompileError

end Switchboard
