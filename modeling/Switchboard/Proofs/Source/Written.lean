import Switchboard.Proofs.Source.Reader
import Switchboard.Script.Compile

/-!
# What statements write

The atoms that the statements of a source text stand for, one after another.  Each statement is an
atom with the operands written for it, except in two places: a criterion and the action on it become
one atom if the criterion is `select`, and the body of an action is put between stream brackets if
there are none around it.
-/

namespace Switchboard

-- ---------------------------------------------------------------------------
-- The rule
-- ---------------------------------------------------------------------------

/-- The atoms between the brackets of a stream. -/
def Atom.bracketed (atoms : List Atom) : Except CompileError (List Atom) := do
  return (← Atom.forScript "uni_start_stream" []) :: atoms ++ [← Atom.forScript "uni_end_stream" []]

/-- A criterion and an action with the given body: one atom if the criterion is `select`. -/
def Atom.onCriterion (setter : Atom) (body : List Atom) : Except CompileError (List Atom) := do
  if setter.operands = [.int selectCriterion.toUInt32] then
    return [← Atom.forScript "act_replace_select_action" [.stream body]]
  else
    return [setter, ← Atom.forScript "act_replace_action" [.stream body]]

namespace Statement

/-- The atom that a statement writes by itself. -/
def atom (st : Statement) : Except CompileError Atom := do
  Atom.forScript st.signature.name (← st.operands)

/-- Whether the brackets of a stream are written around all of the statements. -/
def isEnclosed (body : List Statement) : Bool :=
  match body with
  | first :: rest => first.role = .startStream && rest.getLast?.any (·.role = .endStream)
  | [] => false

/-- Whether a statement is a criterion and the next one the action on it. -/
def isPair (st next : Statement) : Bool :=
  st.role = .criterion && next.role = .replaceAction

end Statement

section

variable (opener : Statement → Except CompileError Atom)

mutual

/-- The atoms that statements write, in order, where `opener` reads the brackets that are written in
front of the body of an action. -/
def Statement.written : List Statement → Except CompileError (List Atom)
  | [] => .ok []
  | st :: rest => do
    match rest with
    | [] => return [← st.single]
    | next :: after =>
      if st.isPair next then
        return (← Atom.onCriterion (← st.atom) (← next.body)) ++ (← Statement.written after)
      else return (← st.single) :: (← Statement.written (next :: after))

/-- The atom that a statement writes, if it is not one of a pair. -/
def Statement.single : Statement → Except CompileError Atom
  | .mk s line args => do
    if (Statement.mk s line args).role = .selectAction then
      Atom.forScript s.name [.stream (← Argument.body args)]
    else (Statement.mk s line args).atom

/-- The atoms that the body of an action writes. -/
def Statement.body : Statement → Except CompileError (List Atom)
  | .mk _ _ args => Argument.body args

/-- The atoms that the body of an action writes, given the arguments of the action. -/
def Argument.body : List Argument → Except CompileError (List Atom)
  | .stream (first :: rest) :: _ => do
    if Statement.isEnclosed (first :: rest) then return (← opener first) :: (← Statement.written rest)
    else Atom.bracketed (← Statement.written (first :: rest))
  | _ => Atom.bracketed []

end

end

-- ---------------------------------------------------------------------------
-- Roles
-- ---------------------------------------------------------------------------

/-- The signature of the atom that has the role. -/
def Role.signature? : Role → Option Signature
  | startStream => some (.define "uni_start_stream" .uni 1 [.num] 0 (.opens .stream))
  | endStream => some (.define "uni_end_stream" .uni 2 [] 0 (.closes .stream))
  | startObject =>
    some (.define "man_start_object" .man 0 [.named .objectType, Signature.title] 1
      (.opens .object))
  | startSibling =>
    some (.define "man_start_sibling" .man 1 [.named .objectType, Signature.title] 1
      (.reopens .object))
  | endObject => some (.define "man_end_object" .man 2 [] 0 (.closes .object))
  | globalContext => some (.define "man_set_context_globalid" .man 4 [.gid] 1 (.opens .context))
  | relativeContext => some (.define "man_set_context_relative" .man 5 [.num] 1 (.opens .context))
  | endContext => some (.define "man_end_context" .man 6 [] 0 (.closes .context))
  | selectAction => some (.plain "act_replace_select_action" .act 3 [.stream])
  | criterion => some (.plain "act_set_criterion" .act 0 [.named .criterion])
  | replaceAction => some (.plain "act_replace_action" .act 2 [.stream])
  | plain => none

/-- These are the signatures of the instruction set. -/
theorem Role.byName?_of_mem_table :
    ∀ entry ∈ Role.table, Signature.byName? entry.1 = entry.2.signature? := by
  decide

namespace Statement

variable {st : Statement} {role : Role}

theorem mem_of_role (hrole : st.role = role) (hplain : role ≠ .plain) :
    (st.signature.name, role) ∈ Role.table := by
  unfold Statement.role at hrole
  cases hlookup : Role.table.lookup st.signature.name with
  | none =>
    rw [hlookup] at hrole
    exact absurd hrole.symm hplain
  | some found =>
    rw [hlookup, Option.getD_some] at hrole
    obtain ⟨before, after, htable, -⟩ := List.lookup_eq_some_iff.mp hlookup
    rw [htable, hrole]
    exact List.mem_append_right _ List.mem_cons_self

theorem name_of_role {name : String} (hrole : st.role = role) (hplain : role ≠ .plain)
    (htable : ∀ entry ∈ Role.table, entry.2 = role → entry.1 = name) : st.signature.name = name :=
  htable _ (mem_of_role hrole hplain) rfl

theorem IsProper.known (h : st.IsProper) :
    Signature.byName? st.signature.name = some st.signature := by
  cases h with
  | mk known => exact known

theorem IsProper.takes (h : st.IsProper) : st.signature.Takes st.arguments := by
  cases h with
  | mk _ takes => exact takes

/-- A role stands for one name, and the name for one signature. -/
theorem IsProper.signature_eq (h : st.IsProper) (hrole : st.role = role) {s : Signature}
    (hs : role.signature? = some s) : st.signature = s := by
  have hplain : role ≠ .plain := by
    rintro rfl
    cases hs
  have htable := Role.byName?_of_mem_table _ (mem_of_role hrole hplain)
  exact Option.some.inj (h.known.symm.trans (htable.trans hs))

end Statement

-- ---------------------------------------------------------------------------
-- Operands
-- ---------------------------------------------------------------------------

/-- The type of the operands that a field takes. -/
def FieldKind.operandType : FieldKind → OperandType
  | byte | word | dword | num | named _ => .integer
  | text _ => .string
  | raw => .byteBlock
  | gid => .gid
  | stream => .stream

theorem type_of_readNumber {atom : String} {line : Nat} {lexeme : Lexeme} {op : Operand}
    (h : readNumber atom line lexeme = .ok op) : op.type = .integer := by
  unfold readNumber at h
  split at h <;> cases h
  rfl

theorem type_of_readLexeme {atom : String} {line : Nat} {kind : FieldKind} {lexeme : Lexeme}
    {op : Operand} (h : readLexeme atom line kind lexeme = .ok op) : op.type = kind.operandType := by
  unfold readLexeme at h
  split at h
  · cases h
    rfl
  · split at h <;> cases h
    rfl
  · split at h
    · cases h
      rfl
    · split at h <;> cases h
      rfl
  · exact type_of_readNumber h
  · exact type_of_readNumber h
  · exact type_of_readNumber h
  · exact type_of_readNumber h
  · exact type_of_readNumber h
  · cases h

theorem type_of_readLexemes {atom : String} {line : Nat} {kind : FieldKind} {lexemes : List Lexeme}
    {op : Operand} (h : readLexemes atom line kind lexemes = .ok op) : op.type = kind.operandType := by
  unfold readLexemes at h
  split at h
  · obtain ⟨bytes, -, heq⟩ := bind_eq_ok_iff.mp h
    cases heq
    rfl
  · split at h
    · exact type_of_readLexeme h
    · cases h

/-- An argument that suits a field gives an operand of the type that the field takes. -/
theorem Argument.Suits.type_operand {arg : Argument} {atom : String} {line : Nat} {kind : FieldKind}
    {op : Operand} (h : Argument.Suits kind arg) (hop : arg.operand atom line kind = .ok op) :
    op.type = kind.operandType := by
  cases h with
  | literals => exact type_of_readLexemes hop
  | stream =>
    rw [Argument.operand] at hop
    obtain ⟨atoms, -, heq⟩ := bind_eq_ok_iff.mp hop
    cases heq
    rfl

theorem Argument.types_operands {atom : String} {line : Nat} {kinds : List FieldKind}
    {args : List Argument} {ops : List Operand}
    (hsuits : ∀ (i : Nat) (kind : FieldKind) (arg : Argument), kinds[i]? = some kind →
      args[i]? = some arg → Argument.Suits kind arg)
    (h : Argument.operands atom line kinds args = .ok ops) :
    ops.map (·.type) <+: kinds.map (·.operandType) := by
  induction kinds generalizing args ops with
  | nil =>
    have hops : ops = [] := by cases args <;> cases h <;> rfl
    rw [hops]
    exact List.nil_prefix
  | cons kind kinds ih =>
    cases args with
    | nil =>
      cases h
      exact List.nil_prefix
    | cons arg args =>
      rw [Argument.operands] at h
      obtain ⟨op, hop, h⟩ := bind_eq_ok_iff.mp h
      obtain ⟨rest, hrest, heq⟩ := bind_eq_ok_iff.mp h
      cases heq
      have htype := (hsuits 0 kind arg rfl rfl).type_operand hop
      rw [List.map_cons, List.map_cons, htype, List.prefix_cons_inj]
      exact ih (fun i k a hk ha => hsuits (i + 1) k a hk ha) hrest

/-- The operands of a proper statement have the types that its fields take, as far as they go. -/
theorem Statement.IsProper.types_operands {st : Statement} {ops : List Operand} (h : st.IsProper)
    (hops : st.operands = .ok ops) :
    ops.map (·.type) <+: st.signature.fields.map (·.operandType) := by
  cases h with
  | mk known takes =>
    cases takes with
    | mk count suits => exact Argument.types_operands suits hops

namespace Statement

variable {st : Statement} {ops : List Operand}

theorem atom_of_operands (h : st.operands = .ok ops) :
    st.atom = Atom.forScript st.signature.name ops := by
  rw [atom, h]
  rfl

theorem operands_of_bare (h : st.arguments = []) : st.operands = .ok [] := by
  obtain ⟨s, line, args⟩ := st
  obtain rfl : args = [] := h
  rw [operands, Argument.operands]
  rintro _ _ _ _ _ ⟨⟩

/-- An atom without fields has no operands. -/
theorem atom_of_fields_eq_nil (h : st.signature.fields = []) :
    st.atom = Atom.forScript st.signature.name [] := by
  obtain ⟨s, line, args⟩ := st
  refine atom_of_operands ?_
  rw [operands, show s.fields = [] from h, Argument.operands]
  rintro _ _ _ _ ⟨⟩

end Statement

-- ---------------------------------------------------------------------------
-- Statements in a row
-- ---------------------------------------------------------------------------

namespace Statement

variable {opener : Statement → Except CompileError Atom} {st next last : Statement}

theorem single_of_select (h : st.role = .selectAction) :
    st.single opener =
      st.body opener >>= fun body => Atom.forScript st.signature.name [.stream body] := by
  cases st with
  | mk s line args =>
    rw [single, if_pos h]
    rfl

theorem single_eq_atom (h : st.role ≠ .selectAction) : st.single opener = st.atom := by
  cases st with
  | mk s line args => rw [single, if_neg h]

theorem written_cons_of_pair (h : st.isPair next = true) (after : List Statement) :
    written opener (st :: next :: after) = do
      return (← Atom.onCriterion (← st.atom) (← next.body opener)) ++ (← written opener after) := by
  rw [written]
  simp only [h, if_true]

/-- A statement that is not a criterion with its action behind it stands for itself. -/
theorem written_cons {rest : List Statement} (h : ∀ next ∈ rest.head?, st.isPair next = false) :
    written opener (st :: rest) = do return (← st.single opener) :: (← written opener rest) := by
  cases rest with
  | nil =>
    rw [written, written]
    cases st.single opener <;> rfl
  | cons next after =>
    rw [written]
    simp only [h next rfl, Bool.false_eq_true, if_false]

theorem isPair_iff :
    st.isPair next = true ↔ st.role = .criterion ∧ next.role = .replaceAction := by
  rw [isPair, Bool.and_eq_true, decide_eq_true_eq, decide_eq_true_eq]

theorem isPair_eq_false_iff :
    st.isPair next = false ↔ (st.role = .criterion → next.role ≠ .replaceAction) := by
  rw [Bool.eq_false_iff, Ne, isPair_iff, not_and]

theorem isPair_of_role {role : Role} (h : st.role = role) (hrole : role ≠ .criterion)
    (next : Statement) : st.isPair next = false :=
  isPair_eq_false_iff.mpr fun heq => absurd (h.symm.trans heq) hrole

theorem isPair_endStream (st : Statement) (hlast : last.role = .endStream) :
    st.isPair last = false :=
  isPair_eq_false_iff.mpr fun _ heq => nomatch hlast.symm.trans heq

theorem written_endStream (hlast : last.role = .endStream) :
    written opener [last] = do return [← last.atom] := by
  rw [written, single_eq_atom (by rw [hlast]; decide)]

/-- Where no criterion comes before its action, what statements side by side write stands side by
side. -/
theorem written_append : ∀ before after : List Statement,
    (∀ last ∈ before.getLast?, ∀ next ∈ after.head?, last.isPair next = false) →
      written opener (before ++ after) = do
        return (← written opener before) ++ (← written opener after)
  | [], after, _ => by
    rw [List.nil_append, written]
    cases written opener after <;> rfl
  | [st], after, hpair => by
    rw [List.singleton_append, written_cons (hpair st rfl), written]
    simp only [bind_assoc, pure_bind, List.singleton_append]
  | st :: next :: rest, after, hpair => by
    by_cases hnext : st.isPair next = true
    · have hlater := written_append rest after fun last hlast => hpair last <| by
        rw [List.getLast?_cons_cons, List.getLast?_cons, Option.mem_def.mp hlast]
        rfl
      rw [List.cons_append, List.cons_append, written_cons_of_pair hnext,
        written_cons_of_pair hnext, hlater]
      simp only [bind_assoc, pure_bind, List.append_assoc]
    · have hsingle : ∀ other ∈ (next :: rest).head?, st.isPair other = false := by
        rintro other ⟨⟩
        exact Bool.eq_false_iff.mpr hnext
      have hrest := written_append (next :: rest) after hpair
      rw [List.cons_append, written_cons (by exact hsingle), written_cons hsingle, hrest]
      simp only [bind_assoc, pure_bind, List.cons_append]

/-- A closing bracket at the end is the last atom. -/
theorem written_concat (hlast : last.role = .endStream) (inner : List Statement) :
    written opener (inner ++ [last]) = do return (← written opener inner) ++ [← last.atom] := by
  rw [written_append inner [last], written_endStream hlast]
  · simp only [bind_assoc, pure_bind]
  · rintro st - _ ⟨⟩
    exact isPair_endStream st hlast

-- ---------------------------------------------------------------------------
-- Bodies of actions
-- ---------------------------------------------------------------------------

/-- The brackets that are put around the body of an action where none are written. -/
def bareOpener (_ : Statement) : Except CompileError Atom :=
  Atom.forScript "uni_start_stream" []

/-- A statement with a role whose atom has no fields writes the bare atom. -/
theorem IsProper.atom_bare {role : Role} {s : Signature} (h : st.IsProper) (hrole : st.role = role)
    (hs : role.signature? = some s) (hfields : s.fields = []) :
    st.atom = Atom.forScript s.name [] := by
  have heq := h.signature_eq hrole hs
  rw [atom_of_fields_eq_nil (heq ▸ hfields), heq]

theorem IsProper.atom_endStream (h : st.IsProper) (hrole : st.role = .endStream) :
    st.atom = Atom.forScript "uni_end_stream" [] :=
  h.atom_bare hrole rfl rfl

theorem isEnclosed_cons_iff {first : Statement} {rest : List Statement} :
    isEnclosed (first :: rest) = true ↔ first.role = .startStream ∧
      ∃ last, rest.getLast? = some last ∧ last.role = .endStream := by
  rw [isEnclosed, Bool.and_eq_true, Option.any_eq_true]
  simp only [decide_eq_true_eq]

/-- Brackets that are written around all of the statements are left out. -/
theorem unwrap_of_isEnclosed {first : Statement} {rest : List Statement}
    (h : isEnclosed (first :: rest) = true) : unwrap (first :: rest) = rest.dropLast := by
  obtain ⟨hfirst, last, hlast, hrole⟩ := isEnclosed_cons_iff.mp h
  rw [unwrap, hlast]
  exact if_pos ⟨hfirst, hrole⟩

theorem unwrap_of_not_isEnclosed {first : Statement} {rest : List Statement}
    (h : ¬isEnclosed (first :: rest) = true) : unwrap (first :: rest) = first :: rest := by
  rw [unwrap]
  split
  · next last hlast =>
    refine if_neg fun hroles => h ?_
    exact isEnclosed_cons_iff.mpr ⟨hroles.1, last, hlast, hroles.2⟩
  · rfl

/-- With bare brackets in front, the body of an action is bracketed once. -/
theorem IsProper.body_bare (h : st.IsProper) :
    st.body bareOpener = written bareOpener st.actionBody >>= Atom.bracketed := by
  obtain ⟨s, line, args⟩ := st
  unfold body Argument.body actionBody
  rw [arguments]
  split
  · next first rest more =>
    have hinner := (h.takes.of_mem List.mem_cons_self).2
    obtain ⟨start, hstart⟩ : Succeeds (Atom.forScript "uni_start_stream" []) := ⟨_, rfl⟩
    dsimp only
    split
    · next henclosed =>
      obtain ⟨-, last, hlast, hrole⟩ := isEnclosed_cons_iff.mp henclosed
      have hproper := hinner last (List.mem_cons_of_mem _ (List.mem_of_getLast? hlast))
      obtain ⟨inner, rfl⟩ := List.getLast?_eq_some_iff.mp hlast
      rw [unwrap_of_isEnclosed henclosed, List.dropLast_concat, written_concat hrole,
        hproper.atom_endStream hrole]
      simp only [bareOpener, hstart, bind_assoc, pure_bind, ok_bind]
      refine bind_congr fun atoms => ?_
      rw [Atom.bracketed, hstart]
      rfl
    · next hplain =>
      rw [unwrap_of_not_isEnclosed hplain]
  · next hother =>
    split
    · next body more =>
      -- a stream that is read has statements
      cases body with
      | nil => exact absurd rfl (h.takes.of_mem List.mem_cons_self).1
      | cons first rest => exact absurd rfl (hother first rest more)
    · rw [written]
      rfl

end Statement

-- ---------------------------------------------------------------------------
-- Brackets in front of bodies
-- ---------------------------------------------------------------------------

mutual

/-- The statements that open the streams written around the bodies of actions, at every level. -/
def Statement.openers : List Statement → List Statement
  | [] => []
  | st :: rest =>
    match rest with
    | [] => st.ownOpeners
    | next :: after =>
      if st.isPair next then next.bodyOpeners ++ Statement.openers after
      else st.ownOpeners ++ Statement.openers (next :: after)

/-- Those in a statement that is not one of a pair. -/
def Statement.ownOpeners : Statement → List Statement
  | .mk s line args =>
    if (Statement.mk s line args).role = .selectAction then Argument.openers args else []

/-- Those in the body of an action. -/
def Statement.bodyOpeners : Statement → List Statement
  | .mk _ _ args => Argument.openers args

/-- Those in the body of an action, given its arguments. -/
def Argument.openers : List Argument → List Statement
  | .stream (first :: rest) :: _ =>
    if Statement.isEnclosed (first :: rest) then first :: Statement.openers rest
    else Statement.openers (first :: rest)
  | _ => []

end

section

variable {f g : Statement → Except CompileError Atom}

mutual

/-- Only the openers of bodies are read by the given reader. -/
theorem Statement.written_congr :
    ∀ statements, (∀ st ∈ Statement.openers statements, st.role = .startStream → f st = g st) →
      Statement.written f statements = Statement.written g statements
  | [], _ => by rw [Statement.written, Statement.written]
  | [st], h => by
    rw [Statement.written, Statement.written]
    rw [Statement.openers] at h
    rw [Statement.single_congr st h]
  | st :: next :: after, h => by
    rw [Statement.written, Statement.written]
    rw [Statement.openers] at h
    split at h
    · next hpair =>
      rw [List.forall_mem_append] at h
      rw [if_pos hpair, if_pos hpair, Statement.body_congr next h.1,
        Statement.written_congr after h.2]
    · next hpair =>
      rw [List.forall_mem_append] at h
      rw [if_neg hpair, if_neg hpair, Statement.single_congr st h.1,
        Statement.written_congr (next :: after) h.2]

theorem Statement.single_congr :
    ∀ st, (∀ inner ∈ Statement.ownOpeners st, inner.role = .startStream → f inner = g inner) →
      Statement.single f st = Statement.single g st
  | .mk s line args, h => by
    rw [Statement.single, Statement.single]
    rw [Statement.ownOpeners] at h
    split
    · next hrole =>
      rw [if_pos hrole] at h
      rw [Argument.body_congr args h]
    · rfl

theorem Statement.body_congr :
    ∀ st, (∀ inner ∈ Statement.bodyOpeners st, inner.role = .startStream → f inner = g inner) →
      Statement.body f st = Statement.body g st
  | .mk _ _ args, h => by
    rw [Statement.body, Statement.body]
    rw [Statement.bodyOpeners] at h
    exact Argument.body_congr args h

theorem Argument.body_congr :
    ∀ args, (∀ inner ∈ Argument.openers args, inner.role = .startStream → f inner = g inner) →
      Argument.body f args = Argument.body g args
  | .stream (first :: rest) :: _, h => by
    rw [Argument.body, Argument.body]
    rw [Argument.openers] at h
    split
    · next henclosed =>
      rw [if_pos henclosed, List.forall_mem_cons] at h
      rw [h.1 (Statement.isEnclosed_cons_iff.mp henclosed).1, Statement.written_congr rest h.2]
    · next hplain =>
      rw [if_neg hplain] at h
      rw [Statement.written_congr (first :: rest) h]
  | [], _ => by rw [Argument.body, Argument.body] <;> rintro _ _ _ ⟨⟩
  | .stream [] :: _, _ => by rw [Argument.body, Argument.body] <;> rintro _ _ _ ⟨⟩
  | .literals _ :: _, _ => by rw [Argument.body, Argument.body] <;> rintro _ _ _ ⟨⟩

end

end

/-- Where no stream around a body is given an id, all is written as the statements have it. -/
theorem Statement.written_atom_eq {statements : List Statement}
    (h : ∀ st ∈ openers statements, st.arguments = []) :
    written atom statements = written bareOpener statements := by
  refine written_congr statements fun st hst hrole => ?_
  have hname : st.signature.name = "uni_start_stream" := name_of_role hrole (by decide) (by decide)
  rw [atom_of_operands (operands_of_bare (h st hst)), hname, bareOpener]

end Switchboard
