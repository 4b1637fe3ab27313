import Switchboard.Proofs.Atom.Levels
import Switchboard.Proofs.Script.Accepted
import Switchboard.Proofs.Source.Calls
import Switchboard.Proofs.Source.Faithful

/-!
# Scopes of statements

Statements open and close scopes as their atoms do, and the builder opens and closes blocks for the
same statements.  Inside a stream, the open blocks are the scopes that are open there, in the block
of the action that the stream belongs to.

Main results:

* `Statement.scopes_of_calls`: where the calls of statements are accepted, they open the scopes of
  the statements.
* `Statement.exists_calls`: the calls of statements that are no actions are accepted wherever the
  scopes are.
* `Statement.checkFrom_plainAtoms`: their atoms are balanced if the statements are.
-/

namespace Switchboard

-- ---------------------------------------------------------------------------
-- What statements do to scopes
-- ---------------------------------------------------------------------------

/-- The kind of block that a scope is. -/
def Scope.block : Scope → Block
  | stream => .stream
  | object => .object
  | context => .context

/-- What an atom with the role does to scopes. -/
def Role.effect (role : Role) : ScopeEffect :=
  (role.signature?.map (·.effect)).getD .none

/-- Only an action carries a stream, and only atoms with a role of their own change scopes. -/
theorem Signature.role_of_mem_all : ∀ s ∈ Signature.all,
    s.effect = ((Role.table.lookup s.name).getD .plain).effect ∧
      (s.tag.protocol ≠ Family.act.code → .stream ∉ s.fields ∧
        (Role.table.lookup s.name).getD .plain ∉ [.selectAction, .criterion, .replaceAction]) ∧
      (.stream ∈ s.fields → s.required = 1 ∧ s.effect = .none ∧
        (Role.table.lookup s.name).getD .plain ∈ [.selectAction, .replaceAction, .plain]) := by
  decide +kernel

section Blocks

variable {opened : List Scope} {base blocks : List Block}

theorem Scope.block_ne_action (scope : Scope) : scope.block ≠ .action := by
  cases scope <;> exact Block.noConfusion

theorem Scope.block_inj {scope other : Scope} : scope.block = other.block ↔ scope = other := by
  cases scope <;> cases other <;> simp [block]

/-- Where blocks are open that are scopes, in nothing or in an action, the innermost one is that of
the innermost scope. -/
theorem Scope.head?_blocks (hbase : ∀ kind ∈ base.head?, kind = .action) (scope : Scope) :
    (opened.map Scope.block ++ base).head? = some scope.block ↔ opened.head? = some scope := by
  cases opened with
  | nil =>
    rw [List.map_nil, List.nil_append, List.head?_nil]
    refine iff_of_false (fun h => scope.block_ne_action (hbase _ h)) (fun h => nomatch h)
  | cons first rest =>
    simp only [List.map_cons, List.cons_append, List.head?_cons, Option.some.injEq, block_inj]

theorem Scope.closeIn_block (hbase : ∀ kind ∈ base.head?, kind = .action) (scope : Scope) :
    scope.block.closeIn (opened.map Scope.block ++ base) =
      if opened.head? = some scope then some (opened.tail.map Scope.block ++ base) else none := by
  rw [Block.closeIn]
  simp only [head?_blocks hbase]
  refine if_ctx_congr Iff.rfl (fun h => ?_) (fun _ => rfl)
  obtain ⟨rest, rfl⟩ := List.head?_eq_some_iff.mp h
  rfl

end Blocks

namespace Statement

variable {st : Statement}

/-- The scopes that are open behind statements, innermost first. -/
def scopes (opened : List Scope) (statements : List Statement) :
    Except StructureFault (List Scope) :=
  statements.foldlM (fun opened st => st.signature.effect.apply st.signature.name opened) opened

/-- Whether the statement is of the family of actions. -/
def IsAction (st : Statement) : Prop :=
  st.signature.tag.protocol = Family.act.code

/-- Whether the statement is no object, or one whose type has a name. -/
def NamesType (st : Statement) : Prop :=
  st.role = .startObject ∨ st.role = .startSibling →
    ∀ ops, st.operands = .ok ops → (symbol? .objectType ops).isSome

theorem IsProper.mem_all (h : st.IsProper) : st.signature ∈ Signature.all :=
  Signature.mem_of_byName? h.known

theorem IsProper.effect_eq (h : st.IsProper) : st.signature.effect = st.role.effect :=
  (Signature.role_of_mem_all _ h.mem_all).1

theorem apply_of_closeIn (scope : Scope) (name : String) {opened : List Scope}
    {base blocks : List Block} (hbase : ∀ kind ∈ base.head?, kind = .action)
    (h : scope.block.closeIn (opened.map Scope.block ++ base) = some blocks) :
    ∃ after, (ScopeEffect.closes scope).apply name opened = .ok after ∧
      blocks = after.map Scope.block ++ base := by
  rw [Scope.closeIn_block hbase] at h
  split at h
  · next hhead =>
    cases h
    exact ⟨opened.tail, if_pos hhead, rfl⟩
  · cases h

/-- What the call of a statement does to the open blocks is what the statement does to scopes. -/
theorem IsProper.apply_of_moves (h : st.IsProper) (hselect : st.role ≠ .selectAction)
    {c : Builder.Call} (hc : st.call = .ok c) {opened : List Scope} {base blocks : List Block}
    (hbase : ∀ kind ∈ base.head?, kind = .action)
    (hmoves : c.moves (opened.map Scope.block ++ base) = some blocks) :
    ∃ after, st.signature.effect.apply st.signature.name opened = .ok after ∧
      blocks = after.map Scope.block ++ base := by
  have heffect := h.effect_eq
  unfold call at hc
  cases hrole : st.role
  all_goals
    rw [hrole] at hc heffect
    rw [heffect]
    dsimp only at hc
  -- blocks that open
  case startStream =>
    obtain ⟨ops, -, hc⟩ := bind_eq_ok_iff.mp hc
    split at hc <;> cases hc <;> cases hmoves <;> exact ⟨.stream :: opened, rfl, rfl⟩
  case startObject =>
    obtain ⟨head, -, hc⟩ := bind_eq_ok_iff.mp hc
    cases hc
    obtain ⟨-, hmoves⟩ := Option.ite_none_right_eq_some.mp hmoves
    cases hmoves
    exact ⟨.object :: opened, rfl, rfl⟩
  case globalContext | relativeContext =>
    obtain ⟨ops, -, hc⟩ := bind_eq_ok_iff.mp hc
    split at hc <;> cases hc
    · obtain ⟨-, hmoves⟩ := Option.ite_none_right_eq_some.mp hmoves
      cases hmoves
      exact ⟨.context :: opened, rfl, rfl⟩
    · cases hmoves
  case startSibling =>
    obtain ⟨head, -, hc⟩ := bind_eq_ok_iff.mp hc
    cases hc
    obtain ⟨⟨hhead, -⟩, hmoves⟩ := Option.ite_none_right_eq_some.mp hmoves
    cases hmoves
    exact ⟨opened, if_pos ((Scope.head?_blocks hbase .object).mp hhead), rfl⟩
  -- blocks that close
  case endStream =>
    cases hc
    exact apply_of_closeIn .stream _ hbase hmoves
  case endObject =>
    cases hc
    exact apply_of_closeIn .object _ hbase hmoves
  case endContext =>
    cases hc
    exact apply_of_closeIn .context _ hbase hmoves
  case selectAction => exact absurd hrole hselect
  -- atoms
  all_goals
    obtain ⟨ops, -, hc⟩ := bind_eq_ok_iff.mp hc
    split at hc <;> cases hc
    · obtain ⟨-, hmoves⟩ := Option.ite_none_right_eq_some.mp hmoves
      cases hmoves
      exact ⟨opened, rfl, rfl⟩
    · cases hmoves

/-- The type and title of an object, where the type has a name. -/
theorem NamesType.exists_head (h : st.NamesType)
    (hrole : st.role = .startObject ∨ st.role = .startSibling)
    {ops : List Operand} (hops : st.operands = .ok ops) :
    ∃ type kind, Vocabulary.objectType.value? type = some kind ∧
      st.objectHead = .ok (type, title ops) ∧ ops.head? = some (.int kind.toUInt32) := by
  obtain ⟨type, hsymbol⟩ := Option.isSome_iff_exists.mp (h hrole ops hops)
  obtain ⟨kind, rest, hvalue, rfl⟩ := value?_of_symbol? hsymbol
  refine ⟨type, kind, hvalue, ?_, rfl⟩
  rw [objectHead, hops, ok_bind, hsymbol]
  rfl

/-- The title of an object that can be an atom is short enough. -/
theorem IsProper.title_le (h : st.IsProper) (sibling : Bool)
    (hname : st.signature.name = if sibling then "man_start_sibling" else "man_start_object")
    (hfields : st.signature.fields = [.named .objectType, Signature.title])
    (hrequired : st.signature.required = 1) {ops : List Operand} {a : Atom} {kind : UInt8}
    (hops : st.operands = .ok ops) (hmake : Atom.make st.signature.name ops = .ok a)
    (hkind : ops.head? = some (.int kind.toUInt32)) : (title ops).utf8ByteSize ≤ maxTitle := by
  obtain ⟨rest, rfl⟩ := List.head?_eq_some_iff.mp hkind
  have htypes := h.types_operands hops
  rw [hfields] at htypes
  have hsame := forScript_title h.known hrequired htypes
  rw [hname] at hsame hmake
  refine (Atom.succeeds_objectOpener sibling kind _).mp ⟨a, hsame.trans ?_⟩
  exact Atom.forScript_eq_ok_iff.mpr hmake

/-- The one operand of an atom that takes one and cannot do without. -/
theorem IsProper.exists_operand (h : st.IsProper) (kind : FieldKind)
    (hfields : st.signature.fields = [kind]) (hrequired : st.signature.required = 1)
    {ops : List Operand} {a : Atom} (hops : st.operands = .ok ops)
    (hmake : Atom.make st.signature.name ops = .ok a) :
    ∃ op, ops = [op] ∧ op.type = kind.operandType := by
  have htypes := h.types_operands hops
  rw [hfields] at htypes
  obtain ⟨s, hs, hcheck, -⟩ := Atom.make_eq_ok_iff.mp hmake
  cases hs.symm.trans h.known
  cases ops with
  | nil =>
    rw [hrequired, Signature.check, hrequired] at hcheck
    cases hcheck
  | cons op rest =>
    obtain rfl := eq_nil_of_types htypes
    exact ⟨op, rfl, (List.cons_prefix_cons.mp htypes).1⟩

theorem IsProper.signature_of_make (h : st.IsProper) {ops : List Operand} {a : Atom}
    (hmake : Atom.make st.signature.name ops = .ok a) : a.signature = st.signature := by
  obtain ⟨s, hs, -, rfl⟩ := Atom.make_eq_ok_iff.mp hmake
  exact Option.some.inj (hs.symm.trans h.known)

/-- The atom of a statement that is no action carries no stream. -/
theorem IsProper.checkBalanceList_of_make (h : st.IsProper) (hplain : ¬st.IsAction)
    {ops : List Operand} {a : Atom} (hops : st.operands = .ok ops)
    (hmake : Atom.make st.signature.name ops = .ok a) :
    Operand.checkBalanceList a.operands = .ok () := by
  have hfields := ((Signature.role_of_mem_all _ h.mem_all).2.1 hplain).1
  have htypes := (h.types_operands hops).subset
  obtain ⟨s, -, -, rfl⟩ := Atom.make_eq_ok_iff.mp hmake
  refine Operand.checkBalanceList_of_plain fun op hop heq => ?_
  have hmem := htypes (List.mem_map_of_mem (Operand.mem_of_mem_dropOmitted hop))
  obtain ⟨kind, hkind, htype⟩ := List.mem_map.mp hmem
  rw [heq] at htype
  cases kind <;> first | exact hfields hkind | cases htype

theorem isSome_closeIn (scope : Scope) {name : String} {opened after : List Scope}
    {base : List Block} (hbase : ∀ kind ∈ base.head?, kind = .action)
    (h : (ScopeEffect.closes scope).apply name opened = .ok after) :
    (scope.block.closeIn (opened.map Scope.block ++ base)).isSome := by
  rw [ScopeEffect.apply] at h
  rw [Scope.closeIn_block hbase]
  split at h
  · next hhead =>
    rw [if_pos hhead]
    rfl
  · cases h

/-- A statement that is no action, and whose atom can be made, makes a call that suits every scope
that the atom suits. -/
theorem IsProper.exists_call (h : st.IsProper) (hplain : ¬st.IsAction) (htype : st.NamesType)
    {ops : List Operand} {a : Atom} (hops : st.operands = .ok ops)
    (hmake : Atom.make st.signature.name ops = .ok a) :
    ∃ c, st.call = .ok c ∧ (∀ title ∈ c.title?, title.utf8ByteSize ≤ maxTitle) ∧
      ∀ {opened after : List Scope} {base : List Block},
        (∀ kind ∈ base.head?, kind = .action) → base ≠ [] →
        st.signature.effect.apply st.signature.name opened = .ok after →
        (c.moves (opened.map Scope.block ++ base)).isSome := by
  have heffect := h.effect_eq
  have hroles := ((Signature.role_of_mem_all _ h.mem_all).2.1 hplain).2
  change st.role ∉ _ at hroles
  -- a block is open in an action
  have hopen {opened : List Scope} {base : List Block} (hne : base ≠ []) :
      opened.map Scope.block ++ base ≠ [] := fun h => hne (List.append_eq_nil_iff.mp h).2
  unfold call
  cases hrole : st.role
  all_goals
    rw [hrole] at heffect hroles
    rw [heffect]
    dsimp only
  case startStream =>
    rw [hops, ok_bind]
    split
    · exact ⟨_, rfl, by rintro _ ⟨⟩, fun _ _ _ => rfl⟩
    · exact ⟨_, rfl, by rintro _ ⟨⟩, fun _ _ _ => rfl⟩
  case startObject =>
    have hs := h.signature_eq hrole rfl
    obtain ⟨type, kind, hvalue, hhead, hkind⟩ := htype.exists_head (.inl hrole) hops
    rw [hhead]
    refine ⟨_, rfl, ?_, fun _ hne _ => ?_⟩
    · rintro _ ⟨⟩
      exact h.title_le false (hs ▸ rfl) (hs ▸ rfl) (hs ▸ rfl) hops hmake hkind
    · rw [Builder.Call.moves, if_pos ⟨hopen hne, hvalue ▸ rfl⟩]
      rfl
  case startSibling =>
    have hs := h.signature_eq hrole rfl
    obtain ⟨type, kind, hvalue, hhead, hkind⟩ := htype.exists_head (.inr hrole) hops
    rw [hhead]
    refine ⟨_, rfl, ?_, fun hbase hne happly => ?_⟩
    · rintro _ ⟨⟩
      exact h.title_le true (hs ▸ rfl) (hs ▸ rfl) (hs ▸ rfl) hops hmake hkind
    · change (ScopeEffect.reopens .object).apply _ _ = _ at happly
      rw [ScopeEffect.apply] at happly
      split at happly
      · next hinnermost =>
        have hobject := (Scope.head?_blocks hbase .object).mpr hinnermost
        rw [Builder.Call.moves, if_pos ⟨hobject, hvalue ▸ rfl⟩]
        rfl
      · cases happly
  case globalContext =>
    have hs := h.signature_eq hrole rfl
    obtain ⟨op, rfl, htype⟩ := h.exists_operand .gid (hs ▸ rfl) (hs ▸ rfl) hops hmake
    rw [hops]
    cases op <;> cases htype
    refine ⟨_, rfl, by rintro _ ⟨⟩, fun _ hne _ => ?_⟩
    rw [Builder.Call.moves, if_pos (hopen hne)]
    rfl
  case relativeContext =>
    have hs := h.signature_eq hrole rfl
    obtain ⟨op, rfl, htype⟩ := h.exists_operand .num (hs ▸ rfl) (hs ▸ rfl) hops hmake
    rw [hops]
    cases op <;> cases htype
    refine ⟨_, rfl, by rintro _ ⟨⟩, fun _ hne _ => ?_⟩
    rw [Builder.Call.moves, if_pos (hopen hne)]
    rfl
  case endStream =>
    exact ⟨_, rfl, by rintro _ ⟨⟩, fun hbase _ happly => isSome_closeIn .stream hbase happly⟩
  case endObject =>
    exact ⟨_, rfl, by rintro _ ⟨⟩, fun hbase _ happly => isSome_closeIn .object hbase happly⟩
  case endContext =>
    exact ⟨_, rfl, by rintro _ ⟨⟩, fun hbase _ happly => isSome_closeIn .context hbase happly⟩
  case plain =>
    rw [hops, ok_bind, hmake]
    refine ⟨_, rfl, by rintro _ ⟨⟩, fun _ hne _ => ?_⟩
    have hnone : a.effect = .none := (congrArg _ (h.signature_of_make hmake)).trans heffect
    have hbalanced := h.checkBalanceList_of_make hplain hops hmake
    rw [Builder.Call.moves, Builder.Call.moves.adds,
      if_pos ⟨hopen hne, hnone, hbalanced ▸ rfl⟩]
    rfl
  all_goals simp at hroles

-- ---------------------------------------------------------------------------
-- Scopes and open blocks
-- ---------------------------------------------------------------------------

theorem scopes_nil (opened : List Scope) : scopes opened [] = .ok opened := rfl

theorem scopes_cons_eq_ok_iff {rest : List Statement} {opened last : List Scope} :
    scopes opened (st :: rest) = .ok last ↔
      ∃ after, st.signature.effect.apply st.signature.name opened = .ok after ∧
        scopes after rest = .ok last := by
  rw [scopes, List.foldlM_cons, bind_eq_ok_iff]
  rfl

/-- A statement whose role has no effect leaves the scopes as they are. -/
theorem IsProper.scopes_cons (h : st.IsProper) (heffect : st.role.effect = .none)
    (opened : List Scope) (rest : List Statement) :
    scopes opened (st :: rest) = scopes opened rest := by
  rw [scopes, List.foldlM_cons, h.effect_eq, heffect]
  rfl

/-- An action opens a block in which its body stands, and closes it. -/
theorem moves_action_eq_some_iff {name : String} {inner later : List Builder.Call}
    {blocks last : List Block} :
    (.action name :: inner ++ .endAction :: later).foldlM Builder.Call.moves blocks = some last ↔
      Builder.Call.moves blocks (.action name) = some (.action :: blocks) ∧
        ∃ filled after, inner.foldlM Builder.Call.moves (.action :: blocks) = some filled ∧
          Block.action.closeIn filled = some after ∧
          later.foldlM Builder.Call.moves after = some last := by
  rw [List.cons_append, List.foldlM_cons, Option.bind_eq_bind, Option.bind_eq_some_iff]
  have hopens {next : List Block} (h : Builder.Call.moves blocks (.action name) = some next) :
      next = .action :: blocks := by
    rw [Builder.Call.moves] at h
    exact (Option.some.inj (Option.ite_none_right_eq_some.mp h).2).symm
  constructor
  · rintro ⟨next, hnext, h⟩
    obtain rfl := hopens hnext
    rw [List.foldlM_append, Option.bind_eq_bind, Option.bind_eq_some_iff] at h
    obtain ⟨filled, hfilled, h⟩ := h
    obtain ⟨after, hafter, h⟩ := Option.bind_eq_some_iff.mp h
    exact ⟨hnext, filled, after, hfilled, hafter, h⟩
  · rintro ⟨hnext, filled, after, hfilled, hafter, h⟩
    refine ⟨_, hnext, ?_⟩
    rw [List.foldlM_append, hfilled]
    change (.endAction :: later).foldlM Builder.Call.moves filled = some last
    rw [List.foldlM_cons]
    exact Option.bind_eq_some_iff.mpr ⟨after, hafter, h⟩

/-- The block of an action closes where all scopes in it are closed. -/
theorem closeIn_action_eq_some_iff {opened : List Scope} {blocks after : List Block} :
    Block.action.closeIn (opened.map Scope.block ++ .action :: blocks) = some after ↔
      opened = [] ∧ after = blocks := by
  rw [Block.closeIn]
  cases opened with
  | nil => simp [eq_comm]
  | cons scope rest =>
    rw [List.map_cons, List.cons_append, List.head?_cons,
      if_neg fun h => scope.block_ne_action (Option.some.inj h)]
    simp

/-- Behind an action the open blocks are those in front of it, if its body stands in the action. -/
theorem moves_behind_action {name : String} {inner later : List Builder.Call}
    {blocks last : List Block}
    (hbody : ∀ {filled},
      inner.foldlM Builder.Call.moves (([] : List Scope).map Scope.block ++ .action :: blocks) =
        some filled → ∃ opened : List Scope, filled = opened.map Scope.block ++ .action :: blocks)
    (h : (.action name :: inner ++ .endAction :: later).foldlM Builder.Call.moves blocks =
      some last) :
    later.foldlM Builder.Call.moves blocks = some last := by
  obtain ⟨-, filled, after, hfilled, hafter, hlater⟩ := moves_action_eq_some_iff.mp h
  obtain ⟨opened, rfl⟩ := hbody hfilled
  obtain ⟨-, rfl⟩ := closeIn_action_eq_some_iff.mp hafter
  exact hlater

/-- The calls of a statement that is no action and of those behind it. -/
theorem scopes_of_cons {rest : List Statement} {made : List Builder.Call} (h : st.IsProper)
    (hselect : st.role ≠ .selectAction)
    (hcalls : (do return (← st.call) :: (← calls rest)) = Except.ok made)
    {opened : List Scope} {base blocks : List Block}
    (hbase : ∀ kind ∈ base.head?, kind = .action)
    (hmoves : made.foldlM Builder.Call.moves (opened.map Scope.block ++ base) = some blocks)
    (hrest : ∀ {later opened}, calls rest = .ok later →
      later.foldlM Builder.Call.moves (opened.map Scope.block ++ base) = some blocks →
      ∃ after, scopes opened rest = .ok after ∧ blocks = after.map Scope.block ++ base) :
    ∃ after, scopes opened (st :: rest) = .ok after ∧ blocks = after.map Scope.block ++ base := by
  obtain ⟨c, hc, hcalls⟩ := bind_eq_ok_iff.mp hcalls
  obtain ⟨later, hlater, heq⟩ := bind_eq_ok_iff.mp hcalls
  cases heq
  rw [List.foldlM_cons] at hmoves
  obtain ⟨between, hbetween, hmoves⟩ := Option.bind_eq_some_iff.mp hmoves
  obtain ⟨next, hnext, rfl⟩ := h.apply_of_moves hselect hc hbase hbetween
  obtain ⟨after, hafter, hblocks⟩ := hrest hlater hmoves
  exact ⟨after, scopes_cons_eq_ok_iff.mpr ⟨next, hnext, hafter⟩, hblocks⟩

/-- The open blocks behind the calls of statements are the scopes behind the statements. -/
theorem scopes_of_calls {statements : List Statement} {made : List Builder.Call}
    (hproper : ∀ st ∈ statements, st.IsProper) (hcalls : calls statements = .ok made)
    {opened : List Scope} {base blocks : List Block}
    (hbase : ∀ kind ∈ base.head?, kind = .action)
    (hmoves : made.foldlM Builder.Call.moves (opened.map Scope.block ++ base) = some blocks) :
    ∃ after, scopes opened statements = .ok after ∧ blocks = after.map Scope.block ++ base := by
  induction statements using calls.induct generalizing made opened base blocks with
  | case1 =>
    rw [calls_nil] at hcalls
    cases hcalls
    cases hmoves
    exact ⟨opened, rfl, rfl⟩
  -- the body of an action stands in a block of its own
  | case2 st rest hrole ihBody ihRest =>
    obtain ⟨hst, hrest⟩ := List.forall_mem_cons.mp hproper
    rw [calls_select hrole] at hcalls
    obtain ⟨inner, hinner, hcalls⟩ := bind_eq_ok_iff.mp hcalls
    obtain ⟨later, hlater, heq⟩ := bind_eq_ok_iff.mp hcalls
    cases heq
    rw [hst.scopes_cons (by rw [hrole]; rfl)]
    refine ihRest hrest hlater hbase (moves_behind_action (fun hfilled => ?_) hmoves)
    obtain ⟨after, -, hafter⟩ := ihBody hst.actionBody hinner (by rintro _ ⟨⟩; rfl) hfilled
    exact ⟨after, hafter⟩
  | case3 st hselect hrole next after hnext ihBody ihRest =>
    obtain ⟨hst, hrest⟩ := List.forall_mem_cons.mp hproper
    obtain ⟨hproperNext, hafter⟩ := List.forall_mem_cons.mp hrest
    rw [calls_pair (isPair_iff.mpr ⟨hrole, hnext⟩)] at hcalls
    obtain ⟨name, -, hcalls⟩ := bind_eq_ok_iff.mp hcalls
    obtain ⟨inner, hinner, hcalls⟩ := bind_eq_ok_iff.mp hcalls
    obtain ⟨later, hlater, heq⟩ := bind_eq_ok_iff.mp hcalls
    cases heq
    rw [hst.scopes_cons (by rw [hrole]; rfl), hproperNext.scopes_cons (by rw [hnext]; rfl)]
    refine ihRest hafter hlater hbase (moves_behind_action (fun hfilled => ?_) hmoves)
    obtain ⟨after, -, hafter⟩ :=
      ihBody hproperNext.actionBody hinner (by rintro _ ⟨⟩; rfl) hfilled
    exact ⟨after, hafter⟩
  -- any other statement is one call
  | case4 st hselect hrole next after hnext ih =>
    obtain ⟨hst, hrest⟩ := List.forall_mem_cons.mp hproper
    have hsingle : st.isPair next = false := isPair_eq_false_iff.mpr fun _ => hnext
    rw [calls_cons hselect (by rintro _ ⟨⟩; exact hsingle)] at hcalls
    exact scopes_of_cons hst hselect hcalls hbase hmoves fun hlater hmoves =>
      ih hrest hlater hbase hmoves
  | case5 st hselect hrole =>
    rw [calls_cons hselect (by rintro _ ⟨⟩)] at hcalls
    refine scopes_of_cons (hproper st List.mem_cons_self) hselect hcalls hbase hmoves ?_
    intro later opened hlater hmoves
    rw [calls_nil] at hlater
    cases hlater
    cases hmoves
    exact ⟨opened, rfl, rfl⟩
  | case6 st rest hselect hrole ih =>
    obtain ⟨hst, hrest⟩ := List.forall_mem_cons.mp hproper
    rw [calls_cons hselect fun next _ => isPair_of_role rfl hrole next] at hcalls
    exact scopes_of_cons hst hselect hcalls hbase hmoves fun hlater hmoves =>
      ih hrest hlater hbase hmoves

-- ---------------------------------------------------------------------------
-- Statements without actions
-- ---------------------------------------------------------------------------

/-- A statement as it is read that is no action, and if it is an object, its type has a name. -/
structure IsPlain (st : Statement) : Prop where
  proper : st.IsProper
  noAction : ¬st.IsAction
  type : st.NamesType

theorem IsPlain.role_not_mem (h : st.IsPlain) :
    st.role ∉ [Role.selectAction, .criterion, .replaceAction] :=
  ((Signature.role_of_mem_all _ h.proper.mem_all).2.1 h.noAction).2

theorem IsPlain.not_select (h : st.IsPlain) : st.role ≠ .selectAction := fun hrole => by
  have hroles := h.role_not_mem
  rw [hrole] at hroles
  exact hroles (by decide)

theorem IsPlain.not_criterion (h : st.IsPlain) : st.role ≠ .criterion := fun hrole => by
  have hroles := h.role_not_mem
  rw [hrole] at hroles
  exact hroles (by decide)

theorem plainAtoms_cons_eq_ok_iff {rest : List Statement} {atoms : List Atom} :
    plainAtoms (st :: rest) = .ok atoms ↔
      ∃ ops a more, st.operands = .ok ops ∧ Atom.make st.signature.name ops = .ok a ∧
        plainAtoms rest = .ok more ∧ atoms = a :: more := by
  rw [plainAtoms]
  constructor
  · intro h
    obtain ⟨ops, hops, h⟩ := bind_eq_ok_iff.mp h
    split at h
    · cases h
    · next a hmake =>
      obtain ⟨more, hmore, heq⟩ := bind_eq_ok_iff.mp h
      cases heq
      exact ⟨ops, a, more, hops, hmake, hmore, rfl⟩
  · rintro ⟨ops, a, more, hops, hmake, hmore, rfl⟩
    rw [hops, ok_bind, hmake]
    dsimp only
    rw [hmore]
    rfl

variable {body : List Statement} {atoms : List Atom}

/-- A list of statements without actions is balanced if its atoms are. -/
theorem checkFrom_plainAtoms (hbody : ∀ st ∈ body, st.IsPlain) (h : plainAtoms body = .ok atoms)
    (opened : List Scope) :
    Atom.checkFrom opened atoms = .ok () ↔ scopes opened body = .ok [] := by
  induction body generalizing atoms opened with
  | nil =>
    rw [plainAtoms] at h
    cases h
    cases opened <;> simp [Atom.checkFrom, scopes_nil]
  | cons st rest ih =>
    obtain ⟨hst, hrest⟩ := List.forall_mem_cons.mp hbody
    obtain ⟨ops, a, more, hops, hmake, hmore, rfl⟩ := plainAtoms_cons_eq_ok_iff.mp h
    have hsignature := hst.proper.signature_of_make hmake
    have hbalanced := hst.proper.checkBalanceList_of_make hst.noAction hops hmake
    rw [Atom.checkFrom_cons_iff, scopes_cons_eq_ok_iff, Atom.effect, Atom.name, hsignature]
    refine exists_congr fun after => and_congr_right fun _ => ?_
    rw [ih hrest hmore]
    exact and_iff_right hbalanced

/-- The calls of statements without actions do to open blocks what the statements do to scopes. -/
theorem exists_calls (hbody : ∀ st ∈ body, st.IsPlain) (h : plainAtoms body = .ok atoms) :
    ∃ made, calls body = .ok made ∧ TitlesFit (made.filterMap Builder.Call.title?) ∧
      ∀ (opened : List Scope) {base blocks : List Block},
        (∀ kind ∈ base.head?, kind = .action) → base ≠ [] →
        (made.foldlM Builder.Call.moves (opened.map Scope.block ++ base) = some blocks ↔
          ∃ after, scopes opened body = .ok after ∧ blocks = after.map Scope.block ++ base) := by
  induction body generalizing atoms with
  | nil =>
    refine ⟨[], calls_nil, titlesFit_nil, fun _ _ _ _ _ => ?_⟩
    simp [scopes_nil, eq_comm]
  | cons st rest ih =>
    obtain ⟨hst, hrest⟩ := List.forall_mem_cons.mp hbody
    obtain ⟨ops, a, more, hops, hmake, hmore, rfl⟩ := plainAtoms_cons_eq_ok_iff.mp h
    obtain ⟨c, hc, htitle, hmoves⟩ := hst.proper.exists_call hst.noAction hst.type hops hmake
    obtain ⟨made, hmade, htitles, hfold⟩ := ih hrest hmore
    refine ⟨c :: made, ?_, ?_, fun opened base blocks hbase hne => ?_⟩
    · rw [calls_cons hst.not_select fun next _ => isPair_of_role rfl hst.not_criterion next, hc,
        hmade]
      rfl
    · rw [List.filterMap_cons]
      split
      · exact htitles
      · next title heq => exact titlesFit_cons.mpr ⟨htitle title heq, htitles⟩
    · rw [List.foldlM_cons]
      constructor
      · intro h
        obtain ⟨between, hbetween, h⟩ := Option.bind_eq_some_iff.mp h
        obtain ⟨after, happly, rfl⟩ :=
          hst.proper.apply_of_moves hst.not_select hc hbase hbetween
        obtain ⟨last, hlast, rfl⟩ := (hfold _ hbase hne).mp h
        exact ⟨last, scopes_cons_eq_ok_iff.mpr ⟨after, happly, hlast⟩, rfl⟩
      · rintro ⟨last, hscopes, rfl⟩
        obtain ⟨after, happly, hlast⟩ := scopes_cons_eq_ok_iff.mp hscopes
        obtain ⟨between, hbetween⟩ := Option.isSome_iff_exists.mp (hmoves hbase hne happly)
        obtain ⟨other, hother, rfl⟩ :=
          hst.proper.apply_of_moves hst.not_select hc hbase hbetween
        cases happly.symm.trans hother
        exact Option.bind_eq_some_iff.mpr
          ⟨_, hbetween, (hfold _ hbase hne).mpr ⟨last, hlast, rfl⟩⟩

end Statement

end Switchboard
