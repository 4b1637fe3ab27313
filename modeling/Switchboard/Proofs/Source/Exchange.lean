import Switchboard.Proofs.Source.Nesting

/-!
# One action in the place of another

An action may be added to those of an object, or take the place of the one on `select`.  The stream
of the first is carried as it is written, and its scopes are checked as a whole; the builder is told
of the statements of the second one by one, without the brackets that seem to be written around
them.  If nothing but the name of the action is changed in a source text, both texts are accepted
and differ in that action only, unless it is where no actions belong or the first and the last
bracket of its body do not belong to each other.

Main results:

* `Atom.Replaced.checkFrom`: a balanced stream stays balanced.
* `Nesting.exchanges`: the calls of the texts move between the same open blocks.
* `Nesting.replaced_written`: what they write differs in the atom of the action.
* `Script.parse_selectAction_of_appendAction`: the second text is accepted if the action stands
  where actions belong and the body is balanced without its first and last brackets.
-/

namespace Switchboard

-- ---------------------------------------------------------------------------
-- Atoms in the place of others
-- ---------------------------------------------------------------------------

namespace Atom

/-- Two lists of atoms that differ in one atom, at some level. -/
inductive Replaced (old new : Atom) : List Atom → List Atom → Prop where
  | here (before after : List Atom) :
      Replaced old new (before ++ old :: after) (before ++ new :: after)
  | inside {atoms others : List Atom} (before : List Atom) (s : Signature) (after : List Atom)
      (inner : Replaced old new atoms others) :
      Replaced old new (before ++ carrying s atoms :: after) (before ++ carrying s others :: after)

variable {old new : Atom} {atoms others : List Atom}

theorem Replaced.around (h : Replaced old new atoms others) (before after : List Atom) :
    Replaced old new (before ++ atoms ++ after) (before ++ others ++ after) := by
  cases h with
  | here front rest =>
    simpa only [List.append_assoc, List.cons_append] using
      Replaced.here (before ++ front) (rest ++ after)
  | inside front s rest inner =>
    simpa only [List.append_assoc, List.cons_append] using
      Replaced.inside (before ++ front) s (rest ++ after) inner

/-- An atom may be exchanged in a balanced stream for one that suits the same scopes and carries
balanced streams. -/
theorem checkFrom_exchange {before after : List Atom}
    (heffect : ∀ {opened next}, old.effect.apply old.name opened = .ok next →
      new.effect.apply new.name opened = .ok next)
    (hbalanced : Operand.checkBalanceList old.operands = .ok () →
      Operand.checkBalanceList new.operands = .ok ()) {opened : List Scope}
    (h : checkFrom opened (before ++ old :: after) = .ok ()) :
    checkFrom opened (before ++ new :: after) = .ok () := by
  induction before generalizing opened with
  | nil =>
    obtain ⟨next, happly, holds, hrest⟩ := checkFrom_cons_iff.mp h
    exact checkFrom_cons_iff.mpr ⟨next, heffect happly, hbalanced holds, hrest⟩
  | cons a before ih =>
    obtain ⟨next, happly, holds, hrest⟩ := checkFrom_cons_iff.mp h
    exact checkFrom_cons_iff.mpr ⟨next, happly, holds, ih hrest⟩

theorem checkBalanceList_stream (atoms : List Atom) :
    Operand.checkBalanceList [.stream atoms] = .ok () ↔ checkFrom [] atoms = .ok () := by
  rw [Operand.checkBalanceList_cons_iff, Operand.checkBalance]
  simp [Operand.checkBalanceList]

/-- A balanced stream stays balanced. -/
theorem Replaced.checkFrom {s t : Signature} {carried : List Atom}
    (h : Replaced (carrying s carried) (carrying t carried) atoms others) (hs : s.effect = .none)
    (ht : t.effect = .none) {opened : List Scope} (hatoms : checkFrom opened atoms = .ok ()) :
    Atom.checkFrom opened others = .ok () := by
  induction h generalizing opened with
  | here before after =>
    refine checkFrom_exchange (fun {opened next} happly => ?_) ?_ hatoms
    · change s.effect.apply s.name opened = .ok next at happly
      change t.effect.apply t.name opened = .ok next
      rw [hs] at happly
      rw [ht]
      exact happly
    · exact id
  | inside before u after inner ih =>
    refine checkFrom_exchange ?_ (fun hbalanced => ?_) hatoms
    · exact id
    · exact (checkBalanceList_stream _).mpr (ih ((checkBalanceList_stream _).mp hbalanced))

end Atom

-- ---------------------------------------------------------------------------
-- Calls in the place of others
-- ---------------------------------------------------------------------------

/-- Calls that may stand for others: in front of and behind them the same blocks are open, under a
condition, and all titles are short enough if they were before. -/
structure Builder.Call.Exchanges (p : Prop) (made other : List Builder.Call) : Prop where
  titles : TitlesFit (made.filterMap title?) → TitlesFit (other.filterMap title?)
  moves : ∀ {base last : List Block}, (∀ kind ∈ base.head?, kind = .action) →
    made.foldlM Call.moves base = some last →
    ∀ result, other.foldlM Call.moves base = some result ↔ result = last ∧ p

namespace Builder

namespace Call.Exchanges

variable {p : Prop} {made other : List Call} {script script' : Script}

/-- A script is built by the one calls and, under the condition, by the others. -/
theorem succeeds_build_iff (h : Exchanges p made other)
    (hbuild : Succeeds (empty.callAll made).build) :
    Succeeds (empty.callAll other).build ↔ p := by
  rw [Builder.succeeds_build_iff, shape_callAll] at hbuild ⊢
  exact (h.moves (by rintro _ ⟨⟩) hbuild []).trans (and_iff_right rfl)

theorem succeeds_flatten (h : Exchanges p made other)
    (hmade : (empty.callAll made).build = .ok script)
    (hother : (empty.callAll other).build = .ok script') (hflatten : Succeeds script.flatten) :
    Succeeds script'.flatten :=
  (Script.succeeds_flatten_iff_of_build hother).mpr
    (h.titles ((Script.succeeds_flatten_iff_of_build hmade).mp hflatten))

end Call.Exchanges

theorem titlesFit_exchange {front middle other later : List Builder.Call}
    (hmiddle : TitlesFit (middle.filterMap Call.title?) → TitlesFit (other.filterMap Call.title?))
    (h : TitlesFit ((front ++ middle ++ later).filterMap Call.title?)) :
    TitlesFit ((front ++ other ++ later).filterMap Call.title?) := by
  simp only [List.filterMap_append, titlesFit_append] at h ⊢
  exact ⟨⟨h.1.1, hmiddle h.1.2⟩, h.2⟩

/-- Calls may be exchanged in the middle of others if they do the same to the open blocks. -/
theorem moves_exchange {front middle other later : List Call} {base last : List Block} {p : Prop}
    (hmiddle : ∀ {blocks after}, front.foldlM Call.moves base = some blocks →
      middle.foldlM Call.moves blocks = some after →
      ∀ result, other.foldlM Call.moves blocks = some result ↔ result = after ∧ p)
    (h : (front ++ middle ++ later).foldlM Call.moves base = some last) (result : List Block) :
    (front ++ other ++ later).foldlM Call.moves base = some result ↔ result = last ∧ p := by
  rw [List.append_assoc, List.foldlM_append, Option.bind_eq_bind, Option.bind_eq_some_iff] at h ⊢
  obtain ⟨blocks, hfront, h⟩ := h
  rw [List.foldlM_append, Option.bind_eq_bind, Option.bind_eq_some_iff] at h
  obtain ⟨after, hafter, hlast⟩ := h
  simp only [hfront, Option.some.injEq, exists_eq_left', List.foldlM_append, Option.bind_eq_bind,
    Option.bind_eq_some_iff, hmiddle hfront hafter]
  constructor
  · rintro ⟨_, ⟨rfl, hp⟩, hresult⟩
    exact ⟨Option.some.inj (hresult.symm.trans hlast), hp⟩
  · rintro ⟨rfl, hp⟩
    exact ⟨after, ⟨rfl, hp⟩, hlast⟩

end Builder

-- ---------------------------------------------------------------------------
-- Actions by themselves
-- ---------------------------------------------------------------------------

namespace Statement

variable {before after body kept : List Statement} {line line' : Nat}

/-- Whether the statements are balanced without the brackets that seem to be written around them. -/
def IsBalancedBody (body : List Statement) : Prop :=
  ∃ atoms, plainAtoms (unwrap body) = .ok atoms ∧ Atom.checkBalance atoms = .ok ()

/-- An action whose stream is carried as it is written may stand in every block, if its stream is
balanced. -/
theorem moves_carrying_iff {s : Signature} (h : s.IsCarrier) {atoms : List Atom}
    {blocks result : List Block} :
    Builder.Call.moves blocks (.pushAtom (.carrying s atoms)) = some result ↔
      result = blocks ∧ blocks ≠ [] ∧ Atom.checkBalance atoms = .ok () := by
  have hbalanced : (Operand.checkBalanceList (Atom.carrying s atoms).operands).isOk = true ↔
      Atom.checkBalance atoms = .ok () := by
    rw [Atom.checkBalance, ← Atom.checkBalanceList_stream]
    change (Operand.checkBalanceList [.stream atoms]).isOk = true ↔ _
    cases Operand.checkBalanceList [.stream atoms] <;> simp [Except.isOk, Except.toBool]
  have heffect : (Atom.carrying s atoms).effect = .none := h.effect
  rw [Builder.Call.moves, Builder.Call.moves.adds, Option.ite_none_right_eq_some, hbalanced,
    Option.some.injEq, and_comm]
  simp only [heffect, true_and]
  exact and_congr_left' eq_comm

/-- An action that takes the place of the one on `select` may stand where actions belong, if its
body is balanced. -/
theorem moves_select_iff (hbody : ∀ st ∈ body, st.IsPlain) {atoms : List Atom}
    (hatoms : plainAtoms body = .ok atoms) {inner : List Builder.Call}
    (hinner : calls body = .ok inner) {blocks result : List Block} :
    (Builder.Call.action "select" :: inner ++ [Builder.Call.endAction]).foldlM
        Builder.Call.moves blocks = some result ↔
      result = blocks ∧ (blocks.head? = some .object ∨ blocks.head? = some .context) ∧
        Atom.checkBalance atoms = .ok () := by
  obtain ⟨made, hmade, -, hfold⟩ := exists_calls hbody hatoms
  cases hinner.symm.trans hmade
  have hbase : ∀ kind ∈ (Block.action :: blocks).head?, kind = .action := by
    rintro _ ⟨⟩
    rfl
  have hopens : Builder.Call.moves blocks (.action "select") = some (.action :: blocks) ↔
      blocks.head? = some .object ∨ blocks.head? = some .context := by
    rw [Builder.Call.moves, Option.ite_none_right_eq_some, and_iff_left rfl]
    exact and_iff_left rfl
  rw [moves_action_eq_some_iff, hopens, Atom.checkBalance, checkFrom_plainAtoms hbody hatoms]
  constructor
  · rintro ⟨haround, filled, after, hfilled, hafter, hresult⟩
    obtain ⟨opened, hscopes, rfl⟩ := (hfold [] hbase (List.cons_ne_nil _ _)).mp hfilled
    obtain ⟨rfl, rfl⟩ := closeIn_action_eq_some_iff.mp hafter
    cases hresult
    exact ⟨rfl, haround, hscopes⟩
  · rintro ⟨rfl, haround, hscopes⟩
    refine ⟨haround, .action :: result, result, ?_, closeIn_action_eq_some_iff.mpr ⟨rfl, rfl⟩, rfl⟩
    exact (hfold [] hbase (List.cons_ne_nil _ _)).mpr ⟨[], hscopes, rfl⟩

theorem isPlain_unwrap (hbody : ∀ st ∈ body, st.IsPlain) : ∀ st ∈ unwrap body, st.IsPlain :=
  fun st hst => hbody st (mem_of_mem_unwrap hst)

/-- A body that is balanced as it is written is also balanced as the body of an action, but for
brackets that only seem to be written around it. -/
theorem isBalancedBody_iff {atoms inner : List Atom}
    (hatoms : plainAtoms body = .ok atoms) (hinner : plainAtoms (unwrap body) = .ok inner)
    (hbalanced : Atom.checkBalance atoms = .ok ()) :
    Atom.checkBalance inner = .ok () ↔ (isEnclosed body = true → IsBalancedBody body) := by
  constructor
  · exact fun h _ => ⟨inner, hinner, h⟩
  · intro h
    rcases unwrap_cases body with ⟨-, hsame⟩ | ⟨henclosed, -⟩
    · rw [hsame] at hinner
      cases hatoms.symm.trans hinner
      exact hbalanced
    · obtain ⟨found, hfound, hcheck⟩ := h henclosed
      cases hinner.symm.trans hfound
      exact hcheck

/-- An action that stands by itself may be exchanged for one that takes the place of the one on
`select`. -/
theorem exchanges_bare (line' : Nat) (hbody : ∀ st ∈ body, st.IsPlain)
    (hproper : ∀ st ∈ before, st.IsProper)
    (hstripped : IsStripped before kept) {made : List Builder.Call}
    (hcalls : calls (kept ++ mk .appendAction line [.stream body] :: after) = .ok made) :
    ∃ atoms other, plainAtoms body = .ok atoms ∧
      calls (kept ++ mk .selectAction line' [.stream body] :: after) = .ok other ∧
      Builder.Call.Exchanges (Nesting.TakesAction before .bare ∧
        (isEnclosed body = true → IsBalancedBody body)) made other := by
  have hplain : (mk .appendAction line [.stream body]).role = .plain := role_appendAction
  have hselect : (mk .selectAction line' [.stream body]).role = .selectAction := role_selectAction
  -- neither is the action on a criterion
  have halone {st : Statement} (hrole : st.role ≠ .replaceAction) :
      ∀ last ∈ kept.getLast?, last.isPair st = false :=
    fun last _ => isPair_eq_false_iff.mpr fun _ => hrole
  rw [calls_around (by rw [hplain]; decide) (by rw [hplain]; decide)
    (halone (by rw [hplain]; decide)),
    Signature.isCarrier_appendAction.call_eq (by rw [hplain]; decide)] at hcalls
  obtain ⟨front, hfront, hcalls⟩ := bind_eq_ok_iff.mp hcalls
  obtain ⟨c, hc, hcalls⟩ := bind_eq_ok_iff.mp hcalls
  obtain ⟨later, hlater, heq⟩ := bind_eq_ok_iff.mp hcalls
  cases heq
  obtain ⟨atoms, hatoms, heq⟩ := bind_eq_ok_iff.mp hc
  cases heq
  obtain ⟨innerAtoms, hinnerAtoms⟩ :=
    exists_plainAtoms_unwrap (fun st hst => (hbody st hst).proper) hatoms
  obtain ⟨inner, hinner, htitles, -⟩ := exists_calls (isPlain_unwrap hbody) hinnerAtoms
  refine ⟨atoms, front ++ (.action "select" :: inner ++ [.endAction]) ++ later, hatoms, ?_, ?_⟩
  · have hsplit := calls_append kept (mk .selectAction line' [.stream body] :: after) <| by
      rintro last hlast _ ⟨⟩
      exact halone (by rw [hselect]; decide) last hlast
    rw [hsplit, calls_select hselect, hfront, actionBody, arguments]
    dsimp only
    rw [hinner, hlater]
    simp only [ok_bind, pure_bind, List.append_assoc, List.cons_append, List.nil_append]
    rfl
  · have hmade : front ++ .pushAtom (.carrying .appendAction atoms) :: later =
        front ++ [.pushAtom (.carrying .appendAction atoms)] ++ later := by
      rw [List.append_assoc, List.singleton_append]
    rw [hmade]
    refine ⟨Builder.titlesFit_exchange fun _ => ?_, fun hbase hmoves => ?_⟩
    · rw [List.filterMap_append]
      exact titlesFit_append.mpr ⟨htitles, titlesFit_nil⟩
    refine Builder.moves_exchange (fun {blocks next} hblocks hnext result => ?_) hmoves
    rw [List.foldlM_cons] at hnext
    obtain ⟨same, hsame, hnil⟩ := Option.bind_eq_some_iff.mp hnext
    obtain ⟨rfl, -, hbalanced⟩ := (moves_carrying_iff Signature.isCarrier_appendAction).mp hsame
    cases hnil
    change front.foldlM Builder.Call.moves (([] : List Scope).map Scope.block ++ _) = _ at hblocks
    obtain ⟨opened, hscopes, rfl⟩ :=
      scopes_of_calls (fun st hst => hproper st (hstripped.mem hst)) hfront hbase hblocks
    rw [moves_select_iff (isPlain_unwrap hbody) hinnerAtoms hinner,
      isBalancedBody_iff hatoms hinnerAtoms hbalanced,
      Nesting.takesAction_bare_iff hproper hstripped hscopes]
    exact and_congr_right' (and_congr_left'
      (or_congr (Scope.head?_blocks hbase .object) (Scope.head?_blocks hbase .context)))

end Statement

-- ---------------------------------------------------------------------------
-- Actions at every depth
-- ---------------------------------------------------------------------------

namespace Nesting

variable {body : List Statement} {line : Nat}

/-- In streams that are carried as they are written, one action stands for the other, with the same
body. -/
theorem replaced_plainAtoms (nesting : Nesting) (line' : Nat) {before after : List Statement}
    (hfill : (nesting.fill (.mk .appendAction line [.stream body])).IsProper) {atoms : List Atom}
    (h : Statement.plainAtoms
      (before ++ nesting.fill (.mk .appendAction line [.stream body]) :: after) = .ok atoms) :
    ∃ carried others, Statement.plainAtoms body = .ok carried ∧
      Statement.plainAtoms
        (before ++ nesting.fill (.mk .selectAction line' [.stream body]) :: after) = .ok others ∧
      Atom.Replaced (.carrying .appendAction carried) (.carrying .selectAction carried)
        atoms others := by
  induction nesting generalizing before after atoms with
  | bare =>
    obtain ⟨left, carried, right, hleft, hcarried, hright, rfl⟩ :=
      (Statement.plainAtoms_around Signature.isCarrier_appendAction).mp h
    refine ⟨carried, _, hcarried, ?_, .here left right⟩
    exact (Statement.plainAtoms_around Signature.isCarrier_selectAction).mpr
      ⟨left, carried, right, hleft, hcarried, hright, rfl⟩
  | carried s outerLine inside inner rest ih =>
    have hs := Statement.IsProper.isCarrier hfill
    obtain ⟨left, middle, right, hleft, hmiddle, hright, rfl⟩ :=
      (Statement.plainAtoms_around hs).mp h
    have hinner := (hfill.takes.of_mem List.mem_cons_self).2 _
      (List.mem_append_right inside List.mem_cons_self)
    obtain ⟨carried, others, hcarried, hothers, hreplaced⟩ := ih hinner hmiddle
    refine ⟨carried, _, hcarried, ?_, .inside left s right hreplaced⟩
    exact (Statement.plainAtoms_around hs).mpr ⟨left, others, right, hleft, hothers, hright, rfl⟩

/-- What the exchange depends on: if the builder is told of the body, the action must stand where
actions belong, and the body must be balanced without brackets that seem to be written around it. -/
def Allows (before body : List Statement) (nesting : Nesting) : Prop :=
  nesting.isBuilt before = true → nesting.TakesAction before ∧
    (Statement.isEnclosed body = true → Statement.IsBalancedBody body)

/-- The body of an action that the builder is told of. -/
theorem exchanges_carried {s : Signature} {kept inside rest after : List Statement}
    (hbuilt : (Statement.mk s line []).IsBuiltBehind kept) {first second : Statement}
    (hfirst : first.role ≠ .startStream ∧ first.role ≠ .endStream)
    (hsecond : second.role ≠ .startStream ∧ second.role ≠ .endStream) {p q : Prop}
    {made : List Builder.Call}
    (hcalls : Statement.calls (kept ++ .mk s line [.stream (inside ++ first :: rest)] :: after) =
      .ok made)
    (hinner : ∀ {keptInside restInside innerMade}, Statement.IsStripped inside keptInside →
      Statement.calls (keptInside ++ first :: restInside) = .ok innerMade →
      q ∧ ∃ innerOther, Statement.calls (keptInside ++ second :: restInside) = .ok innerOther ∧
        Builder.Call.Exchanges p innerMade innerOther) :
    q ∧ ∃ other,
      Statement.calls (kept ++ .mk s line [.stream (inside ++ second :: rest)] :: after) =
          .ok other ∧
        Builder.Call.Exchanges p made other := by
  obtain ⟨front, name, innerMade, later, hinnerMade, rfl, hother⟩ :=
    Statement.calls_of_isBuiltBehind hbuilt hcalls
  obtain ⟨keptInside, restInside, hstrippedInside, hunwrap⟩ := Statement.unwrap_around inside rest
  rw [hunwrap first hfirst.1 hfirst.2] at hinnerMade
  obtain ⟨hq, innerOther, hinnerOther, hexchanges⟩ := hinner hstrippedInside hinnerMade
  rw [← hunwrap second hsecond.1 hsecond.2] at hinnerOther
  refine ⟨hq, _, hother hinnerOther, ?_⟩
  have hsplit (calls : List Builder.Call) :
      front ++ (.action name :: calls ++ .endAction :: later) =
        (front ++ [.action name]) ++ calls ++ .endAction :: later := by
    simp only [List.append_assoc, List.cons_append, List.nil_append]
  rw [hsplit, hsplit]
  refine ⟨Builder.titlesFit_exchange hexchanges.titles, fun {base last} _ hmoves => ?_⟩
  refine Builder.moves_exchange (fun {blocks next} hblocks hnext => ?_) hmoves
  refine hexchanges.moves ?_ hnext
  -- the body stands in the block of the action
  rw [List.foldlM_append] at hblocks
  obtain ⟨around, -, hblocks⟩ := Option.bind_eq_some_iff.mp hblocks
  obtain ⟨opened, hopened, hnil⟩ := Option.bind_eq_some_iff.mp hblocks
  cases hnil
  rw [Builder.Call.moves, Option.ite_none_right_eq_some] at hopened
  obtain ⟨-, hopened⟩ := hopened
  cases hopened
  rintro _ ⟨⟩
  rfl

/-- The body of an action that is carried as it is written. -/
theorem exchanges_pushAtom {s : Signature} (hs : s.IsCarrier)
    {kept stream other after : List Statement}
    (hselect : (Statement.mk s line []).role ≠ .selectAction)
    (halone : ∀ last ∈ kept.getLast?, last.isPair (.mk s line []) = false)
    {made : List Builder.Call} {q : Prop}
    (hcalls : Statement.calls (kept ++ .mk s line [.stream stream] :: after) = .ok made)
    (hother : ∀ {atoms}, Statement.plainAtoms stream = .ok atoms →
      q ∧ ∃ others, Statement.plainAtoms other = .ok others ∧
        (Atom.checkBalance atoms = .ok () → Atom.checkBalance others = .ok ())) :
    q ∧ ∃ made', Statement.calls (kept ++ .mk s line [.stream other] :: after) = .ok made' ∧
      Builder.Call.Exchanges True made made' := by
  have hsplit (stream : List Statement) :
      Statement.calls (kept ++ .mk s line [.stream stream] :: after) = do
        return (← Statement.calls kept) ++
          .pushAtom (.carrying s (← Statement.plainAtoms stream)) :: (← Statement.calls after) := by
    rw [Statement.calls_around (by exact hselect) (hs.role_ne (by decide)) (by exact halone),
      hs.call_eq hselect]
    simp only [bind_assoc, ok_bind]
  rw [hsplit] at hcalls
  obtain ⟨front, hfront, hcalls⟩ := bind_eq_ok_iff.mp hcalls
  obtain ⟨atoms, hatoms, hcalls⟩ := bind_eq_ok_iff.mp hcalls
  obtain ⟨later, hlater, heq⟩ := bind_eq_ok_iff.mp hcalls
  cases heq
  obtain ⟨hq, others, hothers, hbalanced⟩ := hother hatoms
  refine ⟨hq, front ++ [.pushAtom (.carrying s others)] ++ later, ?_, ?_⟩
  · rw [hsplit, hfront, hothers, hlater, List.append_assoc]
    rfl
  have hmade : front ++ .pushAtom (.carrying s atoms) :: later =
      front ++ [.pushAtom (.carrying s atoms)] ++ later := by
    rw [List.append_assoc, List.singleton_append]
  rw [hmade]
  refine ⟨Builder.titlesFit_exchange id, fun _ hmoves => ?_⟩
  refine Builder.moves_exchange (fun {blocks next} _ hnext result => ?_) hmoves
  have hsingle {a : Atom} {next : List Block} :
      [Builder.Call.pushAtom a].foldlM Builder.Call.moves blocks = some next ↔
        Builder.Call.moves blocks (.pushAtom a) = some next := by
    rw [List.foldlM_cons, Option.bind_eq_bind]
    exact Iff.of_eq (congrArg (· = some next) (Option.bind_fun_some _))
  rw [hsingle, Statement.moves_carrying_iff hs] at hnext ⊢
  obtain ⟨rfl, hinside, hcheck⟩ := hnext
  exact and_congr_right' (iff_true_intro ⟨hinside, hbalanced hcheck⟩)

/-- Statements that differ in the action make calls that move between the same open blocks, if the
place and the body allow it. -/
theorem exchanges (nesting : Nesting) (line' : Nat) (hbody : ∀ st ∈ body, st.IsPlain)
    {before kept after : List Statement} (hbefore : ∀ st ∈ before, st.IsProper)
    (hfill : (nesting.fill (.mk .appendAction line [.stream body])).IsProper)
    (hstripped : Statement.IsStripped before kept) {made : List Builder.Call}
    (hcalls : Statement.calls
      (kept ++ nesting.fill (.mk .appendAction line [.stream body]) :: after) = .ok made) :
    (∃ atoms, Statement.plainAtoms body = .ok atoms) ∧ ∃ other,
      Statement.calls (kept ++ nesting.fill (.mk .selectAction line' [.stream body]) :: after) =
        .ok other ∧
      Builder.Call.Exchanges (nesting.Allows before body) made other := by
  induction nesting generalizing before kept after made with
  | bare =>
    obtain ⟨atoms, other, hatoms, hother, hexchanges⟩ :=
      Statement.exchanges_bare line' hbody hbefore hstripped hcalls
    have hiff : Nesting.bare.Allows before body ↔ Nesting.bare.TakesAction before ∧
        (Statement.isEnclosed body = true → Statement.IsBalancedBody body) :=
      ⟨fun h => h rfl, fun h _ => h⟩
    rw [propext hiff]
    exact ⟨⟨atoms, hatoms⟩, other, hother, hexchanges⟩
  | carried s outerLine inside inner rest ih =>
    have hs := Statement.IsProper.isCarrier hfill
    obtain ⟨hinside, hinner⟩ :=
      List.forall_mem_append.mp (hfill.takes.of_mem List.mem_cons_self).2
    have hinnerFill := hinner _ List.mem_cons_self
    by_cases hbuilt : (Statement.mk s outerLine []).IsBuiltBehind kept
    · have hsame : (carried s outerLine inside inner rest).Allows before body =
          inner.Allows inside body := by
        rw [Allows, Allows, isBuilt_of_isBuiltBehind hstripped hbuilt]
        rfl
      rw [hsame]
      exact exchanges_carried hbuilt (role_fill line Signature.isCarrier_appendAction hinnerFill)
        (role_fill line' Signature.isCarrier_selectAction hinnerFill) hcalls
        fun hstrippedInside hinnerCalls => ih hinside hinnerFill hstrippedInside hinnerCalls
    · have hallows : (carried s outerLine inside inner rest).Allows before body := by
        rw [Allows, isBuilt_of_not_isBuiltBehind hstripped hbuilt]
        exact fun h => nomatch h
      rw [propext (iff_true_intro hallows)]
      refine exchanges_pushAtom hs (fun h => hbuilt (.inl h)) (fun last hlast => ?_) hcalls ?_
      · refine Statement.isPair_eq_false_iff.mpr fun hcriterion hreplace => hbuilt ?_
        exact .inr ⟨hreplace, last, hlast, hcriterion⟩
      · intro atoms hatoms
        obtain ⟨carried, others, hcarried, hothers, hreplaced⟩ :=
          replaced_plainAtoms inner line' hinnerFill hatoms
        exact ⟨⟨carried, hcarried⟩, others, hothers, hreplaced.checkFrom rfl rfl⟩

end Nesting

-- ---------------------------------------------------------------------------
-- What statements write
-- ---------------------------------------------------------------------------

/-- The atoms that the action on `select` carries, where the given atoms are written.  A body that
the builder is told of gets another opener if it seems to stand between brackets, and is put between
brackets if not. -/
def Atom.carriedBody (built enclosed : Bool) (opener closer : Atom) (atoms : List Atom) :
    List Atom :=
  if built then if enclosed then opener :: atoms.tail else opener :: atoms ++ [closer] else atoms

namespace Statement

variable {body : List Statement} {opener closer : Atom} {atoms : List Atom}

/-- Statements that are no actions write what they are carried as. -/
theorem written_of_plainAtoms (hbody : ∀ st ∈ body, st.IsPlain) (h : plainAtoms body = .ok atoms) :
    written bareOpener body = .ok atoms := by
  induction body generalizing atoms with
  | nil =>
    rw [plainAtoms] at h
    rw [written, ← h]
  | cons st rest ih =>
    obtain ⟨hst, hrest⟩ := List.forall_mem_cons.mp hbody
    obtain ⟨ops, a, more, hops, hmake, hmore, rfl⟩ := plainAtoms_cons_eq_ok_iff.mp h
    rw [written_cons fun next _ => isPair_of_role rfl hst.not_criterion next,
      single_eq_atom hst.not_select, atom_of_operands hops,
      Atom.forScript_eq_ok_iff.mpr hmake, ih hrest hmore]
    rfl

/-- The body of an action keeps its atoms, but for the opener that seems to stand in front of it. -/
theorem carriedBody_eq (hcloser : Atom.forScript "uni_end_stream" [] = .ok closer)
    (hproper : ∀ st ∈ body, st.IsProper) (hatoms : plainAtoms body = .ok atoms)
    {inner : List Atom} (hinner : plainAtoms (unwrap body) = .ok inner) :
    Atom.carriedBody true (isEnclosed body) opener closer atoms = opener :: inner ++ [closer] := by
  rcases plainAtoms_unwrap hproper hatoms with ⟨henclosed, hsame⟩ |
    ⟨henclosed, first, middle, last, rfl, hmiddle, hlast, -⟩
  · cases hsame.symm.trans hinner
    rw [henclosed]
    rfl
  · cases hmiddle.symm.trans hinner
    cases hlast.symm.trans hcloser
    rw [henclosed]
    rfl

/-- If the opener is written without an id, it is the one that the body gets. -/
theorem cons_tail_of_isEnclosed
    (hopener : Atom.forScript "uni_start_stream" [] = .ok opener)
    (hproper : ∀ st ∈ body, st.IsProper) (hatoms : plainAtoms body = .ok atoms)
    (henclosed : isEnclosed body = true) (hbare : ∀ st ∈ body.head?, st.arguments = []) :
    opener :: atoms.tail = atoms := by
  rcases plainAtoms_unwrap hproper hatoms with ⟨hnot, -⟩ |
    ⟨-, first, inner, last, rfl, -, -, hfirst⟩
  · cases hnot.symm.trans henclosed
  · obtain ⟨head, hhead⟩ : ∃ head, head ∈ body.head? := by
      cases body with
      | nil => cases henclosed
      | cons head rest => exact ⟨head, rfl⟩
    cases hopener.symm.trans (hfirst head hhead (hbare head hhead))
    rfl

end Statement

/-- What statements write that differ in an action differs in its atom. -/
theorem Nesting.replaced_written {body : List Statement} {line line' : Nat} {opener closer : Atom}
    {atoms : List Atom} (hopener : Atom.forScript "uni_start_stream" [] = .ok opener)
    (hcloser : Atom.forScript "uni_end_stream" [] = .ok closer) (nesting : Nesting)
    (hbody : ∀ st ∈ body, st.IsPlain) (hatoms : Statement.plainAtoms body = .ok atoms)
    {before kept after : List Statement} (hstripped : Statement.IsStripped before kept)
    (hfirst : (nesting.fill (.mk .appendAction line [.stream body])).IsProper)
    (hsecond : (nesting.fill (.mk .selectAction line' [.stream body])).IsProper)
    {written others : List Atom}
    (hwritten : Statement.written Statement.bareOpener
      (kept ++ nesting.fill (.mk .appendAction line [.stream body]) :: after) = .ok written)
    (hothers : Statement.written Statement.bareOpener
      (kept ++ nesting.fill (.mk .selectAction line' [.stream body]) :: after) = .ok others) :
    Atom.Replaced (.carrying .appendAction atoms)
      (.carrying .selectAction (Atom.carriedBody (nesting.isBuilt before)
        (Statement.isEnclosed body) opener closer atoms)) written others := by
  induction nesting generalizing before kept after written others with
  | bare =>
    rw [fill] at hwritten hothers hsecond
    have hplain : (Statement.mk .appendAction line []).role = .plain := Statement.role_appendAction
    have hselect : (Statement.mk .selectAction line' []).role = .selectAction :=
      Statement.role_selectAction
    have halone {st : Statement} (hrole : st.role ≠ .replaceAction) :
        ∀ last ∈ kept.getLast?, last.isPair st = false :=
      fun last _ => Statement.isPair_eq_false_iff.mpr fun _ => hrole
    rw [Statement.written_carrying Signature.isCarrier_appendAction (by rw [hplain]; decide)
      (halone (by rw [hplain]; decide)), hatoms] at hwritten
    obtain ⟨left, hleft, hwritten⟩ := bind_eq_ok_iff.mp hwritten
    rw [ok_bind] at hwritten
    obtain ⟨right, hright, heq⟩ := bind_eq_ok_iff.mp hwritten
    cases heq
    rw [Statement.written_select Signature.isCarrier_selectAction hselect, hleft, hright,
      ok_bind] at hothers
    obtain ⟨carried, hcarried, heq⟩ := bind_eq_ok_iff.mp hothers
    cases heq
    obtain ⟨inner, hinner, rfl⟩ := (Statement.body_eq_ok_iff hopener hcloser hsecond).mp hcarried
    have hproper (st) (hst : st ∈ body) : st.IsProper := (hbody st hst).proper
    obtain ⟨found, hfound⟩ := Statement.exists_plainAtoms_unwrap hproper hatoms
    have hplain := Statement.written_of_plainAtoms (Statement.isPlain_unwrap hbody) hfound
    cases hplain.symm.trans hinner
    rw [isBuilt, Statement.carriedBody_eq hcloser hproper hatoms hfound]
    exact .here left right
  | carried s outerLine inside inner rest ih =>
    have hs := Statement.IsProper.isCarrier hfirst
    have hinnerFirst := (hfirst.takes.of_mem List.mem_cons_self).2 _
      (List.mem_append_right inside List.mem_cons_self)
    have hinnerSecond := (hsecond.takes.of_mem List.mem_cons_self).2 _
      (List.mem_append_right inside List.mem_cons_self)
    by_cases hbuilt : (Statement.mk s outerLine []).IsBuiltBehind kept
    · obtain ⟨left, t, right, hsplit⟩ :=
        Statement.written_of_isBuiltBehind hopener hcloser hbuilt hfirst hwritten
      obtain ⟨first, hfirstInner, rfl⟩ := hsplit hfirst hwritten
      obtain ⟨second, hsecondInner, rfl⟩ := hsplit hsecond hothers
      obtain ⟨keptInside, restInside, hstrippedInside, hunwrap⟩ :=
        Statement.unwrap_around inside rest
      have hroleFirst := role_fill line Signature.isCarrier_appendAction hinnerFirst
      have hroleSecond := role_fill line' Signature.isCarrier_selectAction hinnerSecond
      rw [hunwrap _ hroleFirst.1 hroleFirst.2] at hfirstInner
      rw [hunwrap _ hroleSecond.1 hroleSecond.2] at hsecondInner
      have hinner := ih hstrippedInside hinnerFirst hinnerSecond hfirstInner hsecondInner
      rw [isBuilt_of_isBuiltBehind hstripped hbuilt]
      exact .inside left t right (hinner.around [opener] [closer])
    · have halone : ∀ last ∈ kept.getLast?, last.isPair (.mk s outerLine []) = false :=
        fun last hlast => Statement.isPair_eq_false_iff.mpr fun hcriterion hreplace =>
          hbuilt (.inr ⟨hreplace, last, hlast, hcriterion⟩)
      rw [fill, Statement.written_carrying hs (fun h => hbuilt (.inl h)) halone]
        at hwritten hothers
      obtain ⟨left, hleft, hwritten⟩ := bind_eq_ok_iff.mp hwritten
      obtain ⟨first, hfirst, hwritten⟩ := bind_eq_ok_iff.mp hwritten
      obtain ⟨right, hright, heq⟩ := bind_eq_ok_iff.mp hwritten
      cases heq
      rw [hleft, ok_bind, hright] at hothers
      obtain ⟨second, hsecond, heq⟩ := bind_eq_ok_iff.mp hothers
      cases heq
      obtain ⟨found, other, hfound, hother, hreplaced⟩ :=
        replaced_plainAtoms inner line' hinnerFirst hfirst
      cases hfound.symm.trans hatoms
      cases hother.symm.trans hsecond
      rw [isBuilt_of_not_isBuiltBehind hstripped hbuilt]
      exact .inside left s right hreplaced

-- ---------------------------------------------------------------------------
-- Sources
-- ---------------------------------------------------------------------------

namespace Script

/-- The atoms of the script that a source text is read as. -/
theorem flatten_eq_written {source : String} {script : Script} {statements : List Statement}
    {atoms : List Atom} (hread : (Lexeme.scan source.toList >>= Statement.read) = .ok statements)
    (hparse : parse source = .ok script) (hflatten : script.flatten = .ok atoms) :
    ∃ written, Statement.written Statement.bareOpener statements = .ok written ∧
      atoms = Atom.assignDepths 0 written := by
  rw [parse_eq_run hread] at hparse
  obtain ⟨lexemes, -, hread⟩ := bind_eq_ok_iff.mp hread
  exact written_of_run hread hparse hflatten

theorem isProper_of_source {source : String} {statements : List Statement}
    (hread : (Lexeme.scan source.toList >>= Statement.read) = .ok statements) :
    ∀ st ∈ statements, st.IsProper := by
  obtain ⟨lexemes, -, hread⟩ := bind_eq_ok_iff.mp hread
  exact Statement.isProper_of_read hread

/-- A source text in which an action is added to those of an object, with a body without actions, is
accepted with one that takes the place of the action on `select` too, if it stands where actions
belong and its body is balanced without brackets that seem to be written around it.  Where the
action is part of a stream that is carried as it is written, it is accepted in any case.  Both
scripts have the same atoms, but for that of the action, which carries all atoms of the body, in
order. -/
theorem parse_selectAction_of_appendAction {source source' : String} {script : Script}
    {before after body : List Statement} {nesting : Nesting} {line line' : Nat}
    (hread : (Lexeme.scan source.toList >>= Statement.read) =
      .ok (before ++ nesting.fill (.mk .appendAction line [.stream body]) :: after))
    (hread' : (Lexeme.scan source'.toList >>= Statement.read) =
      .ok (before ++ nesting.fill (.mk .selectAction line' [.stream body]) :: after))
    (hbody : ∀ st ∈ body, ¬st.IsAction ∧ st.NamesType) (hparse : parse source = .ok script) :
    ∃ atoms opener closer, Statement.plainAtoms body = .ok atoms ∧
      Atom.forScript "uni_start_stream" [] = .ok opener ∧
      Atom.forScript "uni_end_stream" [] = .ok closer ∧
      (Succeeds (parse source') ↔ nesting.Allows before body) ∧
      (Statement.isEnclosed body = true → (∀ st ∈ body.head?, st.arguments = []) →
        opener :: atoms.tail = atoms) ∧
      ∀ script', parse source' = .ok script' → Succeeds script.flatten →
        ∃ written written', script.flatten = .ok (Atom.assignDepths 0 written) ∧
          script'.flatten = .ok (Atom.assignDepths 0 written') ∧
          Atom.Replaced (.carrying .appendAction atoms)
            (.carrying .selectAction (Atom.carriedBody (nesting.isBuilt before)
              (Statement.isEnclosed body) opener closer atoms)) written written' := by
  obtain ⟨opener, hopener, -⟩ := exists_of_any (x := Atom.forScript "uni_start_stream" [])
    (p := fun _ => true) rfl
  obtain ⟨closer, hcloser, -⟩ := exists_of_any (x := Atom.forScript "uni_end_stream" [])
    (p := fun _ => true) rfl
  obtain ⟨hbefore, hrest⟩ := List.forall_mem_append.mp (isProper_of_source hread)
  have hfill := hrest _ List.mem_cons_self
  have hfill' := isProper_of_source hread' _ (List.mem_append_right _ List.mem_cons_self)
  have hplain (st) (hst : st ∈ body) : st.IsPlain :=
    ⟨((Nesting.isProper_of_fill hfill).takes.of_mem List.mem_cons_self).2 st hst,
      (hbody st hst).1, (hbody st hst).2⟩
  obtain ⟨calls, hcalls, hbuild⟩ := (parse_eq_ok_iff hread).mp hparse
  obtain ⟨⟨atoms, hatoms⟩, other, hother, hexchanges⟩ :=
    nesting.exchanges line' hplain hbefore hfill (.inl rfl) hcalls
  have hparse' (script' : Script) : parse source' = .ok script' ↔
      (Builder.empty.callAll other).build = .ok script' := by
    rw [parse_eq_ok_iff hread', hother]
    simp only [Except.ok.injEq, exists_eq_left']
  refine ⟨atoms, opener, closer, hatoms, hopener, hcloser, ?_, ?_, ?_⟩
  · exact (exists_congr hparse').trans (hexchanges.succeeds_build_iff ⟨script, hbuild⟩)
  · exact Statement.cons_tail_of_isEnclosed hopener (fun st hst => (hplain st hst).proper) hatoms
  · intro script' hscript' hflatten
    obtain ⟨flat', hflat'⟩ :=
      hexchanges.succeeds_flatten hbuild ((hparse' script').mp hscript') hflatten
    obtain ⟨flat, hflat⟩ := hflatten
    obtain ⟨written, hwritten, rfl⟩ := flatten_eq_written hread hparse hflat
    obtain ⟨written', hwritten', rfl⟩ := flatten_eq_written hread' hscript' hflat'
    exact ⟨written, written', hflat, hflat', nesting.replaced_written hopener hcloser hplain hatoms
      (.inl rfl) hfill hfill' hwritten hwritten'⟩

/-- An object with an action that is added, whose body has brackets of its own. -/
def addedStream : String :=
  "uni_start_stream man_start_object <trigger, \"OK\"> act_append_action
<uni_start_stream async_exit uni_end_stream>
man_end_object uni_end_stream"

/-- The same object, with an action that takes the place of the one on `select`. -/
def selectedStream : String :=
  "uni_start_stream man_start_object <trigger, \"OK\"> act_replace_select_action
<uni_start_stream async_exit uni_end_stream>
man_end_object uni_end_stream"

/-- The statements of the object in front of the action. -/
def objectOpened : List Statement :=
  [.mk (.define "uni_start_stream" .uni 1 [.num] 0 (.opens .stream)) 1 [],
    .mk (.define "man_start_object" .man 0 [.named .objectType, Signature.title] 1 (.opens .object))
      1 [.literals [.name "trigger"], .literals [.text "OK"]]]

/-- The statements behind it. -/
def objectClosed : List Statement :=
  [.mk (.define "man_end_object" .man 2 [] 0 (.closes .object)) 3 [],
    .mk (.define "uni_end_stream" .uni 2 [] 0 (.closes .stream)) 3 []]

/-- The statements of the body. -/
def exitStream : List Statement :=
  [.mk (.define "uni_start_stream" .uni 1 [.num] 0 (.opens .stream)) 2 [],
    .mk (.plain "async_exit" .async 1 []) 2 [],
    .mk (.define "uni_end_stream" .uni 2 [] 0 (.closes .stream)) 2 []]

theorem exitStream_noActions : ∀ st ∈ exitStream, ¬st.IsAction ∧ st.NamesType := by
  have hall : exitStream.all (fun st => decide (st.signature.tag.protocol ≠ Family.act.code ∧
      st.role ≠ .startObject ∧ st.role ≠ .startSibling)) = true := rfl
  intro st hst
  obtain ⟨haction, hobject, hsibling⟩ := of_decide_eq_true (List.all_eq_true.mp hall st hst)
  exact ⟨haction, fun htype => htype.elim (absurd · hobject) (absurd · hsibling)⟩

theorem takesAction_objectOpened : Nesting.bare.TakesAction objectOpened :=
  ⟨[.object, .stream], rfl, .inl rfl⟩

set_option maxRecDepth 2000 in
/-- With its brackets, the body of the object's action may take the place of the one on `select`. -/
theorem parse_selectAction_exitStream :
    (Lexeme.scan addedStream.toList >>= Statement.read) =
        .ok (objectOpened ++ Nesting.bare.fill (.mk .appendAction 1 [.stream exitStream]) ::
          objectClosed) ∧
      (Lexeme.scan selectedStream.toList >>= Statement.read) =
        .ok (objectOpened ++ Nesting.bare.fill (.mk .selectAction 1 [.stream exitStream]) ::
          objectClosed) ∧
      (∀ st ∈ exitStream, ¬st.IsAction ∧ st.NamesType) ∧ Succeeds (parse addedStream) ∧
      Nesting.bare.Allows objectOpened exitStream ∧ Succeeds (parse selectedStream) := by
  have hread : (Lexeme.scan addedStream.toList >>= Statement.read) =
      .ok (objectOpened ++ Nesting.bare.fill (.mk .appendAction 1 [.stream exitStream]) ::
        objectClosed) := by
    rw [show addedStream.toList = _ from String.toList_ofList]
    rfl
  have hread' : (Lexeme.scan selectedStream.toList >>= Statement.read) =
      .ok (objectOpened ++ Nesting.bare.fill (.mk .selectAction 1 [.stream exitStream]) ::
        objectClosed) := by
    rw [show selectedStream.toList = _ from String.toList_ofList]
    rfl
  obtain ⟨script, hbuild, -⟩ := exists_of_any (p := fun _ => true) (x := Builder.empty.run
    (objectOpened ++ .mk .appendAction 1 [.stream exitStream] :: objectClosed) >>= Builder.build)
    (by decide +kernel)
  have hparse : parse addedStream = .ok script := (parse_eq_run hread).trans hbuild
  have hallows : Nesting.bare.Allows objectOpened exitStream := by
    refine fun _ => ⟨takesAction_objectOpened, fun _ => ?_⟩
    obtain ⟨atoms, hatoms, hbalanced⟩ := exists_of_any
      (x := Statement.plainAtoms (Statement.unwrap exitStream))
      (p := fun atoms => decide (Atom.checkBalance atoms = .ok ())) rfl
    exact ⟨atoms, hatoms, of_decide_eq_true hbalanced⟩
  obtain ⟨_, _, _, -, -, -, hiff, -⟩ :=
    parse_selectAction_of_appendAction hread hread' exitStream_noActions hparse
  exact ⟨hread, hread', exitStream_noActions, ⟨script, hparse⟩, hallows, hiff.mpr hallows⟩

/-- The object with a body of two streams in a row, each of which has brackets of its own. -/
def addedStreams : String :=
  "uni_start_stream man_start_object <trigger, \"OK\"> act_append_action
<uni_start_stream async_exit uni_end_stream uni_start_stream async_exit uni_end_stream>
man_end_object uni_end_stream"

/-- The same object, with an action that takes the place of the one on `select`. -/
def selectedStreams : String :=
  "uni_start_stream man_start_object <trigger, \"OK\"> act_replace_select_action
<uni_start_stream async_exit uni_end_stream uni_start_stream async_exit uni_end_stream>
man_end_object uni_end_stream"

set_option maxRecDepth 2000 in
/-- Of two streams in a row, the first and the last bracket are taken for brackets around the body.
It is accepted as that of an action that is added, but not as that of one that takes the place of
the one on `select`. -/
theorem parse_selectAction_rejects_streams :
    ∃ body : List Statement, (∀ st ∈ body, ¬st.IsAction ∧ st.NamesType) ∧
      (Lexeme.scan addedStreams.toList >>= Statement.read) =
        .ok (objectOpened ++ .mk .appendAction 1 [.stream body] :: objectClosed) ∧
      (Lexeme.scan selectedStreams.toList >>= Statement.read) =
        .ok (objectOpened ++ .mk .selectAction 1 [.stream body] :: objectClosed) ∧
      Nesting.bare.TakesAction objectOpened ∧ Succeeds (parse addedStreams) ∧
      parse selectedStreams = .error (.structural (.wrongEnd .stream .action)) := by
  have hread : (Lexeme.scan addedStreams.toList >>= Statement.read) =
      .ok (objectOpened ++ .mk .appendAction 1 [.stream (exitStream ++ exitStream)] ::
        objectClosed) := by
    rw [show addedStreams.toList = _ from String.toList_ofList]
    rfl
  have hread' : (Lexeme.scan selectedStreams.toList >>= Statement.read) =
      .ok (objectOpened ++ .mk .selectAction 1 [.stream (exitStream ++ exitStream)] ::
        objectClosed) := by
    rw [show selectedStreams.toList = _ from String.toList_ofList]
    rfl
  refine ⟨exitStream ++ exitStream, List.forall_mem_append.mpr
    ⟨exitStream_noActions, exitStream_noActions⟩, hread, hread', takesAction_objectOpened, ?_, ?_⟩
  · rw [parse_eq_run hread]
    obtain ⟨script, hbuild, -⟩ := exists_of_any (p := fun _ => true) (x := Builder.empty.run
      (objectOpened ++ .mk .appendAction 1 [.stream (exitStream ++ exitStream)] :: objectClosed)
        >>= Builder.build) (by decide +kernel)
    exact ⟨script, hbuild⟩
  · rw [parse_eq_run hread']
    exact eq_error_of_decide (by decide +kernel)

end Script

end Switchboard
