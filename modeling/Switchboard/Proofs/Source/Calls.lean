import Switchboard.Proofs.Script.Calls
import Switchboard.Proofs.Script.Parsed
import Switchboard.Proofs.Script.Placed
import Switchboard.Proofs.Source.Written

/-!
# The calls that statements make

Carrying out statements is making calls to the builder, and which calls these are does not depend on
the builder.

Main results:

* `Statement.apply_eq`: a statement that is no action is one call.
* `Builder.run_eq_ok_iff`: statements that are carried out without a fault are their calls.
-/

namespace Switchboard

namespace Statement

/-- The call of a statement that is no action. -/
def call (st : Statement) : Except CompileError Builder.Call := do
  match st.role with
  | .startStream =>
    match (← st.operands).head? with
    | some (.int id) => return .streamWithId id
    | _ => return .stream
  | .endStream => return .endStream
  | .startObject =>
    let (type, title) ← st.objectHead
    return .object type title
  | .startSibling =>
    let (type, title) ← st.objectHead
    return .sibling type title
  | .endObject => return .endObject
  | .globalContext =>
    match (← st.operands).head? with
    | some (.gid gid) => return .context gid
    | _ => return .fail (.format (.source st.line .needsGid))
  | .relativeContext =>
    match (← st.operands).head? with
    | some (.int tag) => return .contextRelative tag
    | _ => return .fail (.format (.source st.line .needsTag))
  | .endContext => return .endContext
  | .selectAction | .criterion | .replaceAction | .plain =>
    match Atom.make st.signature.name (← st.operands) with
    | .ok atom => return .pushAtom atom
    | .error error => return .fail (.ofAtomError error)

theorem apply_eq (b : Builder) (st : Statement) :
    st.apply b = st.call >>= fun c => .ok (b.call c) := by
  unfold apply call
  cases st.role
  -- a stream opens with an id or without, and a context with what it is given
  case startStream | globalContext | relativeContext =>
    dsimp only
    rw [bind_assoc]
    refine bind_congr fun ops => ?_
    cases ops.head? with
    | none => rfl
    | some op => cases op <;> rfl
  case startObject | startSibling =>
    dsimp only
    rw [bind_assoc]
    rfl
  case endStream | endObject | endContext => rfl
  -- whatever is left stands for an atom
  all_goals
    dsimp only
    rw [bind_assoc]
    refine bind_congr fun ops => ?_
    cases Atom.make st.signature.name ops <;> rfl

/-- The calls of statements, in order. -/
def calls : List Statement → Except CompileError (List Builder.Call)
  | [] => .ok []
  | st :: rest =>
    if st.role = .selectAction then do
      let body ← calls st.actionBody
      return .action "select" :: body ++ .endAction :: (← calls rest)
    else if st.role = .criterion then
      match rest with
      | next :: after =>
        if next.role = .replaceAction then do
          let name ← st.criterionName
          let body ← calls next.actionBody
          return .action name :: body ++ .endAction :: (← calls after)
        else do return (← st.call) :: (← calls (next :: after))
      | [] => do return [← st.call]
    else do return (← st.call) :: (← calls rest)
  termination_by statements => sizeOf statements
  decreasing_by
    all_goals simp only [List.cons.sizeOf_spec]
    · have := sizeOf_actionBody_lt st
      omega
    · omega
    · have := sizeOf_actionBody_lt next
      omega
    · omega
    · omega
    · omega

variable {st next : Statement} {rest : List Statement}

theorem calls_nil : calls [] = .ok [] := by
  rw [calls]

theorem calls_select (h : st.role = .selectAction) (rest : List Statement) :
    calls (st :: rest) = do
      let body ← calls st.actionBody
      return .action "select" :: body ++ .endAction :: (← calls rest) := by
  cases rest <;>
  · conv_lhs => rw [calls, if_pos h]

theorem calls_pair (h : st.isPair next = true) (rest : List Statement) :
    calls (st :: next :: rest) = do
      let name ← st.criterionName
      let body ← calls next.actionBody
      return .action name :: body ++ .endAction :: (← calls rest) := by
  obtain ⟨hcriterion, hnext⟩ := isPair_iff.mp h
  rw [calls, if_neg (by rw [hcriterion]; decide), if_pos hcriterion, if_pos hnext]

/-- A statement that is no action, and no criterion with its action behind it, is one call. -/
theorem calls_cons (hselect : st.role ≠ .selectAction)
    (hpair : ∀ next ∈ rest.head?, st.isPair next = false) :
    calls (st :: rest) = do return (← st.call) :: (← calls rest) := by
  by_cases hcriterion : st.role = .criterion
  · cases rest with
    | nil =>
      conv_lhs => rw [calls, if_neg hselect, if_pos hcriterion]
      rw [calls_nil]
      rfl
    | cons next after =>
      have hnext := isPair_eq_false_iff.mp (hpair next rfl) hcriterion
      rw [calls, if_neg hselect, if_pos hcriterion, if_neg hnext]
  · cases rest <;>
    · conv_lhs => rw [calls, if_neg hselect, if_neg hcriterion]

/-- Where no criterion comes before its action, the calls of statements side by side stand side by
side. -/
theorem calls_append : ∀ before after : List Statement,
    (∀ last ∈ before.getLast?, ∀ next ∈ after.head?, last.isPair next = false) →
      calls (before ++ after) = do return (← calls before) ++ (← calls after)
  | [], after, _ => by
    rw [calls_nil, List.nil_append]
    cases calls after <;> rfl
  | [st], after, hpair => by
    by_cases hselect : st.role = .selectAction
    · rw [List.singleton_append, calls_select hselect, calls_select hselect, calls_nil]
      simp only [bind_assoc, pure_bind, ok_bind, List.append_assoc, List.cons_append,
        List.nil_append]
    · rw [List.singleton_append, calls_cons hselect (hpair st rfl),
        calls_cons hselect (by rintro _ ⟨⟩), calls_nil]
      simp only [bind_assoc, pure_bind, ok_bind, List.singleton_append]
  | st :: next :: rest, after, hpair => by
    have hrest := calls_append (next :: rest) after hpair
    by_cases hselect : st.role = .selectAction
    · rw [List.cons_append, calls_select hselect, calls_select hselect, hrest]
      simp only [bind_assoc, pure_bind, List.append_assoc, List.cons_append]
    by_cases hnext : st.isPair next = true
    · have hlater := calls_append rest after fun last hlast => hpair last <| by
        rw [List.getLast?_cons_cons, List.getLast?_cons, Option.mem_def.mp hlast]
        rfl
      rw [List.cons_append, List.cons_append, calls_pair hnext, calls_pair hnext, hlater]
      simp only [bind_assoc, pure_bind, List.append_assoc, List.cons_append]
    · have hsingle : ∀ other ∈ (next :: rest).head?, st.isPair other = false := by
        rintro other ⟨⟩
        exact Bool.eq_false_iff.mpr hnext
      rw [List.cons_append, calls_cons hselect (by exact hsingle), calls_cons hselect hsingle,
        hrest]
      simp only [bind_assoc, pure_bind, List.cons_append]

end Statement

namespace Builder

variable {b final : Builder} {statements : List Statement}

theorem failed_of_failed_callAll {calls : List Call} (h : (b.callAll calls).failed = false) :
    b.failed = false := by
  cases hfailed : b.failed with
  | false => rfl
  | true =>
    rw [callAll_of_failed hfailed, hfailed] at h
    cases h

/-- A statement is one call, and those behind it are their calls. -/
theorem run_cons_eq_ok_iff {st : Statement} {rest : List Statement}
    (hrest : ∀ next : Builder, next.run rest = .ok final ↔
      ∃ calls, Statement.calls rest = .ok calls ∧ next.callAll calls = final) :
    (st.apply b >>= fun next => next.run rest) = .ok final ↔
      ∃ calls, (do return (← st.call) :: (← Statement.calls rest)) = Except.ok calls ∧
        b.callAll calls = final := by
  rw [Statement.apply_eq, bind_assoc]
  constructor
  · intro h
    obtain ⟨c, hc, h⟩ := bind_eq_ok_iff.mp h
    obtain ⟨later, hlater, hfinal⟩ := (hrest _).mp h
    rw [hc, hlater]
    exact ⟨c :: later, rfl, hfinal⟩
  · rintro ⟨calls, hcalls, hfinal⟩
    obtain ⟨c, hc, hcalls⟩ := bind_eq_ok_iff.mp hcalls
    obtain ⟨later, hlater, heq⟩ := bind_eq_ok_iff.mp hcalls
    cases heq
    rw [hc]
    exact (hrest _).mpr ⟨later, hlater, hfinal⟩

/-- An action is a call, its body, and a call, and the statements behind it are their calls. -/
theorem run_action_eq_ok_iff {name : String} {body rest : List Statement}
    (hfinal : final.failed = false)
    (hbody : ∀ {mid : Builder}, mid.failed = false → ((b.action name).run body = .ok mid ↔
      ∃ calls, Statement.calls body = .ok calls ∧ (b.action name).callAll calls = mid))
    (hrest : ∀ mid : Builder, mid.endAction.run rest = .ok final ↔
      ∃ calls, Statement.calls rest = .ok calls ∧ mid.endAction.callAll calls = final) :
    ((b.action name).run body >>= fun mid => mid.endAction.run rest) = .ok final ↔
      ∃ calls, (do
          let inner ← Statement.calls body
          return .action name :: inner ++ .endAction :: (← Statement.calls rest)) =
            Except.ok calls ∧
        b.callAll calls = final := by
  have hsplit (inner later : List Call) : b.callAll (.action name :: inner ++ .endAction :: later) =
      ((b.action name).callAll inner).endAction.callAll later := by
    rw [callAll_append]
    rfl
  -- a builder that fails nowhere has not failed in between
  have hopen {mid : Builder} {later : List Call} (h : mid.endAction.callAll later = final) :
      mid.failed = false := by
    have hclosed : (mid.call .endAction).failed = false := failed_of_failed_callAll (h ▸ hfinal)
    exact failed_of_failed_call hclosed
  constructor
  · intro h
    obtain ⟨mid, hmid, h⟩ := bind_eq_ok_iff.mp h
    obtain ⟨later, hlater, hend⟩ := (hrest mid).mp h
    obtain ⟨inner, hinner, rfl⟩ := (hbody (hopen hend)).mp hmid
    rw [hinner, hlater]
    exact ⟨_, rfl, (hsplit inner later).trans hend⟩
  · rintro ⟨calls, hcalls, hend⟩
    obtain ⟨inner, hinner, hcalls⟩ := bind_eq_ok_iff.mp hcalls
    obtain ⟨later, hlater, heq⟩ := bind_eq_ok_iff.mp hcalls
    cases heq
    rw [hsplit] at hend
    rw [(hbody (hopen hend)).mpr ⟨inner, hinner, rfl⟩]
    exact (hrest _).mpr ⟨later, hlater, hend⟩

/-- Statements that are carried out without a fault are their calls. -/
theorem run_eq_ok_iff (hfinal : final.failed = false) :
    b.run statements = .ok final ↔
      ∃ calls, Statement.calls statements = .ok calls ∧ b.callAll calls = final := by
  -- the recursion follows the statements, with the body of an action taken before what follows it
  induction b, statements using run.induct generalizing final with
  | case1 b =>
    rw [run, Statement.calls_nil]
    simp only [Except.ok.injEq, exists_eq_left', callAll, List.foldl_nil]
  -- a builder that has failed stays failed
  | case2 b st rest hfailed =>
    have hne : b ≠ final := by
      rintro rfl
      rw [hfailed] at hfinal
      cases hfinal
    simp only [run_failed hfailed, callAll_of_failed hfailed, Except.ok.injEq, hne, and_false,
      exists_false]
  | case3 b st rest hfailed hrole ihBody ihRest =>
    rw [run_select hfailed hrole, Statement.calls_select hrole]
    exact run_action_eq_ok_iff hfinal (fun hmid => ihBody hmid) fun mid => ihRest mid hfinal
  | case4 b st hfailed hselect hrole next after hnext ihBody ihRest =>
    rw [run, if_neg hfailed, if_neg hselect, if_pos hrole, if_pos hnext,
      Statement.calls_pair (Statement.isPair_iff.mpr ⟨hrole, hnext⟩)]
    cases st.criterionName with
    | error error => simp [error_bind]
    | ok name =>
      exact run_action_eq_ok_iff hfinal (fun hmid => ihBody name hmid) fun mid => ihRest mid hfinal
  -- a criterion that stands by itself is an atom like any other
  | case5 b st hfailed hselect hrole next after hnext ih =>
    rw [run, if_neg hfailed, if_neg hselect, if_pos hrole, if_neg hnext,
      Statement.calls_cons hselect]
    · exact run_cons_eq_ok_iff fun later => ih later hfinal
    · rintro other ⟨⟩
      exact Statement.isPair_eq_false_iff.mpr fun _ => hnext
  | case6 b st hfailed hselect hrole =>
    have hrun : (fun b : Builder => b.run []) = pure := by
      funext b
      rw [run]
      rfl
    rw [run, if_neg hfailed, if_neg hselect, if_pos hrole, ← bind_pure (st.apply b), ← hrun,
      Statement.calls_cons hselect (by rintro _ ⟨⟩)]
    refine run_cons_eq_ok_iff fun later => ?_
    rw [run, Statement.calls_nil]
    simp only [Except.ok.injEq, exists_eq_left', callAll, List.foldl_nil]
  | case7 b st rest hfailed hselect hrole ih =>
    rw [run_apply hfailed hselect hrole, Statement.calls_cons hselect]
    · exact run_cons_eq_ok_iff fun later => ih later hfinal
    · exact fun other _ => Statement.isPair_of_role rfl hrole other

end Builder

/-- A source text is read as the script that its statements build. -/
theorem Script.parse_eq_run {source : String} {statements : List Statement}
    (hread : (Lexeme.scan source.toList >>= Statement.read) = .ok statements) :
    parse source = Builder.empty.run statements >>= Builder.build := by
  obtain ⟨lexemes, hscan, hread⟩ := bind_eq_ok_iff.mp hread
  rw [parse, hscan, ok_bind, hread, ok_bind]

/-- A source text is read as the script that the calls of its statements build. -/
theorem Script.parse_eq_ok_iff {source : String} {statements : List Statement} {script : Script}
    (hread : (Lexeme.scan source.toList >>= Statement.read) = .ok statements) :
    parse source = .ok script ↔
      ∃ calls, Statement.calls statements = .ok calls ∧
        (Builder.empty.callAll calls).build = .ok script := by
  rw [parse_eq_run hread]
  constructor
  · intro h
    obtain ⟨b, hrun, hbuild⟩ := bind_eq_ok_iff.mp h
    have hopen := (Builder.build_eq_ok_iff.mp hbuild).1
    obtain ⟨calls, hcalls, rfl⟩ := (Builder.run_eq_ok_iff hopen).mp hrun
    exact ⟨calls, hcalls, hbuild⟩
  · rintro ⟨calls, hcalls, hbuild⟩
    rw [(Builder.run_eq_ok_iff (Builder.build_eq_ok_iff.mp hbuild).1).mpr ⟨calls, hcalls, rfl⟩]
    exact hbuild

end Switchboard
