import Switchboard.Proofs.Source.Scopes

/-!
# Places of statements

A statement stands by itself or in the stream that an action carries, at any depth.  What the
builder is told around such a place, and what is written there, does not depend on the statement, as
long as it is no bracket.

Main results:

* `Statement.unwrap_around`: which brackets are dropped does not depend on what stands between them.
* `Statement.calls_of_isBuiltBehind`, `Statement.calls_around`: the calls around a place.
* `Statement.written_of_isBuiltBehind`, `Statement.written_carrying`: the atoms around a place.
-/

namespace Switchboard

-- ---------------------------------------------------------------------------
-- Places of statements
-- ---------------------------------------------------------------------------

/-- How deep a statement is nested: it stands by itself, or in the stream of another statement. -/
inductive Nesting where
  | bare
  | carried (signature : Signature) (line : Nat) (before : List Statement) (inner : Nesting)
      (after : List Statement)

namespace Nesting

/-- The outermost statement, where the given one is nested in it. -/
def fill (st : Statement) : Nesting → Statement
  | bare => st
  | carried s line before inner after => .mk s line [.stream (before ++ inner.fill st :: after)]

/-- Whether the streams around a statement are all bodies of actions that the builder is told of,
with `before` in front of the outermost one.  Any other stream is carried as it is written. -/
def isBuilt (before : List Statement) : Nesting → Bool
  | bare => true
  | carried s line inside inner _ =>
    ((Statement.mk s line []).role = .selectAction ||
      ((Statement.mk s line []).role = .replaceAction &&
        before.getLast?.any (·.role = .criterion))) && inner.isBuilt inside

/-- The scopes that are open in front of a statement, in the innermost stream that it stands in. -/
def scopes (before : List Statement) : Nesting → Except StructureFault (List Scope)
  | bare => Statement.scopes [] before
  | carried _ _ inside inner _ => inner.scopes inside

/-- Whether the innermost scope around a statement is one that actions belong to. -/
def TakesAction (before : List Statement) (nesting : Nesting) : Prop :=
  ∃ scopes, nesting.scopes before = .ok scopes ∧
    (scopes.head? = some .object ∨ scopes.head? = some .context)

end Nesting

-- ---------------------------------------------------------------------------
-- Statements that carry streams
-- ---------------------------------------------------------------------------

/-- An atom that carries a stream. -/
def Atom.carrying (s : Signature) (atoms : List Atom) : Atom :=
  .mk s [.stream atoms] 0

/-- What all signatures keep to whose atoms carry a stream: each is that of an action. -/
structure Signature.IsCarrier (s : Signature) : Prop where
  known : Signature.byName? s.name = some s
  fields : s.fields = [.stream]
  required : s.required = 1
  effect : s.effect = .none
  role : (Role.table.lookup s.name).getD .plain ∈ [Role.selectAction, .replaceAction, .plain]

section

variable {s : Signature} {line : Nat} {stream : List Statement}

theorem Statement.IsProper.isCarrier (h : (Statement.mk s line [.stream stream]).IsProper) :
    s.IsCarrier := by
  have hmem := h.mem_all
  have hfield : .stream ∈ s.fields := by
    obtain ⟨count, suits⟩ := h.takes
    have hlt : 0 < s.fields.length := count
    have hsuits := suits 0 s.fields[0] _ (List.getElem?_eq_getElem hlt) rfl
    have hfirst := List.getElem_mem hlt
    generalize s.fields[0] = kind at hsuits hfirst
    cases hsuits
    exact hfirst
  obtain ⟨hrequired, heffect, hrole⟩ := (Signature.role_of_mem_all s hmem).2.2 hfield
  exact ⟨h.known, Signature.fields_eq_singleton hmem (.inr rfl) hfield, hrequired, heffect, hrole⟩

namespace Signature.IsCarrier

theorem make_eq (h : s.IsCarrier) (atoms : List Atom) :
    Atom.make s.name [.stream atoms] = .ok (.carrying s atoms) := by
  have hkept : Operand.dropOmitted s.required [.stream atoms] = [.stream atoms] := by
    rw [h.required]
    rfl
  refine Atom.make_eq_ok_iff.mpr ⟨s, h.known, ?_, ?_⟩
  · rw [hkept, Signature.check, h.required, h.fields]
    rfl
  · rw [hkept]
    rfl

theorem operands_eq (h : s.IsCarrier) :
    (Statement.mk s line [.stream stream]).operands =
      Statement.plainAtoms stream >>= fun atoms => .ok [.stream atoms] := by
  rw [Statement.operands, h.fields, Argument.operands, Argument.operand, Argument.operands]
  · simp only [bind_assoc, pure_bind, ok_bind]
    rfl
  · rintro _ _ _ _ ⟨⟩

theorem role_ne (h : s.IsCarrier) {role : Role}
    (hrole : role ∉ [Role.selectAction, .replaceAction, .plain]) :
    (Statement.mk s line [.stream stream]).role ≠ role :=
  fun heq => hrole (heq ▸ h.role)

theorem atom_eq (h : s.IsCarrier) :
    (Statement.mk s line [.stream stream]).atom =
      Statement.plainAtoms stream >>= fun atoms => .ok (.carrying s atoms) := by
  rw [Statement.atom, h.operands_eq, bind_assoc]
  refine bind_congr fun atoms => ?_
  exact Atom.forScript_eq_ok_iff.mpr (h.make_eq atoms)

/-- Where the builder is not told of the body, the stream is carried as it is written. -/
theorem call_eq (h : s.IsCarrier)
    (hselect : (Statement.mk s line [.stream stream]).role ≠ .selectAction) :
    (Statement.mk s line [.stream stream]).call =
      Statement.plainAtoms stream >>= fun atoms => .ok (.pushAtom (.carrying s atoms)) := by
  have hrole : (Statement.mk s line [.stream stream]).role ∈ _ := h.role
  unfold Statement.call
  cases heq : (Statement.mk s line [.stream stream]).role
  case replaceAction | plain =>
    dsimp only [Statement.signature]
    rw [h.operands_eq, bind_assoc]
    refine bind_congr fun atoms => ?_
    rw [ok_bind, h.make_eq]
    rfl
  case selectAction => exact absurd heq hselect
  all_goals simp [heq] at hrole

end Signature.IsCarrier

end

/-- The signature of an action that is added to those of an object. -/
def Signature.appendAction : Signature :=
  .plain "act_append_action" .act 4 [.stream]

/-- The signature of an action that takes the place of the one on `select`. -/
def Signature.selectAction : Signature :=
  .plain "act_replace_select_action" .act 3 [.stream]

theorem Signature.isCarrier_appendAction : appendAction.IsCarrier :=
  ⟨rfl, rfl, rfl, rfl, by decide⟩

theorem Signature.isCarrier_selectAction : selectAction.IsCarrier :=
  ⟨rfl, rfl, rfl, rfl, by decide⟩

theorem Statement.role_appendAction :
    (Role.table.lookup Signature.appendAction.name).getD .plain = .plain := rfl

theorem Statement.role_selectAction :
    (Role.table.lookup Signature.selectAction.name).getD .plain = .selectAction := rfl

namespace Nesting

theorem isProper_of_fill {nesting : Nesting} {st : Statement}
    (h : (nesting.fill st).IsProper) : st.IsProper := by
  induction nesting with
  | bare => exact h
  | carried s line inside inner after ih =>
    exact ih ((h.takes.of_mem List.mem_cons_self).2 _ (List.mem_append_right _ List.mem_cons_self))

/-- A statement in which an action is nested carries a stream, and is no bracket. -/
theorem role_fill (line' : Nat) {nesting : Nesting} {s t : Signature} {stream : List Statement}
    (ht : t.IsCarrier) (h : (nesting.fill (.mk s line [.stream stream])).IsProper) :
    (nesting.fill (.mk t line' [.stream stream])).role ≠ .startStream ∧
      (nesting.fill (.mk t line' [.stream stream])).role ≠ .endStream := by
  cases nesting with
  | bare => exact ⟨ht.role_ne (by decide), ht.role_ne (by decide)⟩
  | carried u line inside inner after =>
    have hu := Statement.IsProper.isCarrier h
    exact ⟨hu.role_ne (by decide), hu.role_ne (by decide)⟩

end Nesting

-- ---------------------------------------------------------------------------
-- Brackets around places
-- ---------------------------------------------------------------------------

namespace Statement

/-- The statements in front of a place, as they are written or without an opener before them all. -/
def IsStripped (before kept : List Statement) : Prop :=
  before = kept ∨ ∃ opener, opener.role = .startStream ∧ before = opener :: kept

theorem IsStripped.mem (h : IsStripped before kept) {st : Statement} (hst : st ∈ kept) :
    st ∈ before := by
  obtain rfl | ⟨opener, -, rfl⟩ := h
  · exact hst
  · exact List.mem_cons_of_mem _ hst

/-- Whether brackets are written around all statements does not depend on one that is no bracket. -/
theorem unwrap_around (before after : List Statement) :
    ∃ kept rest, IsStripped before kept ∧ ∀ st : Statement, st.role ≠ .startStream →
      st.role ≠ .endStream → unwrap (before ++ st :: after) = kept ++ st :: rest := by
  by_cases hbrackets : ∃ opener kept rest closer, before = opener :: kept ∧
      after = rest ++ [closer] ∧ opener.role = .startStream ∧ closer.role = .endStream
  · obtain ⟨opener, kept, rest, closer, rfl, rfl, hopener, hcloser⟩ := hbrackets
    refine ⟨kept, rest, .inr ⟨opener, hopener, rfl⟩, fun st _ _ => ?_⟩
    have hsplit : kept ++ st :: (rest ++ [closer]) = (kept ++ st :: rest) ++ [closer] := by
      rw [List.append_assoc, List.cons_append]
    rw [List.cons_append, unwrap_of_isEnclosed, hsplit, List.dropLast_concat]
    exact isEnclosed_cons_iff.mpr ⟨hopener, closer, by rw [hsplit, List.getLast?_concat], hcloser⟩
  · refine ⟨before, after, .inl rfl, fun st hstart hend => ?_⟩
    cases before with
    | nil => exact unwrap_of_not_isEnclosed fun h => hstart (isEnclosed_cons_iff.mp h).1
    | cons opener kept =>
      refine unwrap_of_not_isEnclosed fun h => hbrackets ?_
      obtain ⟨hopener, closer, hlast, hcloser⟩ := isEnclosed_cons_iff.mp h
      change (kept ++ st :: after).getLast? = some closer at hlast
      rw [List.getLast?_append_of_ne_nil _ (List.cons_ne_nil _ _)] at hlast
      obtain ⟨rest, hrest⟩ := List.getLast?_eq_some_iff.mp hlast
      cases rest with
      | nil =>
        -- the closer would be the statement itself
        cases hrest
        exact absurd hcloser hend
      | cons first rest =>
        cases hrest
        exact ⟨opener, kept, rest, closer, rfl, rfl, hopener, hcloser⟩

theorem unwrap_cases (body : List Statement) :
    (isEnclosed body = false ∧ unwrap body = body) ∨
      isEnclosed body = true ∧ ∃ opener inner closer, opener.role = .startStream ∧
        closer.role = .endStream ∧ body = opener :: inner ++ [closer] ∧ unwrap body = inner := by
  cases body with
  | nil => exact .inl ⟨rfl, rfl⟩
  | cons opener rest =>
    by_cases h : isEnclosed (opener :: rest) = true
    · obtain ⟨hopener, closer, hlast, hcloser⟩ := isEnclosed_cons_iff.mp h
      obtain ⟨inner, rfl⟩ := List.getLast?_eq_some_iff.mp hlast
      refine .inr ⟨h, opener, inner, closer, hopener, hcloser, rfl, ?_⟩
      rw [unwrap_of_isEnclosed h, List.dropLast_concat]
    · exact .inl ⟨Bool.eq_false_iff.mpr h, unwrap_of_not_isEnclosed h⟩

end Statement

-- ---------------------------------------------------------------------------
-- Calls around a place
-- ---------------------------------------------------------------------------

/-- Whether the builder is told of the body of an action, where `before` comes in front of it. -/
def Statement.IsBuiltBehind (before : List Statement) (st : Statement) : Prop :=
  st.role = .selectAction ∨
    st.role = .replaceAction ∧ ∃ setter ∈ before.getLast?, setter.role = .criterion

namespace Nesting

variable {before kept : List Statement} {nesting : Nesting}

theorem isBuilt_of_isStripped (h : Statement.IsStripped before kept) :
    nesting.isBuilt before = nesting.isBuilt kept := by
  obtain rfl | ⟨opener, hopener, rfl⟩ := h
  · rfl
  cases nesting with
  | bare => rfl
  | carried s line inside inner after =>
    have hlast : (opener :: kept).getLast?.any (·.role = .criterion) =
        kept.getLast?.any (·.role = .criterion) := by
      rw [List.getLast?_cons]
      cases kept.getLast? with
      | none => simp [hopener]
      | some last => rfl
    rw [isBuilt, isBuilt, hlast]

variable {s : Signature} {line : Nat} {inside rest : List Statement} {inner : Nesting}

theorem isBuilt_carried_iff :
    (carried s line inside inner rest).isBuilt before = true ↔
      (Statement.mk s line []).IsBuiltBehind before ∧ inner.isBuilt inside = true := by
  rw [isBuilt, Bool.and_eq_true, Bool.or_eq_true, Bool.and_eq_true, Option.any_eq_true]
  simp only [decide_eq_true_eq]
  rfl

theorem isBuilt_of_isBuiltBehind (hstripped : Statement.IsStripped before kept)
    (h : (Statement.mk s line []).IsBuiltBehind kept) :
    (carried s line inside inner rest).isBuilt before = inner.isBuilt inside := by
  rw [Bool.eq_iff_iff, isBuilt_of_isStripped hstripped, isBuilt_carried_iff]
  exact and_iff_right h

theorem isBuilt_of_not_isBuiltBehind (hstripped : Statement.IsStripped before kept)
    (h : ¬(Statement.mk s line []).IsBuiltBehind kept) :
    (carried s line inside inner rest).isBuilt before = false := by
  rw [Bool.eq_false_iff, isBuilt_of_isStripped hstripped, Ne, isBuilt_carried_iff]
  exact fun hbuilt => h hbuilt.1

end Nesting

namespace Statement

variable {s : Signature} {line : Nat} {before after stream : List Statement} {st : Statement}

/-- The calls around the body of an action do not depend on the body. -/
theorem calls_of_isBuiltBehind (h : (mk s line []).IsBuiltBehind before)
    {made : List Builder.Call}
    (hcalls : calls (before ++ mk s line [.stream stream] :: after) = .ok made) :
    ∃ front name inner later, calls (unwrap stream) = .ok inner ∧
      made = front ++ (.action name :: inner ++ .endAction :: later) ∧
      ∀ {other : List Statement} {otherInner}, calls (unwrap other) = .ok otherInner →
        calls (before ++ mk s line [.stream other] :: after) =
          .ok (front ++ (.action name :: otherInner ++ .endAction :: later)) := by
  rcases h with hrole | ⟨hrole, setter, hsetter, hcriterion⟩
  · have hselect (args) : (mk s line args).role = .selectAction := hrole
    have hsplit (args) : calls (before ++ mk s line args :: after) = do
        return (← calls before) ++ (← calls (mk s line args :: after)) := by
      refine calls_append before _ ?_
      rintro last - next ⟨⟩
      exact isPair_eq_false_iff.mpr fun _ heq => by cases (hselect args).symm.trans heq
    rw [hsplit, calls_select (hselect _)] at hcalls
    obtain ⟨front, hfront, hcalls⟩ := bind_eq_ok_iff.mp hcalls
    obtain ⟨rest, hrest, heq⟩ := bind_eq_ok_iff.mp hcalls
    cases heq
    obtain ⟨inner, hinner, hrest⟩ := bind_eq_ok_iff.mp hrest
    obtain ⟨later, hlater, heq⟩ := bind_eq_ok_iff.mp hrest
    cases heq
    refine ⟨front, "select", inner, later, hinner, rfl, fun hother => ?_⟩
    rw [hsplit, calls_select (hselect _), hfront, ok_bind, actionBody, arguments]
    dsimp only
    rw [hother, hlater]
    rfl
  · obtain ⟨front, rfl⟩ := List.getLast?_eq_some_iff.mp hsetter
    have hpair (args) : setter.isPair (mk s line args) = true := isPair_iff.mpr ⟨hcriterion, hrole⟩
    have hsplit (args) : calls (front ++ [setter] ++ mk s line args :: after) = do
        return (← calls front) ++ (← calls (setter :: mk s line args :: after)) := by
      rw [List.append_assoc, List.singleton_append]
      refine calls_append front _ ?_
      rintro last - next ⟨⟩
      exact isPair_eq_false_iff.mpr fun _ heq => by cases hcriterion.symm.trans heq
    rw [hsplit, calls_pair (hpair _)] at hcalls
    obtain ⟨first, hfirst, hcalls⟩ := bind_eq_ok_iff.mp hcalls
    obtain ⟨rest, hrest, heq⟩ := bind_eq_ok_iff.mp hcalls
    cases heq
    obtain ⟨name, hname, hrest⟩ := bind_eq_ok_iff.mp hrest
    obtain ⟨inner, hinner, hrest⟩ := bind_eq_ok_iff.mp hrest
    obtain ⟨later, hlater, heq⟩ := bind_eq_ok_iff.mp hrest
    cases heq
    refine ⟨first, name, inner, later, hinner, rfl, fun hother => ?_⟩
    rw [hsplit, calls_pair (hpair _), hfirst, ok_bind, hname, ok_bind, actionBody, arguments]
    dsimp only
    rw [hother, hlater]
    rfl

/-- A statement that is one call stands between the calls of the others. -/
theorem calls_around (hselect : st.role ≠ .selectAction) (hcriterion : st.role ≠ .criterion)
    (hbefore : ∀ last ∈ before.getLast?, last.isPair st = false) :
    calls (before ++ st :: after) = do
      return (← calls before) ++ (← st.call) :: (← calls after) := by
  rw [calls_append before _ (by rintro last hlast next ⟨⟩; exact hbefore last hlast),
    calls_cons hselect fun next _ => isPair_of_role rfl hcriterion next]
  simp only [bind_assoc, pure_bind]

end Statement

-- ---------------------------------------------------------------------------
-- Scopes around a place
-- ---------------------------------------------------------------------------

theorem ScopeEffect.apply_append {effect : ScopeEffect} {name : String} {opened after : List Scope}
    (h : effect.apply name opened = .ok after) (more : List Scope) :
    effect.apply name (opened ++ more) = .ok (after ++ more) := by
  cases effect with
  | none | opens scope =>
    cases h
    rfl
  | closes scope | reopens scope =>
    rw [apply] at h ⊢
    split at h
    · next hhead =>
      cases h
      obtain ⟨rest, rfl⟩ := List.head?_eq_some_iff.mp hhead
      exact if_pos rfl
    · cases h

/-- Scopes that are open around all statements stay open. -/
theorem Statement.scopes_append {statements : List Statement} {opened after : List Scope}
    (h : scopes opened statements = .ok after) (more : List Scope) :
    scopes (opened ++ more) statements = .ok (after ++ more) := by
  induction statements generalizing opened with
  | nil =>
    cases h
    rfl
  | cons st rest ih =>
    obtain ⟨next, happly, hrest⟩ := scopes_cons_eq_ok_iff.mp h
    exact scopes_cons_eq_ok_iff.mpr ⟨_, ScopeEffect.apply_append happly more, ih hrest⟩

/-- An opener in front of all statements makes no difference to which scope is innermost, but where
there is no other. -/
theorem Nesting.takesAction_bare_iff {before kept : List Statement} {opened : List Scope}
    (hproper : ∀ st ∈ before, st.IsProper) (h : Statement.IsStripped before kept)
    (hscopes : Statement.scopes [] kept = .ok opened) :
    TakesAction before .bare ↔ opened.head? = some .object ∨ opened.head? = some .context := by
  rw [TakesAction, scopes]
  obtain rfl | ⟨opener, hopener, rfl⟩ := h
  · simp [hscopes]
  · have heffect := (hproper opener List.mem_cons_self).effect_eq
    have hstream : Statement.scopes [] (opener :: kept) = .ok (opened ++ [.stream]) := by
      refine Statement.scopes_cons_eq_ok_iff.mpr ⟨[.stream], ?_, Statement.scopes_append hscopes _⟩
      rw [heffect, hopener]
      rfl
    rw [hstream]
    cases opened <;> simp

-- ---------------------------------------------------------------------------
-- Carried atoms around a place
-- ---------------------------------------------------------------------------

namespace Statement

variable {before after body stream : List Statement} {st : Statement} {s : Signature} {line : Nat}
  {opener closer : Atom} {atoms : List Atom}

theorem plainAtoms_append_eq_ok_iff {statements more : List Statement} :
    plainAtoms (statements ++ more) = .ok atoms ↔
      ∃ left right, plainAtoms statements = .ok left ∧ plainAtoms more = .ok right ∧
        atoms = left ++ right := by
  induction statements generalizing atoms with
  | nil => simp [plainAtoms, eq_comm]
  | cons st rest ih =>
    rw [List.cons_append]
    simp only [plainAtoms_cons_eq_ok_iff, ih]
    constructor
    · rintro ⟨ops, a, _, hops, ha, ⟨left, right, hleft, hright, rfl⟩, rfl⟩
      exact ⟨a :: left, right, ⟨ops, a, left, hops, ha, hleft, rfl⟩, hright, rfl⟩
    · rintro ⟨_, right, ⟨ops, a, left, hops, ha, hleft, rfl⟩, hright, rfl⟩
      exact ⟨ops, a, left ++ right, hops, ha, ⟨left, right, hleft, hright, rfl⟩, rfl⟩

/-- A stream that is carried as it is written, between other statements. -/
theorem plainAtoms_around {s : Signature} (h : s.IsCarrier) {stream : List Statement}
    {atoms : List Atom} :
    plainAtoms (before ++ mk s line [.stream stream] :: after) = .ok atoms ↔
      ∃ left inner right, plainAtoms before = .ok left ∧ plainAtoms stream = .ok inner ∧
        plainAtoms after = .ok right ∧ atoms = left ++ .carrying s inner :: right := by
  rw [plainAtoms_append_eq_ok_iff]
  simp only [plainAtoms_cons_eq_ok_iff, h.operands_eq]
  constructor
  · rintro ⟨left, _, hleft, ⟨ops, a, right, hops, hmake, hright, rfl⟩, rfl⟩
    obtain ⟨inner, hinner, heq⟩ := bind_eq_ok_iff.mp hops
    cases heq
    cases hmake.symm.trans (h.make_eq inner)
    exact ⟨left, inner, right, hleft, hinner, hright, rfl⟩
  · rintro ⟨left, inner, right, hleft, hinner, hright, rfl⟩
    exact ⟨left, _, hleft, ⟨_, _, right, by rw [hinner]; rfl, h.make_eq inner, hright, rfl⟩, rfl⟩

/-- The atoms of the body of an action, and what the brackets that seem to be written around it add
to them. -/
theorem plainAtoms_unwrap (hproper : ∀ st ∈ body, st.IsProper) (h : plainAtoms body = .ok atoms) :
    (isEnclosed body = false ∧ plainAtoms (unwrap body) = .ok atoms) ∨
      isEnclosed body = true ∧ ∃ first inner closer, atoms = first :: inner ++ [closer] ∧
        plainAtoms (unwrap body) = .ok inner ∧
        Atom.forScript "uni_end_stream" [] = .ok closer ∧
        ∀ opener ∈ body.head?, opener.arguments = [] →
          Atom.forScript "uni_start_stream" [] = .ok first := by
  rcases unwrap_cases body with ⟨henclosed, hbody⟩ | ⟨henclosed, opener, inner, closer, hopener,
    hcloser, rfl, hinner⟩
  · rw [hbody]
    exact .inl ⟨henclosed, h⟩
  refine .inr ⟨henclosed, ?_⟩
  rw [hinner]
  obtain ⟨ops, first, more, hops, hfirst, hmore, rfl⟩ := plainAtoms_cons_eq_ok_iff.mp h
  obtain ⟨middle, last, hmiddle, hlast, rfl⟩ := plainAtoms_append_eq_ok_iff.mp hmore
  obtain ⟨given, last, rest, hgiven, hmake, hrest, rfl⟩ := plainAtoms_cons_eq_ok_iff.mp hlast
  rw [plainAtoms] at hrest
  cases hrest
  have hend : closer.IsProper := hproper closer (by simp)
  refine ⟨first, middle, last, rfl, hmiddle, ?_, ?_⟩
  · rw [← hend.atom_endStream hcloser, atom_of_operands hgiven]
    exact Atom.forScript_eq_ok_iff.mpr hmake
  · rintro _ ⟨⟩ hbare
    cases hops.symm.trans (operands_of_bare hbare)
    have hname : opener.signature.name = "uni_start_stream" :=
      name_of_role hopener (by decide) (by decide)
    rw [← hname]
    exact Atom.forScript_eq_ok_iff.mpr hfirst

theorem exists_plainAtoms_unwrap (hproper : ∀ st ∈ body, st.IsProper)
    (h : plainAtoms body = .ok atoms) : ∃ inner, plainAtoms (unwrap body) = .ok inner := by
  rcases plainAtoms_unwrap hproper h with ⟨-, hsame⟩ | ⟨-, -, inner, -, -, hinner, -⟩
  · exact ⟨atoms, hsame⟩
  · exact ⟨inner, hinner⟩

-- ---------------------------------------------------------------------------
-- What is written around a place
-- ---------------------------------------------------------------------------

/-- A statement that is no criterion, and not on one, writes one atom among those of the others. -/
theorem written_around (hcriterion : st.role ≠ .criterion)
    (hbefore : ∀ last ∈ before.getLast?, last.isPair st = false) :
    written bareOpener (before ++ st :: after) = do
      return (← written bareOpener before) ++ (← st.single bareOpener) ::
        (← written bareOpener after) := by
  rw [written_append before _ (by rintro last hlast next ⟨⟩; exact hbefore last hlast),
    written_cons fun next _ => isPair_of_role rfl hcriterion next]
  simp only [bind_assoc, pure_bind]

/-- An action whose stream is carried as it is written is an atom with the same stream. -/
theorem written_carrying (hs : s.IsCarrier) (hselect : (mk s line []).role ≠ .selectAction)
    (hbefore : ∀ last ∈ before.getLast?, last.isPair (mk s line []) = false)
    (stream after : List Statement) :
    written bareOpener (before ++ mk s line [.stream stream] :: after) = do
      return (← written bareOpener before) ++
        .carrying s (← plainAtoms stream) :: (← written bareOpener after) := by
  rw [written_around (hs.role_ne (by decide)) (by exact hbefore),
    single_eq_atom (by exact hselect), hs.atom_eq]
  simp only [bind_assoc, ok_bind]

/-- An action by itself carries its body between brackets. -/
theorem written_select (hs : s.IsCarrier) (hrole : (mk s line []).role = .selectAction)
    (before stream after : List Statement) :
    written bareOpener (before ++ mk s line [.stream stream] :: after) = do
      return (← written bareOpener before) ++
        .carrying s (← (mk s line [.stream stream]).body bareOpener) ::
          (← written bareOpener after) := by
  have hselect (args) : (mk s line args).role = .selectAction := hrole
  have hmake (carried) : Atom.forScript s.name [.stream carried] = .ok (.carrying s carried) :=
    Atom.forScript_eq_ok_iff.mpr (hs.make_eq carried)
  rw [written_around (by rw [hselect]; decide), single_of_select (hselect _)]
  · simp only [signature, hmake, bind_assoc, ok_bind]
  · exact fun last _ => isPair_eq_false_iff.mpr fun _ heq => by cases (hselect _).symm.trans heq

/-- A criterion and the action on it are one atom or two, of which the last carries the body. -/
theorem exists_onCriterion (hs : s.IsCarrier) (hrole : (mk s line []).role = .replaceAction)
    (setter : Atom) :
    ∃ front t, ∀ carried,
      Atom.onCriterion setter carried = .ok (front ++ [.carrying t carried]) := by
  have hname : s.name = "act_replace_action" := name_of_role hrole (by decide) (by decide)
  by_cases hselect : setter.operands = [.int selectCriterion.toUInt32]
  · refine ⟨[], .selectAction, fun carried => ?_⟩
    rw [Atom.onCriterion, if_pos hselect]
    rfl
  · refine ⟨[setter], s, fun carried => ?_⟩
    rw [Atom.onCriterion, if_neg hselect, ← hname,
      Atom.forScript_eq_ok_iff.mpr (hs.make_eq carried)]
    rfl

section

variable (hopener : Atom.forScript "uni_start_stream" [] = .ok opener)
  (hcloser : Atom.forScript "uni_end_stream" [] = .ok closer)

include hopener hcloser

theorem bracketed_eq (atoms : List Atom) :
    Atom.bracketed atoms = .ok (opener :: atoms ++ [closer]) := by
  rw [Atom.bracketed, hopener, hcloser]
  rfl

/-- The body of an action is written between brackets. -/
theorem body_eq_ok_iff (h : (mk s line [.stream stream]).IsProper) :
    (mk s line [.stream stream]).body bareOpener = .ok atoms ↔
      ∃ inner, written bareOpener (unwrap stream) = .ok inner ∧
        atoms = opener :: inner ++ [closer] := by
  rw [h.body_bare, bind_eq_ok_iff]
  simp only [bracketed_eq hopener hcloser, Except.ok.injEq, eq_comm]
  rfl

/-- What is written around the body of an action does not depend on the body. -/
theorem written_of_isBuiltBehind (h : (mk s line []).IsBuiltBehind before)
    (hproper : (mk s line [.stream stream]).IsProper)
    (hwritten : written bareOpener (before ++ mk s line [.stream stream] :: after) = .ok atoms) :
    ∃ left t right, ∀ {stream : List Statement} {atoms : List Atom},
      (mk s line [.stream stream]).IsProper →
      written bareOpener (before ++ mk s line [.stream stream] :: after) = .ok atoms →
      ∃ inner, written bareOpener (unwrap stream) = .ok inner ∧
        atoms = left ++ .carrying t (opener :: inner ++ [closer]) :: right := by
  have hs := hproper.isCarrier
  rcases h with hrole | ⟨hrole, setter, hsetter, hcriterion⟩
  -- an action by itself is one atom
  · have hsplit (stream) := written_select hs hrole before stream after
    rw [hsplit] at hwritten
    obtain ⟨left, hleft, hwritten⟩ := bind_eq_ok_iff.mp hwritten
    obtain ⟨_, -, hwritten⟩ := bind_eq_ok_iff.mp hwritten
    obtain ⟨right, hright, -⟩ := bind_eq_ok_iff.mp hwritten
    refine ⟨left, s, right, fun hproper hwritten => ?_⟩
    rw [hsplit, hleft, hright, ok_bind] at hwritten
    obtain ⟨carried, hcarried, heq⟩ := bind_eq_ok_iff.mp hwritten
    cases heq
    obtain ⟨inner, hinner, rfl⟩ := (body_eq_ok_iff hopener hcloser hproper).mp hcarried
    exact ⟨inner, hinner, rfl⟩
  · obtain ⟨front, rfl⟩ := List.getLast?_eq_some_iff.mp hsetter
    have hpair (args) : setter.isPair (mk s line args) = true := isPair_iff.mpr ⟨hcriterion, hrole⟩
    have hsplit (stream : List Statement) :
        written bareOpener (front ++ [setter] ++ mk s line [.stream stream] :: after) = do
          return (← written bareOpener front) ++ ((← Atom.onCriterion (← setter.atom)
            (← (mk s line [.stream stream]).body bareOpener)) ++ (← written bareOpener after)) := by
      rw [List.append_assoc, List.singleton_append, written_append front,
        written_cons_of_pair (hpair _)]
      · simp only [bind_assoc, pure_bind]
      · rintro last - next ⟨⟩
        exact isPair_eq_false_iff.mpr fun _ heq => by cases hcriterion.symm.trans heq
    rw [hsplit] at hwritten
    obtain ⟨left, hleft, hwritten⟩ := bind_eq_ok_iff.mp hwritten
    obtain ⟨first, hfirst, hwritten⟩ := bind_eq_ok_iff.mp hwritten
    obtain ⟨_, -, hwritten⟩ := bind_eq_ok_iff.mp hwritten
    obtain ⟨_, -, hwritten⟩ := bind_eq_ok_iff.mp hwritten
    obtain ⟨right, hright, -⟩ := bind_eq_ok_iff.mp hwritten
    obtain ⟨front', t, hboth⟩ := exists_onCriterion hs hrole first
    refine ⟨left ++ front', t, right, fun hproper hwritten => ?_⟩
    rw [hsplit, hleft, hfirst, hright, ok_bind, ok_bind] at hwritten
    obtain ⟨carried, hcarried, heq⟩ := bind_eq_ok_iff.mp hwritten
    rw [hboth] at heq
    cases heq
    obtain ⟨inner, hinner, rfl⟩ := (body_eq_ok_iff hopener hcloser hproper).mp hcarried
    refine ⟨inner, hinner, ?_⟩
    simp only [List.append_assoc, List.singleton_append]

end

end Statement

end Switchboard
