import Switchboard.Proofs.Atom.Depths

/-!
# Balanced streams as a language

A stack of open scopes tells whether a stream is balanced.  The balanced streams are also a language: the
scopes of a stream nest, each with a closer of its own kind, and what stands in a scope may be divided by
atoms that reopen it.

Main results:

* `Atom.scopesBehind_eq_nil_iff`: the stack is empty behind exactly the streams whose scopes nest.
* `Atom.checkBalance_iff`: the streams that pass the check are the balanced ones, at every level.
* `Atom.IsBalanced.counted`: in a stream whose depths are counted, whatever belongs to an opener has its
  depth.
* `Atom.balance_by_grammar`: both for every stream.
-/

namespace Switchboard

-- ---------------------------------------------------------------------------
-- The language
-- ---------------------------------------------------------------------------

/-- Whether the scopes of a stream nest.  A stream is empty, or it starts with an atom that leaves scopes
alone, or with the opener of a scope.  Behind an opener come a stream, any number of atoms that reopen the
scope with a stream behind each of them, and its closer.  `Belongs` has to hold between an opener and
each of the atoms that reopen or close its scope. -/
inductive Atom.Nest (Belongs : Atom → Atom → Prop) : List Atom → Prop where
  | nil : Nest Belongs []
  | plain {a : Atom} {rest : List Atom} (effect : a.effect = .none) (later : Nest Belongs rest) :
      Nest Belongs (a :: rest)
  | scope {scope : Scope} {opener closer : Atom} {first rest : List Atom}
      {siblings : List (Atom × List Atom)} (opens : opener.effect = .opens scope)
      (body : Nest Belongs first)
      (reopen : ∀ p ∈ siblings, p.1.effect = .reopens scope ∧ Belongs opener p.1)
      (bodies : ∀ p ∈ siblings, Nest Belongs p.2)
      (closes : closer.effect = .closes scope ∧ Belongs opener closer)
      (later : Nest Belongs rest) :
      Nest Belongs
        (opener :: (first ++ (siblings.flatMap fun p => p.1 :: p.2) ++ closer :: rest))

/-- Whether the scopes of a stream nest, and so they do in every stream that one of its atoms carries. -/
inductive Atom.IsBalanced (Belongs : Atom → Atom → Prop) : List Atom → Prop where
  | mk {atoms : List Atom} (nest : Nest Belongs atoms)
      (carried : ∀ a ∈ atoms, ∀ inner, .stream inner ∈ a.operands → IsBalanced Belongs inner) :
      IsBalanced Belongs atoms

-- ---------------------------------------------------------------------------
-- The stack of open scopes
-- ---------------------------------------------------------------------------

namespace ScopeEffect

variable {name : String} {scope : Scope} {opened after : List Scope}

theorem apply_closes_eq_ok_iff :
    (closes scope).apply name opened = .ok after ↔ opened = scope :: after := by
  rw [apply]
  cases opened with
  | nil => simp
  | cons innermost outer =>
    rw [List.head?_cons, List.tail_cons]
    split
    · next h => simp [Option.some.inj h]
    · next h => simpa using fun heq => absurd (congrArg some heq) h

theorem apply_reopens_eq_ok_iff :
    (reopens scope).apply name opened = .ok after ↔
      opened = after ∧ ∃ outer, opened = scope :: outer := by
  rw [apply]
  cases opened with
  | nil => simp
  | cons innermost outer =>
    rw [List.head?_cons]
    split
    · next h => simp [Option.some.inj h]
    · next h => simpa using fun _ heq => absurd (congrArg some heq) h

end ScopeEffect

namespace Atom

/-- The scopes that are open behind atoms, innermost first, if each of the atoms may stand where it
does. -/
def scopesBehind (opened : List Scope) (atoms : List Atom) : Except StructureFault (List Scope) :=
  atoms.foldlM (fun opened a => a.effect.apply a.name opened) opened

variable {opened after : List Scope} {a : Atom} {atoms : List Atom}

theorem scopesBehind_cons_eq_ok_iff {last : List Scope} :
    scopesBehind opened (a :: atoms) = .ok last ↔
      ∃ after, a.effect.apply a.name opened = .ok after ∧ scopesBehind after atoms = .ok last := by
  rw [scopesBehind, List.foldlM_cons, bind_eq_ok_iff]
  rfl

theorem scopesBehind_append_eq_ok_iff {more : List Atom} {last : List Scope} :
    scopesBehind opened (atoms ++ more) = .ok last ↔
      ∃ after, scopesBehind opened atoms = .ok after ∧ scopesBehind after more = .ok last := by
  rw [scopesBehind, List.foldlM_append, bind_eq_ok_iff]
  rfl

/-- A stream passes the check if it ends with no scope open and all its atoms pass theirs. -/
theorem checkFrom_iff :
    checkFrom opened atoms = .ok () ↔ scopesBehind opened atoms = .ok [] ∧
      ∀ a ∈ atoms, Operand.checkBalanceList a.operands = .ok () := by
  induction atoms generalizing opened with
  | nil =>
    cases opened with
    | nil => exact ⟨fun _ => ⟨rfl, List.forall_mem_nil _⟩, fun _ => rfl⟩
    | cons scope outer =>
      constructor
      · intro h
        cases h
      · intro h
        cases h.1
  | cons a atoms ih =>
    rw [checkFrom_cons_iff, scopesBehind_cons_eq_ok_iff, List.forall_mem_cons]
    constructor
    · rintro ⟨after, happly, hops, hrest⟩
      obtain ⟨hscopes, hall⟩ := ih.mp hrest
      exact ⟨⟨after, happly, hscopes⟩, hops, hall⟩
    · rintro ⟨⟨after, happly, hscopes⟩, hops, hall⟩
      exact ⟨after, happly, hops, ih.mpr ⟨hscopes, hall⟩⟩

-- ---------------------------------------------------------------------------
-- The stack and the language
-- ---------------------------------------------------------------------------

variable {Belongs : Atom → Atom → Prop}

theorem scopesBehind_siblings {scope : Scope} {siblings : List (Atom × List Atom)}
    (hreopen : ∀ p ∈ siblings, p.1.effect = .reopens scope)
    (hbodies : ∀ p ∈ siblings, ∀ opened, scopesBehind opened p.2 = .ok opened) :
    scopesBehind (scope :: opened) (siblings.flatMap fun p => p.1 :: p.2) =
      .ok (scope :: opened) := by
  induction siblings with
  | nil => rfl
  | cons p siblings ih =>
    obtain ⟨hfirst, hreopen⟩ := List.forall_mem_cons.mp hreopen
    obtain ⟨hbody, hbodies⟩ := List.forall_mem_cons.mp hbodies
    rw [List.flatMap_cons]
    refine scopesBehind_append_eq_ok_iff.mpr ⟨scope :: opened, ?_, ih hreopen hbodies⟩
    refine scopesBehind_cons_eq_ok_iff.mpr ⟨scope :: opened, ?_, hbody _⟩
    rw [hfirst]
    exact ScopeEffect.apply_reopens_eq_ok_iff.mpr ⟨rfl, opened, rfl⟩

/-- A stream whose scopes nest may stand in any scopes, and leaves them open. -/
theorem Nest.scopesBehind (h : Nest Belongs atoms) (opened : List Scope) :
    Atom.scopesBehind opened atoms = .ok opened := by
  induction h generalizing opened with
  | nil => rfl
  | @plain a rest effect _ ih =>
    exact scopesBehind_cons_eq_ok_iff.mpr ⟨opened, by rw [effect]; rfl, ih opened⟩
  | @scope scope opener closer first rest siblings opens _ reopen _ closes _ ihBody ihBodies ihLater =>
    have hsiblings : Atom.scopesBehind (scope :: opened) (siblings.flatMap fun p => p.1 :: p.2) =
        .ok (scope :: opened) :=
      scopesBehind_siblings (fun p hp => (reopen p hp).1) ihBodies
    refine scopesBehind_cons_eq_ok_iff.mpr ⟨scope :: opened, by rw [opens]; rfl, ?_⟩
    refine scopesBehind_append_eq_ok_iff.mpr ⟨scope :: opened, ?_, ?_⟩
    · exact scopesBehind_append_eq_ok_iff.mpr ⟨_, ihBody _, hsiblings⟩
    · refine scopesBehind_cons_eq_ok_iff.mpr ⟨opened, ?_, ihLater opened⟩
      rw [closes.1]
      exact ScopeEffect.apply_closes_eq_ok_iff.mpr rfl

/-- The rest of a stream in which scopes are open: what still stands in the innermost one, up to its
closer, and then the rest for the scopes around it. -/
inductive Finishes : List Scope → List Atom → Prop where
  | outermost {atoms : List Atom} (nest : Nest (fun _ _ => True) atoms) : Finishes [] atoms
  | inner {scope : Scope} {opened : List Scope} {closer : Atom} {first rest : List Atom}
      {siblings : List (Atom × List Atom)} (body : Nest (fun _ _ => True) first)
      (reopen : ∀ p ∈ siblings, p.1.effect = .reopens scope)
      (bodies : ∀ p ∈ siblings, Nest (fun _ _ => True) p.2)
      (closes : closer.effect = .closes scope) (outer : Finishes opened rest) :
      Finishes (scope :: opened) (first ++ (siblings.flatMap fun p => p.1 :: p.2) ++ closer :: rest)

/-- What may stand in front of any stream may stand there in open scopes. -/
theorem Finishes.prepend {front : List Atom}
    (hfront : ∀ rest, Nest (fun _ _ => True) rest → Nest (fun _ _ => True) (front ++ rest))
    (h : Finishes opened atoms) : Finishes opened (front ++ atoms) := by
  cases h with
  | outermost nest => exact .outermost (hfront _ nest)
  | inner body reopen bodies closes outer =>
    simp only [← List.append_assoc]
    exact .inner (hfront _ body) reopen bodies closes outer

/-- If no scope is open at the end, each was closed. -/
theorem finishes_of_scopesBehind (h : scopesBehind opened atoms = .ok []) :
    Finishes opened atoms := by
  induction atoms generalizing opened with
  | nil =>
    cases h
    exact .outermost .nil
  | cons a atoms ih =>
    obtain ⟨after, happly, hrest⟩ := scopesBehind_cons_eq_ok_iff.mp h
    have hfinishes := ih hrest
    cases heffect : a.effect with
    | none =>
      rw [heffect] at happly
      cases happly
      have hplain : Finishes opened ([a] ++ atoms) :=
        hfinishes.prepend fun _ hnest => .plain heffect hnest
      exact hplain
    | opens scope =>
      rw [heffect] at happly
      cases happly
      -- the scope ends at its closer, and what is behind stands where the opener stands
      cases hfinishes with
      | @inner _ _ closer first rest siblings body reopen bodies closes outer =>
        have hscope : Finishes opened
            (a :: (first ++ (siblings.flatMap fun p => p.1 :: p.2) ++ [closer]) ++ rest) :=
          outer.prepend fun more hmore => by
            have hnest : Nest (fun _ _ => True)
                (a :: (first ++ (siblings.flatMap fun p => p.1 :: p.2) ++ closer :: more)) :=
              .scope heffect body (fun p hp => ⟨reopen p hp, trivial⟩) bodies ⟨closes, trivial⟩ hmore
            simpa only [List.cons_append, List.append_assoc, List.nil_append] using hnest
        simpa only [List.cons_append, List.append_assoc, List.nil_append] using hscope
    | closes scope =>
      rw [heffect] at happly
      rw [ScopeEffect.apply_closes_eq_ok_iff.mp happly]
      exact @Finishes.inner scope after a [] atoms [] .nil (List.forall_mem_nil _)
        (List.forall_mem_nil _) heffect hfinishes
    | reopens scope =>
      rw [heffect] at happly
      obtain ⟨rfl, outer, rfl⟩ := ScopeEffect.apply_reopens_eq_ok_iff.mp happly
      -- what stood first in the scope stands behind the atom that reopens it
      cases hfinishes with
      | @inner _ _ closer first rest siblings body reopen bodies closes hlater =>
        exact @Finishes.inner scope outer closer [] rest ((a, first) :: siblings) .nil
          (List.forall_mem_cons.mpr ⟨heffect, reopen⟩) (List.forall_mem_cons.mpr ⟨body, bodies⟩)
          closes hlater

/-- The stack is empty behind exactly the streams whose scopes nest. -/
theorem scopesBehind_eq_nil_iff :
    scopesBehind [] atoms = .ok [] ↔ Nest (fun _ _ => True) atoms := by
  constructor
  · intro h
    cases finishes_of_scopesBehind h with
    | outermost nest => exact nest
  · exact fun h => h.scopesBehind []

end Atom

-- ---------------------------------------------------------------------------
-- The check
-- ---------------------------------------------------------------------------

theorem Operand.checkBalanceList_iff {ops : List Operand} :
    checkBalanceList ops = .ok () ↔
      ∀ inner, .stream inner ∈ ops → Atom.checkBalance inner = .ok () := by
  induction ops with
  | nil => exact ⟨fun _ inner hinner => absurd hinner List.not_mem_nil, fun _ => rfl⟩
  | cons op ops ih =>
    rw [checkBalanceList_cons_iff, ih]
    constructor
    · rintro ⟨hop, hops⟩ inner hinner
      rcases List.mem_cons.mp hinner with rfl | hmem
      · exact hop
      · exact hops inner hmem
    · intro h
      refine ⟨?_, fun inner hmem => h inner (List.mem_cons_of_mem _ hmem)⟩
      cases op with
      | stream atoms => exact h atoms List.mem_cons_self
      | int | str | raw | gid => rfl

mutual

theorem Operand.isBalanced_of_checkBalanceList :
    ∀ ops : List Operand, Operand.checkBalanceList ops = .ok () →
      ∀ inner, .stream inner ∈ ops → Atom.IsBalanced (fun _ _ => True) inner
  | [], _, inner, hinner => by cases hinner
  | op :: ops, h, inner, hinner => by
    obtain ⟨hop, hops⟩ := Operand.checkBalanceList_cons_iff.mp h
    rcases List.mem_cons.mp hinner with heq | hmem
    · cases op with
      | stream atoms =>
        obtain rfl : atoms = inner := (Operand.stream.inj heq).symm
        obtain ⟨hscopes, hall⟩ := Atom.checkFrom_iff.mp hop
        exact .mk (Atom.scopesBehind_eq_nil_iff.mp hscopes) (Atom.isBalanced_carried atoms hall)
      | int | str | raw | gid => cases heq
    · exact Operand.isBalanced_of_checkBalanceList ops hops inner hmem

theorem Atom.isBalanced_carried :
    ∀ atoms : List Atom, (∀ a ∈ atoms, Operand.checkBalanceList a.operands = .ok ()) →
      ∀ a ∈ atoms, ∀ inner, .stream inner ∈ a.operands → Atom.IsBalanced (fun _ _ => True) inner
  | [], _, a, ha => by cases ha
  | .mk s ops depth :: atoms, h, a, ha => by
    obtain ⟨hfirst, hrest⟩ := List.forall_mem_cons.mp h
    rcases List.mem_cons.mp ha with rfl | hmem
    · exact Operand.isBalanced_of_checkBalanceList ops hfirst
    · exact Atom.isBalanced_carried atoms hrest a hmem

end

namespace Atom

variable {Belongs Other : Atom → Atom → Prop} {base opened : ℕ} {a : Atom} {atoms : List Atom}

/-- The streams that pass the check are the balanced ones. -/
theorem checkBalance_iff : checkBalance atoms = .ok () ↔ IsBalanced (fun _ _ => True) atoms := by
  constructor
  · intro h
    obtain ⟨hscopes, hall⟩ := checkFrom_iff.mp h
    exact .mk (scopesBehind_eq_nil_iff.mp hscopes) (isBalanced_carried atoms hall)
  · intro h
    induction h with
    | mk nest _ ih =>
      exact checkFrom_iff.mpr ⟨scopesBehind_eq_nil_iff.mpr nest,
        fun a ha => Operand.checkBalanceList_iff.mpr (ih a ha)⟩

theorem checkBalance_assignDepths (base : UInt16) (atoms : List Atom) :
    checkBalance (assignDepths base atoms) = checkBalance atoms :=
  checkFrom_assignFrom base base atoms []

-- ---------------------------------------------------------------------------
-- Depths in a balanced stream
-- ---------------------------------------------------------------------------

/-- What stands in streams that an atom carries is counted, each from its own base. -/
theorem IsCounted.of_mem (h : IsCounted base opened atoms) (ha : a ∈ atoms) {inner : List Atom}
    (hinner : .stream inner ∈ a.operands) : ∃ base, IsCounted base 0 inner := by
  induction atoms generalizing opened with
  | nil => cases ha
  | cons b atoms ih =>
    obtain ⟨-, hcarried, hbehind⟩ := h.of_cons
    rcases List.mem_cons.mp ha with rfl | hmem
    · exact ⟨_, hcarried inner hinner⟩
    · exact ih hbehind hmem

/-- The siblings in a scope stand where its opener stands, and the count comes back behind them. -/
theorem IsCounted.siblings {scope : Scope} {siblings : List (Atom × List Atom)} {more : List Atom}
    (h : IsCounted base (opened + 1) ((siblings.flatMap fun p => p.1 :: p.2) ++ more))
    (hreopen : ∀ p ∈ siblings, p.1.effect = .reopens scope)
    (hbodies : ∀ p ∈ siblings, ∀ {more : List Atom}, IsCounted base (opened + 1) (p.2 ++ more) →
      Nest Belongs p.2 ∧ IsCounted base (opened + 1) more) :
    (∀ p ∈ siblings, p.1.depth.toNat = base + opened) ∧ (∀ p ∈ siblings, Nest Belongs p.2) ∧
      IsCounted base (opened + 1) more := by
  induction siblings with
  | nil => exact ⟨List.forall_mem_nil _, List.forall_mem_nil _, h⟩
  | cons p siblings ih =>
    obtain ⟨hfirst, hreopen⟩ := List.forall_mem_cons.mp hreopen
    obtain ⟨hbody, hbodies⟩ := List.forall_mem_cons.mp hbodies
    rw [List.flatMap_cons, List.cons_append, List.cons_append, List.append_assoc] at h
    obtain ⟨hdepth, -, hbehind⟩ := h.of_cons
    rw [hfirst] at hdepth hbehind
    obtain ⟨hnest, hmore⟩ := hbody hbehind
    obtain ⟨hdepths, hnests, hcounted⟩ := ih hmore hreopen hbodies
    exact ⟨List.forall_mem_cons.mpr ⟨hdepth, hdepths⟩, List.forall_mem_cons.mpr ⟨hnest, hnests⟩,
      hcounted⟩

/-- Where depths are counted, what belongs to an opener has its depth, and the count comes back to where
it was. -/
theorem Nest.counted (h : Nest Belongs atoms) {more : List Atom}
    (hcounted : IsCounted base opened (atoms ++ more)) :
    Nest (fun opener b => Belongs opener b ∧ b.depth = opener.depth) atoms ∧
      IsCounted base opened more := by
  induction h generalizing opened more with
  | nil => exact ⟨.nil, hcounted⟩
  | plain effect _ ih =>
    obtain ⟨-, -, hbehind⟩ := hcounted.of_cons
    rw [effect] at hbehind
    obtain ⟨hnest, hmore⟩ := ih hbehind
    exact ⟨.plain effect hnest, hmore⟩
  | @scope scope opener closer first rest siblings opens _ reopen _ closes _ ihBody ihBodies ihLater =>
    obtain ⟨hopener, -, hinside⟩ := hcounted.of_cons
    rw [opens] at hopener hinside
    simp only [List.append_eq, List.append_assoc, List.cons_append] at hinside
    obtain ⟨hfirst, hsiblings⟩ := ihBody hinside
    obtain ⟨hdepths, hbodies, hcloser⟩ :=
      hsiblings.siblings (fun p hp => (reopen p hp).1) fun p hp => ihBodies p hp
    obtain ⟨hclose, -, hbehind⟩ := hcloser.of_cons
    rw [closes.1] at hclose hbehind
    obtain ⟨hrest, hmore⟩ := ihLater hbehind
    refine ⟨.scope opens hfirst (fun p hp => ?_) hbodies ⟨closes.1, closes.2, ?_⟩ hrest, hmore⟩
    · obtain ⟨hreopens, hbelongs⟩ := reopen p hp
      exact ⟨hreopens, hbelongs, UInt16.toNat_inj.mp ((hdepths p hp).trans hopener.symm)⟩
    · exact UInt16.toNat_inj.mp (hclose.trans hopener.symm)

/-- Where depths are counted, what belongs to an opener has its depth, at every level. -/
theorem IsBalanced.counted (h : IsBalanced Belongs atoms) (hcounted : IsCounted base 0 atoms) :
    IsBalanced (fun opener b => Belongs opener b ∧ b.depth = opener.depth) atoms := by
  induction h generalizing base with
  | @mk atoms nest _ ih =>
    refine .mk ?_ fun a ha inner hinner => ?_
    · rw [← List.append_nil atoms] at hcounted
      exact (nest.counted hcounted).1
    · obtain ⟨base, hinside⟩ := hcounted.of_mem ha hinner
      exact ih a ha inner hinner hinside

theorem Nest.mono (h : Nest Belongs atoms) (hle : ∀ opener b, Belongs opener b → Other opener b) :
    Nest Other atoms := by
  induction h with
  | nil => exact .nil
  | plain effect _ ih => exact .plain effect ih
  | scope opens _ reopen _ closes _ ihBody ihBodies ihLater =>
    exact .scope opens ihBody (fun p hp => ⟨(reopen p hp).1, hle _ _ (reopen p hp).2⟩) ihBodies
      ⟨closes.1, hle _ _ closes.2⟩ ihLater

theorem IsBalanced.mono (h : IsBalanced Belongs atoms)
    (hle : ∀ opener b, Belongs opener b → Other opener b) : IsBalanced Other atoms := by
  induction h with
  | mk nest _ ih => exact .mk (nest.mono hle) ih

/-- The check passes exactly the streams of the language of balanced streams, in which siblings divide
what stands in an object and nothing divides another scope.  In such a stream, unless more than 65535
levels are counted, each closer and each sibling is assigned the depth of the opener that it belongs to,
at every level; and so is whatever belongs to an opener by any other reading of the stream. -/
theorem balance_by_grammar (base : UInt16) (atoms : List Atom) :
    (checkBalance atoms = .ok () ↔ IsBalanced (fun _ _ => True) atoms) ∧
    (∀ s ∈ Signature.all, ∀ scope : Scope,
      s.effect = .reopens scope ↔ s.name = "man_start_sibling" ∧ scope = .object) ∧
    (checkBalance atoms = .ok () → base.toNat + nestingFrom 0 atoms < 65536 →
      IsBalanced (fun opener b => b.depth = opener.depth) (assignDepths base atoms) ∧
        ∀ Belongs, IsBalanced Belongs (assignDepths base atoms) →
          IsBalanced (fun opener b => Belongs opener b ∧ b.depth = opener.depth)
            (assignDepths base atoms)) := by
  refine ⟨checkBalance_iff, ?_, fun hbalanced hdeep => ?_⟩
  · intro s hs scope
    revert s
    cases scope <;> decide +kernel
  · have hcounted := isCounted_assignDepths hdeep
    rw [← checkBalance_assignDepths base] at hbalanced
    refine ⟨?_, fun Belongs h => h.counted hcounted⟩
    exact ((checkBalance_iff.mp hbalanced).counted hcounted).mono fun _ _ h => h.2

/-- An object with a sibling that has an action, as deep as depths go. -/
theorem balance_by_grammar_deepest :
    let opener (depth : UInt16) : Atom :=
      .mk (.define "uni_start_stream" .uni 1 [.num] 0 (.opens .stream)) [] depth
    let closer (depth : UInt16) : Atom :=
      .mk (.define "uni_end_stream" .uni 2 [] 0 (.closes .stream)) [] depth
    let exit (depth : UInt16) : Atom := .mk (.plain "async_exit" .async 1 []) [] depth
    let object (depth : UInt16) : Atom :=
      .mk (.define "man_start_object" .man 0 [.named .objectType, Signature.title] 1 (.opens .object))
        [.int 6] depth
    let siblings : Signature :=
      .define "man_start_sibling" .man 1 [.named .objectType, Signature.title] 1 (.reopens .object)
    let sibling (depth : UInt16) : Atom := .mk siblings [.int 6] depth
    let endObject (depth : UInt16) : Atom :=
      .mk (.define "man_end_object" .man 2 [] 0 (.closes .object)) [] depth
    let action (inner : List Atom) (depth : UInt16) : Atom :=
      .mk (.plain "act_replace_action" .act 2 [.stream]) [.stream inner] depth
    let atoms : List Atom := [opener 0, object 0, exit 0, sibling 0,
      action [opener 0, exit 0, closer 0] 0, endObject 0, closer 0]
    checkBalance atoms = .ok () ∧ (65531 : UInt16).toNat + nestingFrom 0 atoms < 65536 ∧
      assignDepths 65531 atoms = [opener 65531, object 65532, exit 65533, sibling 65532,
        action [opener 65534, exit 65535, closer 65534] 65533, endObject 65532, closer 65531] ∧
      IsBalanced (fun opener b => b.depth = opener.depth) (assignDepths 65531 atoms) ∧
      IsBalanced (fun opener b => True ∧ b.depth = opener.depth) (assignDepths 65531 atoms) ∧
      siblings ∈ Signature.all ∧
      (siblings.effect = .reopens .object ↔
        siblings.name = "man_start_sibling" ∧ Scope.object = .object) := by
  intro opener closer exit object siblings sibling endObject action atoms
  have hbalanced : checkBalance atoms = .ok () := rfl
  have hdeep : (65531 : UInt16).toNat + nestingFrom 0 atoms < 65536 := by
    decide
  have hassigned : assignDepths 65531 atoms = [opener 65531, object 65532, exit 65533, sibling 65532,
      action [opener 65534, exit 65535, closer 65534] 65533, endObject 65532, closer 65531] := by
    cbv
  have hknown : siblings ∈ Signature.all := by
    decide +kernel
  obtain ⟨-, hsiblings, hdepths⟩ := balance_by_grammar 65531 atoms
  obtain ⟨hpaired, hall⟩ := hdepths hbalanced hdeep
  rw [← checkBalance_assignDepths 65531] at hbalanced
  have hagain := hall _ (checkBalance_iff.mp hbalanced)
  rw [checkBalance_assignDepths] at hbalanced
  exact ⟨hbalanced, hdeep, hassigned, hpaired, hagain, hknown, hsiblings siblings hknown .object⟩

end Atom

end Switchboard
