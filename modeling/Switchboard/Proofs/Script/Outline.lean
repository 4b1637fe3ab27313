import Switchboard.Proofs.Atom.Levels
import Switchboard.Proofs.Script.Lines
import Switchboard.Proofs.Script.Returned

/-!
# The outline of a flattened script

The atoms of a script follow its tree: each block stands between an opener and a closer, siblings share
the closer of the last of them, and an action carries its body as a stream.  The *outline* of nodes says
this with the depth of every atom, which is the number of blocks around it.

Main results:

* `Node.areLaidOut_of_arePlaced`: flattening nodes in their places, and counting depths, gives their
  outline; for each kind of node there is a lemma that says so if it is so for the nodes inside.
* `Node.Outline.checkFrom_append`, `Node.Outline.carriesLevel` and `Node.Outline.object_run`: in an
  outline the scopes are balanced, carried streams come back to their level, and a run of siblings shares
  one closer.
* `Script.flatten_outline`: a script that is returned flattens to its outline.
-/

namespace Switchboard

-- ---------------------------------------------------------------------------
-- How deep scripts go
-- ---------------------------------------------------------------------------

mutual

/-- How many levels deep a node goes.  The body of an action is a stream in a stream of its own. -/
def Node.nesting : Node → ℕ
  | .atom a => a.nesting
  | .stream _ children => Node.nestingEach children + 1
  | .object _ _ _ children => Node.nestingEach children + 1
  | .context _ children => Node.nestingEach children + 1
  | .action _ body => Node.nestingEach body + 2

/-- How many levels deep nodes go. -/
def Node.nestingEach : List Node → ℕ
  | [] => 0
  | node :: rest => max node.nesting (Node.nestingEach rest)

end

/-- How many levels deep a script goes. -/
def Script.nesting (script : Script) : ℕ :=
  Node.nestingEach script.nodes

-- ---------------------------------------------------------------------------
-- Outlines
-- ---------------------------------------------------------------------------

/-- Whether an atom is the one of that name, at that level. -/
structure Atom.StandsAs (a : Atom) (name : String) (level : ℕ) : Prop where
  signature : Signature.byName? name = some a.signature
  depth : a.depth.toNat = level

/-- Whether it also carries no stream, as openers and closers do not. -/
structure Atom.IsMark (a : Atom) (name : String) (level : ℕ) : Prop
    extends a.StandsAs name level where
  plain : a.IsPlain

/-- Whether it also carries one stream and nothing else, as the atoms of actions do. -/
structure Atom.IsCarrier (a : Atom) (name : String) (level : ℕ) (carried : List Atom) : Prop
    extends a.StandsAs name level where
  operands : a.operands = [.stream carried]

/-- The name of the atom that opens a context. -/
def ContextTarget.openerName : ContextTarget → String
  | global _ => "man_set_context_globalid"
  | relative _ => "man_set_context_relative"

/-- The atoms of an action on a criterion, whose body is in the stream that one of them carries. -/
def Atom.AreAction (criterion : UInt8) (level : ℕ) (carried atoms : List Atom) : Prop :=
  if criterion = selectCriterion then
    ∃ a : Atom, a.IsCarrier "act_replace_select_action" level carried ∧ atoms = [a]
  else
    ∃ setter a : Atom, setter.IsMark "act_set_criterion" level ∧
      a.IsCarrier "act_replace_action" level carried ∧ atoms = [setter, a]

/-- The outline of nodes inside `level` blocks: the atoms that they become, with their depths.  Nodes
that stand `behind` an object start with a sibling of it, or the atoms with its closer. -/
inductive Node.Outline : (behind : Bool) → (level : ℕ) → List Node → List Atom → Prop where
  | nil {level : ℕ} : Outline false level [] []
  /-- An atom stands for itself. -/
  | atom {level : ℕ} {a : Atom} {depth : UInt16} {nodes : List Node} {atoms : List Atom}
      (stands : depth.toNat = level) (plain : (a.atDepth depth).IsSelfContained)
      (carries : Atom.Everywhere Atom.CarriesLevel [a.atDepth depth])
      (rest : Outline false level nodes atoms) :
      Outline false level (.atom a :: nodes) (a.atDepth depth :: atoms)
  | stream {level : ℕ} {id : Option UInt32} {children nodes : List Node} {opener closer : Atom}
      {inner atoms : List Atom} (opens : opener.IsMark "uni_start_stream" level)
      (contents : Outline false (level + 1) children inner)
      (closes : closer.IsMark "uni_end_stream" level) (rest : Outline false level nodes atoms) :
      Outline false level (.stream id children :: nodes) (opener :: (inner ++ closer :: atoms))
  /-- An object, or a sibling behind one; its closer is still to come. -/
  | object {level : ℕ} {kind : UInt8} {title : String} {sibling : Bool} {children nodes : List Node}
      {opener : Atom} {inner atoms : List Atom}
      (opens : opener.IsMark (if sibling then "man_start_sibling" else "man_start_object") level)
      (contents : Outline false (level + 1) children inner) (rest : Outline true level nodes atoms) :
      Outline sibling level (.object kind title sibling children :: nodes) (opener :: (inner ++ atoms))
  /-- No sibling follows. -/
  | endObject {level : ℕ} {nodes : List Node} {closer : Atom} {atoms : List Atom}
      (closes : closer.IsMark "man_end_object" level) (rest : Outline false level nodes atoms) :
      Outline true level nodes (closer :: atoms)
  | context {level : ℕ} {target : ContextTarget} {children nodes : List Node} {opener closer : Atom}
      {inner atoms : List Atom} (opens : opener.IsMark target.openerName level)
      (contents : Outline false (level + 1) children inner)
      (closes : closer.IsMark "man_end_context" level) (rest : Outline false level nodes atoms) :
      Outline false level (.context target children :: nodes) (opener :: (inner ++ closer :: atoms))
  /-- The body of an action is carried one level deeper, in a stream of its own. -/
  | action {level : ℕ} {criterion : UInt8} {body nodes : List Node} {opener closer : Atom}
      {inner action atoms : List Atom} (opens : opener.IsMark "uni_start_stream" (level + 1))
      (contents : Outline false (level + 2) body inner)
      (closes : closer.IsMark "uni_end_stream" (level + 1))
      (carried : Atom.AreAction criterion level (opener :: (inner ++ [closer])) action)
      (rest : Outline false level nodes atoms) :
      Outline false level (.action criterion body :: nodes) (action ++ atoms)

-- ---------------------------------------------------------------------------
-- Openers, closers and the atoms of actions
-- ---------------------------------------------------------------------------

namespace Atom

section Marks

variable {a : Atom} {name : String} {level : ℕ} {carried : List Atom} {scope : Scope}

theorem StandsAs.effect_eq (h : a.StandsAs name level) {effect : ScopeEffect}
    (heffect : (Signature.byName? name).map (·.effect) = some effect) : a.effect = effect := by
  rw [h.signature, Option.map_some, Option.some.injEq] at heffect
  exact heffect

theorem IsMark.checkFrom_cons (h : a.IsMark name level) (opened : List Scope) (more : List Atom) :
    checkFrom opened (a :: more) =
      a.effect.apply a.name opened >>= fun after => checkFrom after more := by
  rw [Atom.checkFrom_cons, Operand.checkBalanceList_of_plain h.plain]
  rfl

theorem IsMark.checkFrom_opens (h : a.IsMark name level) (heffect : a.effect = .opens scope)
    (opened : List Scope) (more : List Atom) :
    checkFrom opened (a :: more) = checkFrom (scope :: opened) more := by
  rw [h.checkFrom_cons, heffect]
  rfl

theorem IsMark.checkFrom_closes (h : a.IsMark name level) (heffect : a.effect = .closes scope)
    (opened : List Scope) (more : List Atom) :
    checkFrom (scope :: opened) (a :: more) = checkFrom opened more := by
  rw [h.checkFrom_cons, heffect, ScopeEffect.apply, if_pos List.head?_cons]
  rfl

theorem IsMark.checkFrom_reopens (h : a.IsMark name level) (heffect : a.effect = .reopens scope)
    (opened : List Scope) (more : List Atom) :
    checkFrom (scope :: opened) (a :: more) = checkFrom (scope :: opened) more := by
  rw [h.checkFrom_cons, heffect, ScopeEffect.apply, if_pos List.head?_cons]
  rfl

theorem IsMark.everywhere (h : a.IsMark name level) : Everywhere CarriesLevel [a] := by
  have hnone {inner : List Atom} (hinner : .stream inner ∈ a.operands) : False :=
    h.plain _ hinner rfl
  exact everywhere_cons.mpr
    ⟨fun inner hinner => (hnone hinner).elim, fun inner hinner => (hnone hinner).elim,
      everywhere_nil _⟩

/-- An atom that carries a balanced stream leaves the scopes as they are. -/
theorem IsCarrier.checkFrom_cons (h : a.IsCarrier name level carried) (heffect : a.effect = .none)
    (hcarried : checkFrom [] carried = .ok ()) (opened : List Scope) (more : List Atom) :
    checkFrom opened (a :: more) = checkFrom opened more := by
  have hops : Operand.checkBalanceList a.operands = .ok () := by
    rw [h.operands]
    exact Operand.checkBalanceList_cons_iff.mpr ⟨hcarried, rfl⟩
  rw [Atom.checkFrom_cons, heffect, hops]
  rfl

theorem AreAction.checkFrom_append {criterion : UInt8} {atoms : List Atom}
    (h : AreAction criterion level carried atoms) (hcarried : checkFrom [] carried = .ok ())
    (opened : List Scope) (more : List Atom) :
    checkFrom opened (atoms ++ more) = checkFrom opened more := by
  unfold AreAction at h
  split at h
  · obtain ⟨a, ha, rfl⟩ := h
    exact ha.checkFrom_cons (ha.effect_eq rfl) hcarried opened more
  · obtain ⟨setter, a, hsetter, ha, rfl⟩ := h
    have heffect : setter.effect = .none := hsetter.effect_eq rfl
    rw [List.cons_append, hsetter.checkFrom_cons, heffect]
    exact ha.checkFrom_cons (ha.effect_eq rfl) hcarried opened more

theorem AreAction.everywhere {criterion : UInt8} {atoms : List Atom}
    (h : AreAction criterion level carried atoms)
    (hfirst : ∀ first : Atom, carried.head? = some first → first.depth.toNat = level + 1)
    (hback : levelBehind (level + 1) carried = level + 1) (hinner : Everywhere CarriesLevel carried) :
    Everywhere CarriesLevel atoms := by
  -- the atom that carries the body stands at the level of the action
  have hcarrier {a : Atom} {name : String} (ha : a.IsCarrier name level carried) :
      Everywhere CarriesLevel [a] := by
    have honly {inner : List Atom} (hmem : .stream inner ∈ a.operands) : inner = carried := by
      rw [ha.operands, List.mem_singleton, Operand.stream.injEq] at hmem
      exact hmem
    refine everywhere_cons.mpr ⟨fun inner hmem => ?_, fun inner hmem => ?_, everywhere_nil _⟩
    · rw [honly hmem, ha.depth]
      exact ⟨hfirst, hback⟩
    · rw [honly hmem]
      exact hinner
  unfold AreAction at h
  split at h
  · obtain ⟨a, ha, rfl⟩ := h
    exact hcarrier ha
  · obtain ⟨setter, a, hsetter, ha, rfl⟩ := h
    exact everywhere_cons_iff.mpr ⟨hsetter.everywhere, hcarrier ha⟩

end Marks

end Atom

theorem ContextTarget.effect_opener (target : ContextTarget) :
    (Signature.byName? target.openerName).map (·.effect) = some (.opens .context) := by
  cases target <;> rfl

-- ---------------------------------------------------------------------------
-- What follows from an outline
-- ---------------------------------------------------------------------------

namespace Node.Outline

variable {behind : Bool} {level : ℕ} {nodes : List Node} {atoms : List Atom}

/-- The atoms of nodes leave the scopes open that were open before, but for that of an object whose
sibling they start with. -/
theorem checkFrom_append (h : Outline behind level nodes atoms) (opened : List Scope)
    (more : List Atom) :
    Atom.checkFrom (if behind then .object :: opened else opened) (atoms ++ more) =
      Atom.checkFrom opened more := by
  induction h generalizing opened more with
  | nil => rfl
  | atom stands plain carries rest ih =>
    show Atom.checkFrom opened _ = _
    rw [List.cons_append, Atom.checkFrom_cons, plain.effect, plain.balanced]
    exact ih opened more
  | stream opens contents closes rest ihContents ih =>
    show Atom.checkFrom opened _ = _
    rw [List.cons_append, opens.checkFrom_opens (opens.effect_eq rfl), List.append_assoc]
    refine (ihContents (.stream :: opened) _).trans ?_
    rw [List.cons_append, closes.checkFrom_closes (closes.effect_eq rfl)]
    exact ih opened more
  | @object _ _ _ sibling _ _ opener inner atoms opens contents rest ihContents ih =>
    -- a sibling closes the object before it, and opens the same scope again
    have hopener : Atom.checkFrom (if sibling then .object :: opened else opened)
        (opener :: (inner ++ (atoms ++ more))) =
          Atom.checkFrom (.object :: opened) (inner ++ (atoms ++ more)) := by
      cases sibling with
      | false => exact opens.checkFrom_opens (opens.effect_eq rfl) opened _
      | true => exact opens.checkFrom_reopens (opens.effect_eq rfl) opened _
    rw [List.cons_append, List.append_assoc, hopener]
    exact (ihContents (.object :: opened) _).trans (ih opened more)
  | endObject closes rest ih =>
    show Atom.checkFrom (.object :: opened) _ = _
    rw [List.cons_append, closes.checkFrom_closes (closes.effect_eq rfl)]
    exact ih opened more
  | @context level target _ _ _ _ _ _ opens contents closes rest ihContents ih =>
    show Atom.checkFrom opened _ = _
    rw [List.cons_append, opens.checkFrom_opens (opens.effect_eq target.effect_opener),
      List.append_assoc]
    refine (ihContents (.context :: opened) _).trans ?_
    rw [List.cons_append, closes.checkFrom_closes (closes.effect_eq rfl)]
    exact ih opened more
  | @action _ _ _ _ opener closer inner _ _ opens contents closes carried rest ihContents ih =>
    show Atom.checkFrom opened _ = _
    -- the body is balanced on its own
    have hcarried : Atom.checkFrom [] (opener :: (inner ++ [closer])) = .ok () := by
      rw [opens.checkFrom_opens (opens.effect_eq rfl)]
      refine (ihContents [.stream] [closer]).trans ?_
      rw [closes.checkFrom_closes (closes.effect_eq rfl)]
      rfl
    rw [List.append_assoc, carried.checkFrom_append hcarried]
    exact ih opened more

/-- Every stream that an atom of an outline carries, at every level, starts one level deeper than the
atom, and comes back to where it started. -/
theorem carriesLevel (h : Outline behind level nodes atoms) :
    Atom.Everywhere Atom.CarriesLevel atoms := by
  induction h with
  | nil => exact Atom.everywhere_nil _
  | atom stands plain carries rest ih => exact Atom.everywhere_cons_iff.mpr ⟨carries, ih⟩
  | stream opens contents closes rest ihContents ih
  | context opens contents closes rest ihContents ih =>
    have hclosed := Atom.everywhere_cons_iff.mpr ⟨closes.everywhere, ih⟩
    refine Atom.everywhere_cons_iff.mpr ⟨opens.everywhere, ?_⟩
    exact Atom.everywhere_append.mpr ⟨ihContents, hclosed⟩
  | object opens contents rest ihContents ih =>
    refine Atom.everywhere_cons_iff.mpr ⟨opens.everywhere, ?_⟩
    exact Atom.everywhere_append.mpr ⟨ihContents, ih⟩
  | endObject closes rest ih => exact Atom.everywhere_cons_iff.mpr ⟨closes.everywhere, ih⟩
  | @action _ _ _ _ _ closer _ _ _ opens contents closes carried rest ihContents ih =>
    refine Atom.everywhere_append.mpr ⟨carried.everywhere ?_ ?_ ?_, ih⟩
    · intro first hfirst
      rw [List.head?_cons, Option.some.injEq] at hfirst
      rw [← hfirst, opens.depth]
    · have heffect : closer.effect = .closes .stream := closes.effect_eq rfl
      rw [← List.cons_append, Atom.levelBehind_concat, heffect, closes.depth]
      rfl
    · refine Atom.everywhere_cons_iff.mpr ⟨opens.everywhere, ?_⟩
      exact Atom.everywhere_append.mpr ⟨ihContents, closes.everywhere⟩

end Node.Outline

-- ---------------------------------------------------------------------------
-- Runs of siblings
-- ---------------------------------------------------------------------------

/-- The atoms of an object up to where its closer would stand: its opener and what is in it. -/
inductive Node.Part (sibling : Bool) (level : ℕ) : Node → List Atom → Prop where
  | mk {kind : UInt8} {title : String} {children : List Node} {opener : Atom} {inner : List Atom}
      (opens : opener.IsMark (if sibling then "man_start_sibling" else "man_start_object") level)
      (contents : Node.Outline false (level + 1) children inner) :
      Part sibling level (.object kind title sibling children) (opener :: inner)

namespace Node.Outline

variable {level : ℕ} {first : Node} {siblings rest : List Node} {atoms : List Atom}

theorem head_isSibling (h : Outline false level rest atoms) :
    rest.head?.any (·.isSibling) = false := by
  cases h <;> rfl

/-- Siblings behind an object have no closer, but for the last of them. -/
theorem siblings_run (h : Outline true level (siblings ++ rest) atoms)
    (hsiblings : ∀ node ∈ siblings, node.isSibling = true)
    (hrest : rest.head?.any (·.isSibling) = false) :
    ∃ parts closer more, List.Forall₂ (Node.Part true level) siblings parts ∧
      closer.IsMark "man_end_object" level ∧ Outline false level rest more ∧
      atoms = parts.flatten ++ closer :: more := by
  induction siblings generalizing atoms with
  | nil =>
    generalize hnodes : [] ++ rest = nodes at h
    cases h with
    | endObject closes rest =>
      rw [← hnodes] at rest
      exact ⟨[], _, _, .nil, closes, rest, rfl⟩
    | object opens contents rest =>
      rw [List.nil_append] at hnodes
      rw [hnodes] at hrest
      cases hrest
  | cons node siblings ih =>
    rw [List.forall_mem_cons] at hsiblings
    cases h with
    | endObject closes rest =>
      have hhead := rest.head_isSibling
      rw [List.cons_append, List.head?_cons, Option.any_some, hsiblings.1] at hhead
      cases hhead
    | object opens contents rest =>
      obtain ⟨parts, closer, more, hparts, hcloser, hmore, rfl⟩ := ih rest hsiblings.2
      refine ⟨_ :: parts, closer, more, .cons (.mk opens contents) hparts, hcloser, hmore, ?_⟩
      rw [List.flatten_cons, List.cons_append, List.cons_append, List.append_assoc]

/-- An object and the siblings behind it become its opener, theirs, and exactly one closer. -/
theorem object_run (h : Outline false level (first :: (siblings ++ rest)) atoms)
    (hfirst : first.isObject = true) (hsiblings : ∀ node ∈ siblings, node.isSibling = true)
    (hrest : rest.head?.any (·.isSibling) = false) :
    ∃ part parts closer more, Node.Part false level first part ∧
      List.Forall₂ (Node.Part true level) siblings parts ∧ closer.IsMark "man_end_object" level ∧
      Outline false level rest more ∧ atoms = part ++ (parts.flatten ++ closer :: more) := by
  cases h with
  | object opens contents behind =>
    obtain ⟨parts, closer, more, hparts, hcloser, hmore, rfl⟩ := behind.siblings_run hsiblings hrest
    exact ⟨_, parts, closer, more, .mk opens contents, hparts, hcloser, hmore, rfl⟩
  | atom | stream | context | action => cases hfirst

end Node.Outline

-- ---------------------------------------------------------------------------
-- From flattening to the outline
-- ---------------------------------------------------------------------------

namespace Atom

section Laid

variable {a : Atom} {name : String} {ops : List Operand} {base : UInt16} {level : ℕ}

theorem standsAs_of_forScript (h : forScript name ops = .ok a) (hlevel : level < 65536) :
    (a.atDepth (.ofNat level)).StandsAs name level := by
  obtain ⟨s, hname, -, rfl⟩ := make_eq_ok_iff.mp (forScript_eq_ok_iff.mp h)
  exact ⟨hname, UInt16.toNat_ofNat_of_lt' hlevel⟩

theorem effect_of_forScript (h : forScript name ops = .ok a) {effect : ScopeEffect}
    (heffect : (Signature.byName? name).map (·.effect) = some effect) : a.effect = effect := by
  have hstands := standsAs_of_forScript h (Nat.zero_lt_succ _)
  rw [← a.effect_atDepth]
  exact hstands.effect_eq heffect

theorem isMark_of_forScript (h : forScript name ops = .ok a)
    (hops : ∀ op ∈ ops, op.type ≠ .stream) (hlevel : level < 65536) :
    (a.atDepth (.ofNat level)).IsMark name level := by
  refine ⟨standsAs_of_forScript h hlevel, ?_⟩
  obtain ⟨s, -, -, rfl⟩ := make_eq_ok_iff.mp (forScript_eq_ok_iff.mp h)
  have hplain : ∀ op ∈ Operand.dropOmitted s.required ops, op.type ≠ .stream :=
    fun op hop => hops op (Operand.mem_of_mem_dropOmitted hop)
  rw [IsPlain, operands_atDepth, operands, withDepthsList_of_plain hplain]
  exact hplain

theorem isCarrier_of_forScript {stream carried : List Atom}
    (h : forScript name [.stream stream] = .ok a)
    (hlays : Lays (.ofNat (level + 1)) (level + 1) (level + 1) stream carried)
    (hlevel : level < 65536) : (a.atDepth (.ofNat level)).IsCarrier name level carried := by
  refine ⟨standsAs_of_forScript h hlevel, ?_⟩
  obtain ⟨s, -, -, rfl⟩ := make_eq_ok_iff.mp (forScript_eq_ok_iff.mp h)
  have hdrop : Operand.dropOmitted s.required [.stream stream] = [.stream stream] := by
    cases s.required <;> simp [Operand.dropOmitted, Operand.isEmptyText]
  have hbase : (UInt16.ofNat level + 1 : UInt16) = .ofNat (level + 1) :=
    (UInt16.ofNat_add level 1).symm
  rw [operands_atDepth, operands, hdrop, Operand.withDepthsList, Operand.withDepthsList,
    Operand.withDepths, hbase, hlays.assignFrom_eq]

/-- The atoms of an action, of which one carries the body. -/
theorem areAction_of_actionAtoms {criterion : UInt8} {stream carried atoms : List Atom}
    (h : actionAtoms criterion stream = .ok atoms)
    (hlays : Lays (.ofNat (level + 1)) (level + 1) (level + 1) stream carried)
    (hbase : base.toNat ≤ level) (hlevel : level < 65536) :
    ∃ laid, Lays base level level atoms laid ∧ AreAction criterion level carried laid := by
  unfold actionAtoms at h
  unfold AreAction
  split at h
  · next hselect =>
    obtain ⟨a, ha, heq⟩ := bind_eq_ok_iff.mp h
    cases heq
    refine ⟨_, lays_plain (effect_of_forScript ha rfl) hbase hlevel, ?_⟩
    rw [if_pos hselect]
    exact ⟨_, isCarrier_of_forScript ha hlays hlevel, rfl⟩
  · next hselect =>
    obtain ⟨setter, hsetter, h⟩ := bind_eq_ok_iff.mp h
    obtain ⟨a, ha, heq⟩ := bind_eq_ok_iff.mp h
    cases heq
    refine ⟨_, (lays_plain (effect_of_forScript hsetter rfl) hbase hlevel).append
      (lays_plain (effect_of_forScript ha rfl) hbase hlevel), ?_⟩
    rw [if_neg hselect]
    exact ⟨_, _, isMark_of_forScript hsetter (by simp [Operand.type]) hlevel,
      isCarrier_of_forScript ha hlays hlevel, rfl⟩

end Laid

end Atom

theorem ContextTarget.isMark_opener {target : ContextTarget} {a : Atom} {level : ℕ}
    (h : target.opener = .ok a) (hlevel : level < 65536) :
    (a.atDepth (.ofNat level)).IsMark target.openerName level := by
  cases target with
  | global gid =>
    rw [opener] at h
    exact Atom.isMark_of_forScript h (by simp [Operand.type]) hlevel
  | relative tag =>
    rw [opener] at h
    exact Atom.isMark_of_forScript h (by simp [Operand.type]) hlevel

/-- Nodes start with a sibling only behind an object. -/
theorem Node.behind_of_arePlaced {around : Option Block} {behind : Bool} {nodes : List Node}
    (h : Node.ArePlaced around behind nodes) (hsibling : nodes.head?.any (·.isSibling) = true) :
    behind = true := by
  cases nodes with
  | nil => cases hsibling
  | cons node rest => exact h.1 hsibling

/-- The nodes in a block do not start with a sibling. -/
theorem Node.any_isSibling_of_arePlaced {around : Option Block} {nodes : List Node}
    (h : Node.ArePlaced around false nodes) : nodes.head?.any (·.isSibling) = false :=
  Bool.eq_false_iff.mpr fun hsibling => Bool.noConfusion (Node.behind_of_arePlaced h hsibling)

theorem Atom.IsSelfContained.atDepth {a : Atom} (h : a.IsSelfContained) (depth : UInt16) :
    (a.atDepth depth).IsSelfContained := by
  refine ⟨(a.effect_atDepth depth).trans h.effect, ?_⟩
  rw [Atom.operands_atDepth, Operand.checkBalanceList_withDepths]
  exact h.balanced

-- ---------------------------------------------------------------------------
-- Laying out nodes
-- ---------------------------------------------------------------------------

namespace Node

/-- Whether a node becomes its part of the outline at a level, whatever has been put out before it and
from wherever depths are counted.  `continued` says whether a sibling of it follows. -/
def IsLaidOut (level : ℕ) (continued : Bool) (node : Node) : Prop :=
  ∀ (out result : List Atom) (base : UInt16), node.flattenOnto out continued = .ok result →
    base.toNat ≤ level →
    ∃ atoms laid, result = atoms.reverse ++ out ∧
      Atom.Lays base (level + node.isSibling.toNat) (level + continued.toNat) atoms laid ∧
      ∀ rest more, Outline continued level rest more →
        Outline node.isSibling level (node :: rest) (laid ++ more)

/-- Whether nodes become their outline at a level, in the same way. -/
def AreLaidOut (level : ℕ) (nodes : List Node) : Prop :=
  ∀ (out result : List Atom) (base : UInt16), flattenAllOnto out nodes = .ok result →
    base.toNat ≤ level →
    ∃ atoms laid, result = atoms.reverse ++ out ∧
      Atom.Lays base (level + (nodes.head?.any (·.isSibling)).toNat) level atoms laid ∧
      Outline (nodes.head?.any (·.isSibling)) level nodes laid

section LaidOut

variable {level : ℕ} {children : List Node} {around : Option Block}

/-- The nodes in a block start with no sibling, so they end at the level at which they start. -/
theorem AreLaidOut.inside (h : AreLaidOut level children)
    (hplaced : ArePlaced around false children) {out result : List Atom} {base : UInt16}
    (hflatten : flattenAllOnto out children = .ok result) (hbase : base.toNat ≤ level) :
    ∃ atoms laid, result = atoms.reverse ++ out ∧ Atom.Lays base level level atoms laid ∧
      Outline false level children laid := by
  have hlaid := h out result base hflatten hbase
  rw [any_isSibling_of_arePlaced hplaced] at hlaid
  exact hlaid

theorem isLaidOut_atom {a : Atom} (hplain : a.IsSelfContained) (hdeep : level + a.nesting < 65536) :
    IsLaidOut level false (.atom a) := by
  intro out result base h hbase
  unfold flattenOnto at h
  cases h
  have hlevel : level < 65536 := Nat.lt_of_add_right_lt hdeep
  refine ⟨[a], [a.atDepth (.ofNat level)], rfl, Atom.lays_plain hplain.effect hbase hlevel, ?_⟩
  intro rest more hmore
  exact .atom (UInt16.toNat_ofNat_of_lt' hlevel) (hplain.atDepth _)
    (Atom.everywhere_atDepth_of_nesting hplain.balanced hdeep) hmore

theorem isLaidOut_stream {id : Option UInt32} (hplaced : ArePlaced around false children)
    (hchildren : AreLaidOut (level + 1) children) (hlevel : level + 1 < 65536) :
    IsLaidOut level false (.stream id children) := by
  intro out result base h hbase
  rw [flattenOnto] at h
  obtain ⟨opener, hopener, h⟩ := bind_eq_ok_iff.mp h
  obtain ⟨contents, hcontents, h⟩ := bind_eq_ok_iff.mp h
  obtain ⟨closer, hcloser, heq⟩ := bind_eq_ok_iff.mp h
  cases heq
  obtain ⟨atoms, laid, rfl, hlays, houtline⟩ :=
    hchildren.inside hplaced hcontents (Nat.le_succ_of_le hbase)
  have hlow := Nat.lt_of_succ_lt hlevel
  have hopens := Atom.isMark_of_forScript hopener (by cases id <;> simp [Operand.type]) hlow
  have hcloses := Atom.isMark_of_forScript hcloser (by simp) hlow
  have hblock := hlays.between (Atom.effect_of_forScript hopener rfl)
    (Atom.effect_of_forScript hcloser rfl) hbase hlevel
  refine ⟨opener :: (atoms ++ [closer]), _, ?_, hblock, fun rest more hmore => ?_⟩
  · simp
  · rw [List.cons_append, List.append_assoc]
    exact .stream hopens houtline hcloses hmore

theorem isLaidOut_object {kind : UInt8} {title : String} {sibling : Bool} (continued : Bool)
    (hplaced : ArePlaced around false children) (hchildren : AreLaidOut (level + 1) children)
    (hlevel : level + 1 < 65536) :
    IsLaidOut level continued (.object kind title sibling children) := by
  intro out result base h hbase
  rw [flattenOnto] at h
  obtain ⟨opener, hopener, h⟩ := bind_eq_ok_iff.mp h
  obtain ⟨contents, hcontents, h⟩ := bind_eq_ok_iff.mp h
  obtain ⟨atoms, laid, rfl, hlays, houtline⟩ :=
    hchildren.inside hplaced hcontents (Nat.le_succ_of_le hbase)
  have hlow := Nat.lt_of_succ_lt hlevel
  have hopens := Atom.isMark_of_forScript hopener (by simp [Operand.type]) hlow
  -- a sibling steps out of the object before it, and in again
  have hfirst : Atom.Lays base (level + sibling.toNat) (level + 1) [opener]
      [opener.atDepth (.ofNat level)] := by
    cases sibling with
    | false => exact Atom.lays_opens (Atom.effect_of_forScript hopener rfl) hbase hlow
    | true => exact Atom.lays_reopens (Atom.effect_of_forScript hopener rfl) hbase hlevel
  cases continued with
  | true =>
    cases h
    refine ⟨opener :: atoms, _, ?_, hfirst.append hlays, fun rest more hmore => ?_⟩
    · simp
    · rw [List.singleton_append, List.cons_append]
      exact .object hopens houtline hmore
  | false =>
    obtain ⟨closer, hcloser, heq⟩ := bind_eq_ok_iff.mp h
    cases heq
    have hcloses := Atom.isMark_of_forScript hcloser (by simp) hlow
    have hlast : Atom.Lays base (level + 1) level [closer] [closer.atDepth (.ofNat level)] :=
      Atom.lays_closes (Atom.effect_of_forScript hcloser rfl) hbase hlevel
    refine ⟨opener :: (atoms ++ [closer]), _, ?_, hfirst.append (hlays.append hlast),
      fun rest more hmore => ?_⟩
    · simp
    · rw [List.singleton_append, List.cons_append, List.append_assoc]
      exact .object hopens houtline (.endObject hcloses hmore)

theorem isLaidOut_context {target : ContextTarget} (hplaced : ArePlaced around false children)
    (hchildren : AreLaidOut (level + 1) children) (hlevel : level + 1 < 65536) :
    IsLaidOut level false (.context target children) := by
  intro out result base h hbase
  rw [flattenOnto] at h
  obtain ⟨opener, hopener, h⟩ := bind_eq_ok_iff.mp h
  obtain ⟨contents, hcontents, h⟩ := bind_eq_ok_iff.mp h
  obtain ⟨closer, hcloser, heq⟩ := bind_eq_ok_iff.mp h
  cases heq
  obtain ⟨atoms, laid, rfl, hlays, houtline⟩ :=
    hchildren.inside hplaced hcontents (Nat.le_succ_of_le hbase)
  have hlow := Nat.lt_of_succ_lt hlevel
  have hopens := ContextTarget.isMark_opener hopener hlow
  have hcloses := Atom.isMark_of_forScript hcloser (by simp) hlow
  have heffect : opener.effect = .opens .context := by
    rw [← opener.effect_atDepth]
    exact hopens.effect_eq target.effect_opener
  have hblock := hlays.between heffect (Atom.effect_of_forScript hcloser rfl) hbase hlevel
  refine ⟨opener :: (atoms ++ [closer]), _, ?_, hblock, fun rest more hmore => ?_⟩
  · simp
  · rw [List.cons_append, List.append_assoc]
    exact .context hopens houtline hcloses hmore

theorem isLaidOut_action {criterion : UInt8} (hplaced : ArePlaced around false children)
    (hchildren : AreLaidOut (level + 2) children) (hlevel : level + 2 < 65536) :
    IsLaidOut level false (.action criterion children) := by
  intro out result base h hbase
  rw [flattenOnto] at h
  obtain ⟨opener, hopener, h⟩ := bind_eq_ok_iff.mp h
  obtain ⟨inner, hinner, h⟩ := bind_eq_ok_iff.mp h
  obtain ⟨closer, hcloser, h⟩ := bind_eq_ok_iff.mp h
  obtain ⟨action, haction, heq⟩ := bind_eq_ok_iff.mp h
  cases heq
  -- the stream of the body has a base of its own
  have hlow := Nat.lt_of_succ_lt hlevel
  have hcarried : (UInt16.ofNat (level + 1)).toNat ≤ level + 1 := (UInt16.toNat_ofNat_of_lt' hlow).le
  obtain ⟨atoms, laid, rfl, hlays, houtline⟩ :=
    hchildren.inside hplaced hinner (Nat.le_succ_of_le hcarried)
  have hopens := Atom.isMark_of_forScript hopener (by simp) hlow
  have hcloses := Atom.isMark_of_forScript hcloser (by simp) hlow
  have hblock := hlays.between (Atom.effect_of_forScript hopener rfl)
    (Atom.effect_of_forScript hcloser rfl) hcarried hlevel
  have hstream : (closer :: (atoms.reverse ++ [opener])).reverse = opener :: (atoms ++ [closer]) := by
    simp
  rw [hstream] at haction
  obtain ⟨laidAction, hlaysAction, hareAction⟩ :=
    Atom.areAction_of_actionAtoms haction hblock hbase (Nat.lt_of_succ_lt hlow)
  exact ⟨action, laidAction, rfl, hlaysAction, fun rest more hmore =>
    .action hopens houtline hcloses hareAction hmore⟩

theorem areLaidOut_nil (level : ℕ) : AreLaidOut level [] := by
  intro out result base h hbase
  unfold flattenAllOnto at h
  cases h
  exact ⟨[], [], rfl, Atom.lays_nil base level, .nil⟩

theorem areLaidOut_cons {node : Node} {rest : List Node}
    (hnode : IsLaidOut level (rest.head?.any (·.isSibling)) node) (hrest : AreLaidOut level rest) :
    AreLaidOut level (node :: rest) := by
  intro out result base h hbase
  rw [flattenAllOnto] at h
  obtain ⟨mid, hmid, h⟩ := bind_eq_ok_iff.mp h
  obtain ⟨atoms, laid, rfl, hlays, houtline⟩ := hnode out mid base hmid hbase
  obtain ⟨more, laidMore, rfl, hlaysMore, houtlineMore⟩ := hrest _ result base h hbase
  refine ⟨atoms ++ more, laid ++ laidMore, ?_, hlays.append hlaysMore, houtline _ _ houtlineMore⟩
  rw [List.reverse_append, List.append_assoc]

end LaidOut

mutual

/-- A node in its place becomes its part of the outline. -/
theorem isLaidOut_of_isPlaced :
    ∀ (node : Node) {around : Option Block} {continued : Bool} {level : ℕ}, node.IsPlaced around →
      (continued = true → node.isObject = true) → level + node.nesting < 65536 →
      IsLaidOut level continued node
  | .object kind title sibling children, around, continued, level, hplaced, _, hdeep => by
    rw [IsPlaced] at hplaced
    rw [nesting] at hdeep
    have hchildren := areLaidOut_of_arePlaced children hplaced.2 (show level + 1 + _ < _ by omega)
    exact isLaidOut_object continued hplaced.2 hchildren (by omega)
  | .atom a, around, continued, level, hplaced, hobject, hdeep => by
    obtain rfl : continued = false := by simpa [isObject] using hobject
    rw [IsPlaced] at hplaced
    rw [nesting] at hdeep
    exact isLaidOut_atom hplaced.2 hdeep
  | .stream id children, around, continued, level, hplaced, hobject, hdeep => by
    obtain rfl : continued = false := by simpa [isObject] using hobject
    rw [IsPlaced] at hplaced
    rw [nesting] at hdeep
    have hchildren := areLaidOut_of_arePlaced children hplaced (show level + 1 + _ < _ by omega)
    exact isLaidOut_stream hplaced hchildren (by omega)
  | .context target children, around, continued, level, hplaced, hobject, hdeep => by
    obtain rfl : continued = false := by simpa [isObject] using hobject
    rw [IsPlaced] at hplaced
    rw [nesting] at hdeep
    have hchildren := areLaidOut_of_arePlaced children hplaced.2 (show level + 1 + _ < _ by omega)
    exact isLaidOut_context hplaced.2 hchildren (by omega)
  | .action criterion body, around, continued, level, hplaced, hobject, hdeep => by
    obtain rfl : continued = false := by simpa [isObject] using hobject
    rw [IsPlaced] at hplaced
    rw [nesting] at hdeep
    have hbody := areLaidOut_of_arePlaced body hplaced.2 (show level + 2 + _ < _ by omega)
    exact isLaidOut_action hplaced.2 hbody (by omega)

/-- Nodes in their places become their outline. -/
theorem areLaidOut_of_arePlaced :
    ∀ (nodes : List Node) {around : Option Block} {behind : Bool} {level : ℕ},
      ArePlaced around behind nodes → level + nestingEach nodes < 65536 → AreLaidOut level nodes
  | [], around, behind, level, _, _ => areLaidOut_nil level
  | node :: rest, around, behind, level, hplaced, hdeep => by
    rw [ArePlaced] at hplaced
    rw [nestingEach] at hdeep
    obtain ⟨-, hnode, hrest⟩ := hplaced
    exact areLaidOut_cons (isLaidOut_of_isPlaced node hnode (behind_of_arePlaced hrest) (by omega))
      (areLaidOut_of_arePlaced rest hrest (by omega))

end

end Node

/-- A script that is returned, and has fewer levels of nesting than depths can count, flattens to its
outline: its atoms are balanced, each stands as deep as there are blocks around it, and every stream that
an atom carries starts one level deeper and comes back to where it started. -/
theorem Script.flatten_outline {script : Script} {atoms : List Atom} (h : script.IsReturned)
    (hflatten : script.flatten = .ok atoms) (hdeep : script.nesting < 65536) :
    Atom.checkBalance atoms = .ok () ∧ Node.Outline false 0 script.nodes atoms ∧
      Atom.Everywhere Atom.CarriesLevel atoms := by
  obtain ⟨flat, hflat, heq⟩ := bind_eq_ok_iff.mp hflatten
  cases heq
  have hplaced := isPlaced_of_isReturned h
  have hlaid := Node.areLaidOut_of_arePlaced script.nodes hplaced ((Nat.zero_add _).trans_lt hdeep)
  obtain ⟨atoms, laid, rfl, hlays, houtline⟩ :=
    hlaid.inside hplaced hflat (Nat.le_refl (0 : UInt16).toNat)
  have hassign : Atom.assignDepths 0 (atoms.reverse ++ []).reverse = laid := by
    rw [List.append_nil, List.reverse_reverse]
    exact hlays.assignFrom_eq
  rw [hassign]
  refine ⟨?_, houtline, houtline.carriesLevel⟩
  have hbalanced := houtline.checkFrom_append [] []
  rw [List.append_nil] at hbalanced
  exact hbalanced

/-- Two objects side by side, the second with an action: they share the closer. -/
theorem Script.flatten_outline_siblings :
    ∃ (script : Script) (atoms : List Atom), script.IsReturned ∧ script.flatten = .ok atoms ∧
      script.nesting < 65536 ∧ Atom.checkBalance atoms = .ok () ∧
      Node.Outline false 0 script.nodes atoms ∧ Atom.Everywhere Atom.CarriesLevel atoms ∧
      atoms.map (fun a => (a.name, a.depth)) =
        [("uni_start_stream", 0), ("man_start_object", 1), ("man_start_sibling", 1),
          ("act_replace_select_action", 2), ("man_end_object", 1), ("uni_end_stream", 0)] := by
  have hreturned : IsReturned ⟨[.stream none [.object 6 "Yes" false [],
      .object 6 "No" true [.action selectCriterion []]]]⟩ :=
    .inl ⟨[.stream, .object "trigger" "Yes", .sibling "trigger" "No", .action "select", .endAction,
      .endObject, .endStream], rfl⟩
  have hdeep : nesting ⟨[.stream none [.object 6 "Yes" false [],
      .object 6 "No" true [.action selectCriterion []]]]⟩ < 65536 := by decide
  obtain ⟨hbalanced, houtline, hcarries⟩ := flatten_outline hreturned rfl hdeep
  exact ⟨_, _, hreturned, rfl, hdeep, hbalanced, houtline, hcarries, rfl⟩

end Switchboard
