import Mathlib.Data.List.Induction
import Switchboard.Proofs.Script.Draft

/-!
# The calls to a script builder

A script is built by a sequence of calls.  Once a call has failed no further one changes anything, and a
call that does not fail does one of four things: it opens a block, closes the innermost block, puts a
sibling in the place of the innermost object, or adds an atom.

Main results:

* `Builder.call_of_failed`: a builder that has failed stays as it is.
* `Builder.done_of_call`: all that a call can do that does not fail.
* `Builder.callAll_induction`: what holds of the empty builder and is kept by each of these steps holds
  of every builder that has not failed.
-/

namespace Switchboard

-- ---------------------------------------------------------------------------
-- Calls
-- ---------------------------------------------------------------------------

/-- A call to a builder. -/
inductive Builder.Call where
  | stream
  | streamWithId (id : UInt32)
  | endStream
  | object (type title : String)
  | sibling (type title : String)
  | endObject
  | context (gid : Gid)
  | contextRelative (tag : UInt32)
  | endContext
  | action (criterion : String)
  | endAction
  | atom (name : String) (ops : List Operand)
  | named (name symbol : String) (rest : List Operand)
  | pushAtom (atom : Atom)
  | fail (error : CompileError)

namespace Builder

/-- The builder after a call. -/
def call (b : Builder) : Call → Builder
  | .stream => b.stream
  | .streamWithId id => b.streamWithId id
  | .endStream => b.endStream
  | .object type title => b.object type title
  | .sibling type title => b.sibling type title
  | .endObject => b.endObject
  | .context gid => b.context gid
  | .contextRelative tag => b.contextRelative tag
  | .endContext => b.endContext
  | .action criterion => b.action criterion
  | .endAction => b.endAction
  | .atom name ops => b.atom name ops
  | .named name symbol rest => b.named name symbol rest
  | .pushAtom a => b.pushAtom a
  | .fail error => b.fail error

/-- The builder after some calls, in order. -/
def callAll (b : Builder) (calls : List Call) : Builder :=
  calls.foldl call b

theorem callAll_append (b : Builder) (calls more : List Call) :
    b.callAll (calls ++ more) = (b.callAll calls).callAll more :=
  List.foldl_append

/-- The atom that a call adds, if it is a call for an atom and the atom can be made. -/
def Call.atom? : Call → Option Atom
  | .atom name ops => (Atom.make name ops).toOption
  | .named name symbol rest =>
    match Signature.byName? name with
    | none => none
    | some s =>
      match s.fields with
      | .named vocabulary :: _ =>
        match vocabulary.value? symbol with
        | some value => (Atom.make name (.int value.toUInt32 :: rest)).toOption
        | none => none
      | _ => none
  | .pushAtom a => some a
  | _ => none

/-- The call as it is found in a script: every call for an atom adds the atom that it makes. -/
def Call.read (c : Call) : Call :=
  match c.atom? with
  | some a => .pushAtom a
  | none => c

-- ---------------------------------------------------------------------------
-- Failed builders
-- ---------------------------------------------------------------------------

section Failed

variable {b : Builder}

theorem fail_of_failed (h : b.failed = true) (error : CompileError) : b.fail error = b :=
  if_pos h

theorem openBlock_of_failed (h : b.failed = true) (head : Head) : b.openBlock head = b :=
  if_pos h

theorem close_of_failed (h : b.failed = true) (kind : Block) : b.close kind = b :=
  if_pos h

/-- A builder that has failed is not changed by any call. -/
theorem call_of_failed (h : b.failed = true) (c : Call) : b.call c = b := by
  cases c with
  | stream => exact openBlock_of_failed h _
  | streamWithId id => exact openBlock_of_failed h _
  | endStream => exact close_of_failed h _
  | object type title => exact if_pos h
  | sibling type title => exact if_pos h
  | endObject => exact close_of_failed h _
  | context gid => exact if_pos h
  | contextRelative tag => exact if_pos h
  | endContext => exact close_of_failed h _
  | action criterion => exact if_pos h
  | endAction => exact close_of_failed h _
  | atom name ops => exact if_pos h
  | named name symbol rest => exact if_pos h
  | pushAtom a => exact if_pos h
  | fail error => exact fail_of_failed h error

theorem callAll_of_failed (h : b.failed = true) (calls : List Call) : b.callAll calls = b := by
  induction calls with
  | nil => rfl
  | cons c calls ih =>
    show (b.call c).callAll calls = b
    rw [call_of_failed h, ih]

end Failed

end Builder

-- ---------------------------------------------------------------------------
-- What a call does
-- ---------------------------------------------------------------------------

/-- The name that a vocabulary has for a value. -/
def Vocabulary.spelling (vocabulary : Vocabulary) (value : UInt8) : String :=
  (vocabulary.nameOf? value.toNat).getD ""

/-- A word that is found in a list stands at the place where it was found. -/
theorem Vocabulary.getElem?_of_idxOf? {words : List String} {word : String} {i : ℕ}
    (h : words.idxOf? word = some i) : i < words.length ∧ words[i]? = some word := by
  obtain ⟨hlt, hword, -⟩ := List.findIdx?_eq_some_iff_getElem.mp h
  refine ⟨hlt, ?_⟩
  rw [List.getElem?_eq_getElem hlt, eq_of_beq hword]

theorem Vocabulary.spelling_of_objectType {name : String} {value : UInt8}
    (h : objectType.value? name = some value) : objectType.spelling value = name := by
  obtain ⟨i, hi, rfl⟩ := Option.map_eq_some_iff.mp h
  obtain ⟨hlt, hname⟩ := getElem?_of_idxOf? hi
  have hsmall : i < 26 := hlt
  rw [spelling, UInt8.toNat_ofNat', Nat.mod_eq_of_lt (by omega), nameOf?, hname, Option.getD_some]

theorem Vocabulary.spelling_of_criterion {name : String} {value : UInt8}
    (h : criterion.value? name = some value) : criterion.spelling value = name := by
  obtain ⟨i, hi, rfl⟩ := Option.map_eq_some_iff.mp h
  obtain ⟨hlt, hname⟩ := getElem?_of_idxOf? hi
  have hsmall : i < 13 := hlt
  -- the criteria are numbered from one
  rw [spelling, UInt8.toNat_ofNat', Nat.mod_eq_of_lt (by omega), nameOf?,
    if_neg (Nat.succ_ne_zero i), Nat.add_sub_cancel, hname, Option.getD_some]

namespace Head

/-- The call that opens a block. -/
def call : Head → Builder.Call
  | stream none => .stream
  | stream (some id) => .streamWithId id
  | object kind title false => .object (Vocabulary.objectType.spelling kind) title
  | object kind title true => .sibling (Vocabulary.objectType.spelling kind) title
  | context (.global gid) => .context gid
  | context (.relative tag) => .contextRelative tag
  | action criterion => .action (Vocabulary.criterion.spelling criterion)

/-- Whether a block may stand in one of the given kind, or at the top level. -/
def FitsIn (around : Option Block) : Head → Prop
  | stream _ => True
  | object .. | context _ => around.isSome = true
  | action _ => around = some .object ∨ around = some .context

end Head

/-- The call that closes a block. -/
def Block.endCall : Block → Builder.Call
  | stream => .endStream
  | object => .endObject
  | context => .endContext
  | action => .endAction

/-- Whether an atom may stand in a script as it is: it changes no scope, and the streams that it carries
are balanced. -/
structure Atom.IsSelfContained (a : Atom) : Prop where
  effect : a.effect = .none
  balanced : Operand.checkBalanceList a.operands = .ok ()

namespace Builder

/-- The builder with another block open. -/
def opening (b : Builder) (head : Head) : Builder :=
  { b with opened := ⟨head, []⟩ :: b.opened }

/-- The builder with its innermost block closed, which has become a node of the block around it. -/
def closing (b : Builder) (block : OpenBlock) (outer : List OpenBlock) : Builder :=
  { b with opened := outer }.push (block.head.node block.children.reverse)

/-- What a call does that does not fail. -/
inductive Done (b : Builder) : Call → Builder → Prop where
  | opens (head : Head) (fits : head.FitsIn b.innermost) (first : head.isSibling = false) :
      Done b head.call (b.opening head)
  | closes {block : OpenBlock} {outer : List OpenBlock} (innermost : b.opened = block :: outer) :
      Done b block.head.block.endCall (b.closing block outer)
  | replaces {block : OpenBlock} {outer : List OpenBlock} (innermost : b.opened = block :: outer)
      (object : block.head.block = .object) (kind : UInt8) (title : String) :
      Done b (Head.object kind title true).call
        ((b.closing block outer).opening (.object kind title true))
  | adds {c : Call} (a : Atom) (made : c.atom? = some a) (plain : a.IsSelfContained)
      (inside : b.opened ≠ []) : Done b c (b.push (.atom a))

-- ---------------------------------------------------------------------------
-- Calls that do not fail
-- ---------------------------------------------------------------------------

section Success

variable {b : Builder}

theorem failed_fail_ne (b : Builder) (error : CompileError) : (b.fail error).failed ≠ false := by
  rw [failed_fail]
  exact Bool.noConfusion

theorem openBlock_eq (h : b.failed = false) (head : Head) : b.openBlock head = b.opening head :=
  if_neg (Bool.eq_false_iff.mp h)

theorem opened_of_inside {what : String} {next : Builder → Builder}
    (h : (b.inside what next).failed = false) : b.opened ≠ [] := by
  intro hempty
  unfold inside at h
  split at h
  · next hfailed => exact absurd (hfailed.symm.trans h) Bool.noConfusion
  · rw [hempty, List.isEmpty_nil, if_pos rfl] at h
    exact absurd h (failed_fail_ne _ _)

theorem isSome_innermost (h : b.opened ≠ []) : b.innermost.isSome = true := by
  obtain ⟨block, outer, hopened⟩ := List.exists_cons_of_ne_nil h
  rw [innermost, hopened]
  rfl

theorem close_eq {kind : Block} (hb : b.failed = false) (h : (b.close kind).failed = false) :
    ∃ block outer, b.opened = block :: outer ∧ block.head.block = kind ∧
      b.close kind = b.closing block outer := by
  unfold close at h ⊢
  rw [if_neg (Bool.eq_false_iff.mp hb)] at h ⊢
  cases hopened : b.opened with
  | nil =>
    rw [hopened] at h
    exact absurd h (failed_fail_ne _ _)
  | cons block outer =>
    rw [hopened] at h
    dsimp only at h ⊢
    split at h
    · next hkind => exact ⟨block, outer, rfl, hkind, if_pos hkind⟩
    · exact absurd h (failed_fail_ne _ _)

theorem pushPlain_eq {a : Atom} (h : (b.pushPlain a).failed = false) :
    a.IsSelfContained ∧ b.pushPlain a = b.push (.atom a) := by
  unfold pushPlain at h ⊢
  split at h
  · next heffect =>
    rw [if_pos heffect]
    split at h
    · next hbalanced =>
      exact ⟨⟨heffect, hbalanced⟩, rfl⟩
    · exact absurd h (failed_fail_ne _ _)
  · exact absurd h (failed_fail_ne _ _)

theorem done_of_close {kind : Block} (hb : b.failed = false) (h : (b.close kind).failed = false) :
    Done b kind.endCall (b.close kind) := by
  obtain ⟨block, outer, hopened, rfl, heq⟩ := close_eq hb h
  rw [heq]
  exact .closes hopened

/-- A call for an atom that does not fail adds the atom that it makes. -/
theorem done_of_pushAtom {c : Call} {a : Atom} (hmade : c.atom? = some a)
    (h : (b.pushAtom a).failed = false) : Done b c (b.pushAtom a) := by
  have hopened := opened_of_inside h
  obtain ⟨-, heq⟩ := inside_eq h
  rw [pushAtom, heq] at h ⊢
  obtain ⟨hplain, heq⟩ := pushPlain_eq h
  rw [heq]
  exact .adds a hmade hplain hopened

theorem done_of_atom {c : Call} {name : String} {ops : List Operand}
    (hmade : c.atom? = (Atom.make name ops).toOption) (h : (b.atom name ops).failed = false) :
    Done b c (b.atom name ops) := by
  have hopened := opened_of_inside h
  obtain ⟨-, heq⟩ := inside_eq h
  rw [atom, heq] at h ⊢
  cases hmake : Atom.make name ops with
  | error error =>
    rw [hmake] at h
    dsimp only at h
    exact absurd h (failed_fail_ne _ _)
  | ok a =>
    rw [hmake] at h hmade
    obtain ⟨hplain, heq⟩ := pushPlain_eq h
    dsimp only
    rw [heq]
    exact .adds a hmade hplain hopened

theorem done_of_object {type title : String} (hb : b.failed = false)
    (h : (b.object type title).failed = false) :
    Done b (.object type title) (b.object type title) := by
  have hinside := isSome_innermost (opened_of_inside h)
  obtain ⟨-, heq⟩ := inside_eq h
  rw [object, heq] at h ⊢
  obtain ⟨kind, hkind, heq⟩ := withObjectType_eq h
  rw [heq, openBlock_eq hb, ← Vocabulary.spelling_of_objectType hkind]
  exact .opens (.object kind title false) hinside rfl

theorem done_of_sibling {type title : String} (hb : b.failed = false)
    (h : (b.sibling type title).failed = false) :
    Done b (.sibling type title) (b.sibling type title) := by
  rw [sibling, if_neg (Bool.eq_false_iff.mp hb)] at h ⊢
  split at h
  · exact absurd h (failed_fail_ne _ _)
  · next hinnermost =>
    rw [if_neg hinnermost]
    obtain ⟨kind, hkind, heq⟩ := withObjectType_eq h
    rw [heq] at h ⊢
    -- opening the sibling fails only if closing the object has failed
    have hclosed : (b.close .object).failed = false := by
      cases hfailed : (b.close .object).failed with
      | false => rfl
      | true =>
        rw [openBlock_of_failed hfailed, hfailed] at h
        cases h
    obtain ⟨block, outer, hopened, hobject, heq⟩ := close_eq hb hclosed
    rw [openBlock_eq hclosed, heq, ← Vocabulary.spelling_of_objectType hkind]
    exact .replaces hopened hobject kind title

theorem done_of_action {criterion : String} (hb : b.failed = false)
    (h : (b.action criterion).failed = false) : Done b (.action criterion) (b.action criterion) := by
  rw [action, if_neg (Bool.eq_false_iff.mp hb)] at h ⊢
  split at h
  · exact absurd h (failed_fail_ne _ _)
  · next hinnermost =>
    rw [if_neg hinnermost]
    have haround : b.innermost = some .object ∨ b.innermost = some .context :=
      Decidable.or_iff_not_not_and_not.mpr hinnermost
    cases hvalue : Vocabulary.criterion.value? criterion with
    | none =>
      rw [hvalue] at h
      dsimp only at h
      exact absurd h (failed_fail_ne _ _)
    | some value =>
      dsimp only
      rw [openBlock_eq hb, ← Vocabulary.spelling_of_criterion hvalue]
      exact .opens (.action value) haround rfl

theorem done_of_named {name symbol : String} {rest : List Operand} (hb : b.failed = false)
    (h : (b.named name symbol rest).failed = false) :
    Done b (.named name symbol rest) (b.named name symbol rest) := by
  rw [named, if_neg (Bool.eq_false_iff.mp hb)] at h ⊢
  cases hname : Signature.byName? name with
  | none =>
    rw [hname] at h
    exact absurd h (failed_fail_ne _ _)
  | some s =>
    rw [hname] at h
    dsimp only at h ⊢
    split at h
    · next vocabulary fields hfields =>
      cases hvalue : vocabulary.value? symbol with
      | none =>
        rw [hvalue] at h
        exact absurd h (failed_fail_ne _ _)
      | some value =>
        rw [hvalue] at h
        refine done_of_atom ?_ h
        rw [Call.atom?, hname]
        dsimp only
        rw [hfields]
        dsimp only
        rw [hvalue]
    · exact absurd h (failed_fail_ne _ _)

/-- All that a call can do that does not fail. -/
theorem done_of_call {c : Call} (hb : b.failed = false) (h : (b.call c).failed = false) :
    Done b c (b.call c) := by
  cases c with
  | stream =>
    have heq : b.call .stream = b.opening (.stream none) := openBlock_eq hb _
    rw [heq]
    exact .opens (.stream none) trivial rfl
  | streamWithId id =>
    have heq : b.call (.streamWithId id) = b.opening (.stream (some id)) := openBlock_eq hb _
    rw [heq]
    exact .opens (.stream (some id)) trivial rfl
  | endStream => exact done_of_close hb h
  | object type title => exact done_of_object hb h
  | sibling type title => exact done_of_sibling hb h
  | endObject => exact done_of_close hb h
  | context gid =>
    have hinside := isSome_innermost (opened_of_inside h)
    obtain ⟨-, heq⟩ := inside_eq h
    rw [call, context, heq, openBlock_eq hb]
    exact .opens (.context (.global gid)) hinside rfl
  | contextRelative tag =>
    have hinside := isSome_innermost (opened_of_inside h)
    obtain ⟨-, heq⟩ := inside_eq h
    rw [call, contextRelative, heq, openBlock_eq hb]
    exact .opens (.context (.relative tag)) hinside rfl
  | endContext => exact done_of_close hb h
  | action criterion => exact done_of_action hb h
  | endAction => exact done_of_close hb h
  | atom name ops => exact done_of_atom rfl h
  | named name symbol rest => exact done_of_named hb h
  | pushAtom a => exact done_of_pushAtom rfl h
  | fail error => exact absurd h (failed_fail_ne _ _)

theorem failed_of_failed_call {c : Call} (h : (b.call c).failed = false) : b.failed = false := by
  cases hfailed : b.failed with
  | false => rfl
  | true =>
    rw [call_of_failed hfailed, hfailed] at h
    cases h

end Success

/-- What holds of the empty builder, and is kept by every call that does not fail, holds after all calls
of which none has failed.  It may speak of the calls made so far. -/
theorem callAll_induction {P : List Call → Builder → Prop} (start : P [] empty)
    (step : ∀ calls b c after, b.failed = false → P calls b → Done b c after → P (calls ++ [c]) after)
    (calls : List Call) (h : (empty.callAll calls).failed = false) :
    P calls (empty.callAll calls) := by
  induction calls using List.reverseRecOn with
  | nil => exact start
  | append_singleton calls c ih =>
    rw [callAll_append] at h ⊢
    have hbefore : (empty.callAll calls).failed = false := failed_of_failed_call h
    exact step calls _ c _ hbefore (ih hbefore) (done_of_call hbefore h)

end Builder

end Switchboard
