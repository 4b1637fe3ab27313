import Switchboard.Proofs.Atom.Decoding
import Switchboard.Script.Compile

/-!
# Flattening scripts

A script is a tree, and flattening it adds atoms of its own: openers, closers and the atoms of
actions.  Here is when this can fail, and that it adds nothing that the look-up did not build.

Main results:

* `Script.succeeds_flatten_iff`: only the title of an object can keep a script from being flattened.
* `Script.areMade_of_flatten`: flattening a script of made atoms gives made atoms.
-/

namespace Switchboard

-- ---------------------------------------------------------------------------
-- The parts of a script
-- ---------------------------------------------------------------------------

mutual

/-- The atoms that stand in a node as such, in document order. -/
def Node.atoms : Node → List Atom
  | .atom a => [a]
  | .stream _ children | .object _ _ _ children | .context _ children | .action _ children =>
    Node.atomsEach children

/-- The atoms that stand in nodes as such, in document order. -/
def Node.atomsEach : List Node → List Atom
  | [] => []
  | node :: rest => node.atoms ++ Node.atomsEach rest

end

mutual

/-- The titles of the objects in a node. -/
def Node.titles : Node → List String
  | .atom _ => []
  | .object _ title _ children => title :: Node.titlesEach children
  | .stream _ children | .context _ children | .action _ children => Node.titlesEach children

/-- The titles of the objects in nodes. -/
def Node.titlesEach : List Node → List String
  | [] => []
  | node :: rest => node.titles ++ Node.titlesEach rest

end

/-- Whether the look-up built every atom of a script, at every level. -/
def Script.IsMade (script : Script) : Prop :=
  Atom.AreMade (Node.atomsEach script.nodes)

/-- The longest title of an object, in bytes. -/
def maxTitle : Nat := 255

/-- Whether no title among the given ones is too long for an object. -/
def TitlesFit (titles : List String) : Prop :=
  ∀ title ∈ titles, title.utf8ByteSize ≤ maxTitle

/-- Whether an object of a script has a title that is too long. -/
def Script.HasLongTitle (script : Script) : Prop :=
  ∃ title ∈ Node.titlesEach script.nodes, maxTitle < title.utf8ByteSize

theorem titlesFit_nil : TitlesFit [] :=
  fun _ h => nomatch h

theorem titlesFit_cons {title : String} {titles : List String} :
    TitlesFit (title :: titles) ↔ title.utf8ByteSize ≤ maxTitle ∧ TitlesFit titles :=
  List.forall_mem_cons

theorem titlesFit_append {left right : List String} :
    TitlesFit (left ++ right) ↔ TitlesFit left ∧ TitlesFit right :=
  List.forall_mem_append

theorem Script.not_hasLongTitle_iff {script : Script} :
    ¬script.HasLongTitle ↔ TitlesFit (Node.titlesEach script.nodes) := by
  simp only [HasLongTitle, TitlesFit, not_exists, not_and, not_lt]

-- ---------------------------------------------------------------------------
-- The atoms that flattening adds
-- ---------------------------------------------------------------------------

theorem FieldKind.check_named (vocabulary : Vocabulary) (atom : String) (index : Nat)
    (value : UInt8) :
    FieldKind.check atom index (.named vocabulary) (.int value.toUInt32) = .ok () := by
  have hle : value.toUInt32 ≤ 0xFF := by
    rw [UInt32.le_iff_toNat_le, UInt8.toNat_toUInt32]
    have hmax : (0xFF : UInt32).toNat = 255 := rfl
    have hlt := value.toNat_lt
    omega
  exact if_pos hle

namespace Atom

theorem forScript_eq_ok_iff {name : String} {ops : List Operand} {a : Atom} :
    forScript name ops = .ok a ↔ make name ops = .ok a := by
  unfold forScript
  cases make name ops with
  | ok atom => rw [Except.ok.injEq, Except.ok.injEq]
  | error error => simp

theorem succeeds_forScript_iff {name : String} {ops : List Operand} {s : Signature}
    (hname : Signature.byName? name = some s) :
    Succeeds (forScript name ops) ↔ s.check (Operand.dropOmitted s.required ops) = .ok () := by
  constructor
  · rintro ⟨a, h⟩
    obtain ⟨s', hname', hcheck, -⟩ := make_eq_ok_iff.mp (forScript_eq_ok_iff.mp h)
    rw [hname, Option.some.injEq] at hname'
    rw [hname']
    exact hcheck
  · intro hcheck
    exact ⟨_, forScript_eq_ok_iff.mpr (make_eq_ok_iff.mpr ⟨s, hname, hcheck, rfl⟩)⟩

theorem succeeds_startStream (id : Option UInt32) :
    Succeeds (forScript "uni_start_stream" (id.map Operand.int).toList) := by
  cases id with
  | none => exact ⟨_, rfl⟩
  | some v => exact ⟨_, rfl⟩

theorem succeeds_endStream : Succeeds (forScript "uni_end_stream" []) :=
  ⟨_, rfl⟩

theorem succeeds_endObject : Succeeds (forScript "man_end_object" []) :=
  ⟨_, rfl⟩

theorem succeeds_endContext : Succeeds (forScript "man_end_context" []) :=
  ⟨_, rfl⟩

theorem succeeds_contextOpener (target : ContextTarget) : Succeeds target.opener := by
  cases target with
  | global gid => exact ⟨_, rfl⟩
  | relative tag => exact ⟨_, rfl⟩

theorem succeeds_setCriterion (criterion : UInt8) :
    Succeeds (forScript "act_set_criterion" [.int criterion.toUInt32]) := by
  rw [succeeds_forScript_iff
    (s := .plain "act_set_criterion" .act 0 [.named .criterion]) rfl]
  show (FieldKind.check _ 1 (.named .criterion) (.int criterion.toUInt32) >>= fun _ => _) = _
  rw [FieldKind.check_named]
  rfl

/-- The opener of an object, or of its sibling, takes every title that is short enough. -/
theorem succeeds_objectOpener (sibling : Bool) (kind : UInt8) (title : String) :
    Succeeds (forScript (if sibling then "man_start_sibling" else "man_start_object")
      [.int kind.toUInt32, .str title]) ↔ title.utf8ByteSize ≤ maxTitle := by
  -- the two openers differ in their names and in what they do to scopes only
  have hopener {s : Signature} (hname : Signature.byName? s.name = some s)
      (hfields : s.fields = [.named .objectType, .text maxTitle]) (hrequired : s.required = 1) :
      Succeeds (forScript s.name [.int kind.toUInt32, .str title]) ↔
        title.utf8ByteSize ≤ maxTitle := by
    rw [succeeds_forScript_iff hname, hrequired, Signature.check, hfields, hrequired]
    -- an empty title is left out, and the title field is not looked at
    by_cases hempty : title = ""
    · have hdrop : Operand.dropOmitted 1 [.int kind.toUInt32, .str title] =
          [.int kind.toUInt32] := by
        rw [hempty]
        rfl
      rw [hdrop, Signature.checkFields, FieldKind.check_named, hempty]
      simp [ok_bind, Signature.checkFields]
    · have hdrop : Operand.dropOmitted 1 [.int kind.toUInt32, .str title] =
          [.int kind.toUInt32, .str title] := by
        simp [Operand.dropOmitted, Operand.isEmptyText, hempty]
      rw [hdrop, Signature.checkFields, FieldKind.check_named, ok_bind, Signature.checkFields,
        FieldKind.check]
      by_cases hle : title.utf8ByteSize ≤ maxTitle
      · simp [hle, ok_bind, Signature.checkFields]
      · simp [hle, error_bind]
  cases sibling with
  | true =>
    exact hopener (s := .define "man_start_sibling" .man 1
      [.named .objectType, Signature.title] 1 (.reopens .object)) rfl rfl rfl
  | false =>
    exact hopener (s := .define "man_start_object" .man 0
      [.named .objectType, Signature.title] 1 (.opens .object)) rfl rfl rfl

theorem succeeds_actionAtoms (criterion : UInt8) (body : List Atom) :
    Succeeds (actionAtoms criterion body) := by
  unfold actionAtoms
  split
  · exact ⟨_, rfl⟩
  · obtain ⟨a, ha⟩ := succeeds_setCriterion criterion
    rw [ha]
    exact ⟨_, rfl⟩

end Atom

-- ---------------------------------------------------------------------------
-- When flattening succeeds
-- ---------------------------------------------------------------------------

/-- Adding the closer of a block succeeds if its contents do. -/
theorem succeeds_closing {name : String} {contents : Except CompileError (List Atom)}
    (h : Succeeds (Atom.forScript name [])) :
    Succeeds (contents >>= fun out => Atom.forScript name [] >>= fun closer =>
      .ok (closer :: out)) ↔ Succeeds contents := by
  obtain ⟨closer, hcloser⟩ := h
  rw [succeeds_bind_iff (p := True), and_true]
  intro out _
  rw [hcloser, ok_bind]
  simp [succeeds_ok]

mutual

theorem Node.succeeds_flattenOnto :
    ∀ (node : Node) (out : List Atom) (continued : Bool),
      Succeeds (node.flattenOnto out continued) ↔ TitlesFit node.titles
  | .atom a, out, continued => by
    rw [Node.flattenOnto, Node.titles]
    exact ⟨fun _ => titlesFit_nil, fun _ => succeeds_ok _⟩
  | .stream id children, out, continued => by
    rw [Node.flattenOnto, Node.titles, succeeds_bind_iff (p := TitlesFit (Node.titlesEach children))]
    · exact and_iff_right (Atom.succeeds_startStream id)
    · intro opener _
      rw [← Node.succeeds_flattenAllOnto children (opener :: out)]
      exact succeeds_closing Atom.succeeds_endStream
  | .object kind title sibling children, out, continued => by
    rw [Node.flattenOnto, Node.titles, titlesFit_cons,
      succeeds_bind_iff (p := TitlesFit (Node.titlesEach children)), Atom.succeeds_objectOpener]
    intro opener _
    rw [← Node.succeeds_flattenAllOnto children (opener :: out)]
    -- a sibling that follows closes the object itself, so no closer is added
    cases continued with
    | true =>
      rw [succeeds_bind_iff (p := True), and_true]
      exact fun a _ => iff_true_intro (succeeds_ok a)
    | false => exact succeeds_closing Atom.succeeds_endObject
  | .context target children, out, continued => by
    rw [Node.flattenOnto, Node.titles, succeeds_bind_iff (p := TitlesFit (Node.titlesEach children))]
    · exact and_iff_right (Atom.succeeds_contextOpener target)
    · intro opener _
      rw [← Node.succeeds_flattenAllOnto children (opener :: out)]
      exact succeeds_closing Atom.succeeds_endContext
  | .action criterion body, out, continued => by
    -- the body has a stream of its own, and everything around it can be built
    obtain ⟨opener, hopener⟩ := Atom.succeeds_startStream none
    obtain ⟨closer, hcloser⟩ := Atom.succeeds_endStream
    rw [Option.map_none, Option.toList_none] at hopener
    rw [Node.flattenOnto, Node.titles, hopener, ok_bind, succeeds_bind_iff (p := True), and_true,
      Node.succeeds_flattenAllOnto]
    intro inner _
    obtain ⟨atoms, hatoms⟩ := Atom.succeeds_actionAtoms criterion (closer :: inner).reverse
    rw [hcloser, ok_bind, hatoms, ok_bind]
    exact iff_true_intro (succeeds_ok _)

theorem Node.succeeds_flattenAllOnto :
    ∀ (nodes : List Node) (out : List Atom),
      Succeeds (Node.flattenAllOnto out nodes) ↔ TitlesFit (Node.titlesEach nodes)
  | [], out => by
    rw [Node.flattenAllOnto, Node.titlesEach]
    exact ⟨fun _ => titlesFit_nil, fun _ => succeeds_ok _⟩
  | node :: rest, out => by
    rw [Node.flattenAllOnto, Node.titlesEach, titlesFit_append,
      succeeds_bind_iff (p := TitlesFit (Node.titlesEach rest)), Node.succeeds_flattenOnto]
    intro out _
    exact Node.succeeds_flattenAllOnto rest out

end

/-- Only a title can keep a script from being flattened. -/
theorem Script.succeeds_flatten_iff (script : Script) :
    Succeeds script.flatten ↔ ¬script.HasLongTitle := by
  rw [not_hasLongTitle_iff, flatten, succeeds_bind_iff (p := True), and_true,
    Node.succeeds_flattenAllOnto]
  exact fun atoms _ => iff_true_intro (succeeds_ok _)

-- ---------------------------------------------------------------------------
-- What flattening gives
-- ---------------------------------------------------------------------------

namespace Atom

/-- An atom that flattening builds joins those before it. -/
theorem areMade_cons_of_forScript {name : String} {ops : List Operand} {a : Atom}
    {out : List Atom} (h : forScript name ops = .ok a)
    (hops : ∀ inner, .stream inner ∈ ops → AreMade inner) (hout : AreMade out) :
    AreMade (a :: out) :=
  everywhere_append.mpr
    ⟨areMade_singleton_of_make (forScript_eq_ok_iff.mp h) hops, hout⟩

/-- An atom without streams joins those before it. -/
theorem areMade_cons_of_plain {name : String} {ops : List Operand} {a : Atom} {out : List Atom}
    (h : forScript name ops = .ok a) (hops : ∀ op ∈ ops, op.type ≠ .stream)
    (hout : AreMade out) : AreMade (a :: out) :=
  areMade_cons_of_forScript h (fun _ hmem => absurd rfl (hops _ hmem)) hout

theorem areMade_cons_of_opener {target : ContextTarget} {a : Atom} {out : List Atom}
    (h : target.opener = .ok a) (hout : AreMade out) : AreMade (a :: out) := by
  cases target with
  | global gid =>
    rw [ContextTarget.opener] at h
    exact areMade_cons_of_plain h (by simp [Operand.type]) hout
  | relative tag =>
    rw [ContextTarget.opener] at h
    exact areMade_cons_of_plain h (by simp [Operand.type]) hout

theorem areMade_cons_of_startStream (id : Option UInt32) {a : Atom} {out : List Atom}
    (h : forScript "uni_start_stream" (id.map Operand.int).toList = .ok a) (hout : AreMade out) :
    AreMade (a :: out) := by
  refine areMade_cons_of_plain h ?_ hout
  cases id <;> simp [Operand.type]

theorem areMade_actionAtoms {criterion : UInt8} {body atoms : List Atom}
    (h : actionAtoms criterion body = .ok atoms) (hbody : AreMade body) : AreMade atoms := by
  -- the action carries its body as a stream, and no other stream
  have hcarried : ∀ inner, Operand.stream inner ∈ [Operand.stream body] → AreMade inner := by
    intro inner hinner
    rw [List.mem_singleton, Operand.stream.injEq] at hinner
    rw [hinner]
    exact hbody
  unfold actionAtoms at h
  split at h
  · obtain ⟨a, ha, heq⟩ := bind_eq_ok_iff.mp h
    cases heq
    exact areMade_cons_of_forScript ha hcarried (everywhere_nil _)
  · obtain ⟨setter, hsetter, h⟩ := bind_eq_ok_iff.mp h
    obtain ⟨a, ha, heq⟩ := bind_eq_ok_iff.mp h
    cases heq
    exact areMade_cons_of_plain hsetter (by simp [Operand.type])
      (areMade_cons_of_forScript ha hcarried (everywhere_nil _))

end Atom

mutual

theorem Node.areMade_flattenOnto :
    ∀ (node : Node) {out result : List Atom} {continued : Bool},
      node.flattenOnto out continued = .ok result → Atom.AreMade node.atoms →
      Atom.AreMade out → Atom.AreMade result
  | .atom a, out, result, continued, h, hmade, hout => by
    unfold Node.flattenOnto at h
    cases h
    rw [Node.atoms] at hmade
    exact Atom.everywhere_append.mpr ⟨hmade, hout⟩
  | .stream id children, out, result, continued, h, hmade, hout => by
    rw [Node.atoms] at hmade
    rw [Node.flattenOnto] at h
    obtain ⟨opener, hopener, h⟩ := bind_eq_ok_iff.mp h
    obtain ⟨contents, hcontents, h⟩ := bind_eq_ok_iff.mp h
    obtain ⟨closer, hcloser, heq⟩ := bind_eq_ok_iff.mp h
    cases heq
    refine Atom.areMade_cons_of_plain hcloser (by simp) ?_
    exact Node.areMade_flattenAllOnto children hcontents hmade
      (Atom.areMade_cons_of_startStream id hopener hout)
  | .object kind title sibling children, out, result, continued, h, hmade, hout => by
    rw [Node.atoms] at hmade
    rw [Node.flattenOnto] at h
    obtain ⟨opener, hopener, h⟩ := bind_eq_ok_iff.mp h
    obtain ⟨contents, hcontents, h⟩ := bind_eq_ok_iff.mp h
    have hmadeContents : Atom.AreMade contents :=
      Node.areMade_flattenAllOnto children hcontents hmade
        (Atom.areMade_cons_of_plain hopener (by simp [Operand.type]) hout)
    -- with a sibling behind it, the object gets no closer of its own
    cases continued with
    | true =>
      cases h
      exact hmadeContents
    | false =>
      obtain ⟨closer, hcloser, heq⟩ := bind_eq_ok_iff.mp h
      cases heq
      exact Atom.areMade_cons_of_plain hcloser (by simp) hmadeContents
  | .context target children, out, result, continued, h, hmade, hout => by
    rw [Node.atoms] at hmade
    rw [Node.flattenOnto] at h
    obtain ⟨opener, hopener, h⟩ := bind_eq_ok_iff.mp h
    obtain ⟨contents, hcontents, h⟩ := bind_eq_ok_iff.mp h
    obtain ⟨closer, hcloser, heq⟩ := bind_eq_ok_iff.mp h
    cases heq
    refine Atom.areMade_cons_of_plain hcloser (by simp) ?_
    exact Node.areMade_flattenAllOnto children hcontents hmade
      (Atom.areMade_cons_of_opener hopener hout)
  | .action criterion body, out, result, continued, h, hmade, hout => by
    rw [Node.atoms] at hmade
    rw [Node.flattenOnto] at h
    obtain ⟨opener, hopener, h⟩ := bind_eq_ok_iff.mp h
    obtain ⟨inner, hinner, h⟩ := bind_eq_ok_iff.mp h
    obtain ⟨closer, hcloser, h⟩ := bind_eq_ok_iff.mp h
    obtain ⟨atoms, hatoms, heq⟩ := bind_eq_ok_iff.mp h
    cases heq
    -- the body becomes a stream of its own, with an opener and a closer around it
    have hmadeInner : Atom.AreMade inner :=
      Node.areMade_flattenAllOnto body hinner hmade
        (Atom.areMade_cons_of_startStream none hopener (Atom.everywhere_nil _))
    have hmadeBody : Atom.AreMade (closer :: inner).reverse :=
      Atom.everywhere_reverse.mpr (Atom.areMade_cons_of_plain hcloser (by simp) hmadeInner)
    exact Atom.everywhere_append.mpr
      ⟨Atom.everywhere_reverse.mpr (Atom.areMade_actionAtoms hatoms hmadeBody), hout⟩

theorem Node.areMade_flattenAllOnto :
    ∀ (nodes : List Node) {out result : List Atom},
      Node.flattenAllOnto out nodes = .ok result → Atom.AreMade (Node.atomsEach nodes) →
      Atom.AreMade out → Atom.AreMade result
  | [], out, result, h, _, hout => by
    unfold Node.flattenAllOnto at h
    cases h
    exact hout
  | node :: rest, out, result, h, hmade, hout => by
    rw [Node.atomsEach] at hmade
    obtain ⟨hnode, hrest⟩ := Atom.everywhere_append.mp hmade
    rw [Node.flattenAllOnto] at h
    obtain ⟨mid, hmid, h⟩ := bind_eq_ok_iff.mp h
    exact Node.areMade_flattenAllOnto rest h hrest
      (Node.areMade_flattenOnto node hmid hnode hout)

end

/-- Flattening a script of made atoms gives made atoms, whose depths have been counted. -/
theorem Script.areMade_of_flatten {script : Script} {atoms : List Atom}
    (h : script.flatten = .ok atoms) (hmade : script.IsMade) :
    Atom.AreMade atoms ∧ Atom.assignDepths 0 atoms = atoms := by
  obtain ⟨flat, hflat, heq⟩ := bind_eq_ok_iff.mp h
  cases heq
  have hmadeFlat : Atom.AreMade flat :=
    Node.areMade_flattenAllOnto script.nodes hflat hmade (Atom.everywhere_nil _)
  exact ⟨Atom.areMade_assignDepths (Atom.everywhere_reverse.mpr hmadeFlat),
    Atom.assignDepths_idem 0 flat.reverse⟩

end Switchboard
