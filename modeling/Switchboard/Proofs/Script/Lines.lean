import Switchboard.Proofs.Atom.Levels
import Switchboard.Proofs.Scene
import Switchboard.Proofs.Script.Draft

/-!
# Streams written line by line

A scene about a transfer is one stream of plain atoms, each added by a call of its own.  The script is
built if each of the atoms can be, and what a client reads from its chunks is what was called for,
between the opener and the closer of the stream.

Main results:

* `Builder.build_of_makes` and `Builder.makes_of_build`: when such a script is built, and how it looks.
* `Script.lines_of_compile`: what is read from its chunks.
-/

namespace Switchboard

/-- An atom as it is called for: by its name and with its operands. -/
structure Line where
  name : String
  operands : List Operand

/-- The line that an atom stands for. -/
def Atom.toLine (a : Atom) : Line :=
  ⟨a.name, a.operands⟩

namespace Line

/-- The look-up builds the atom for the line. -/
def Makes (l : Line) (a : Atom) : Prop :=
  Atom.make l.name l.operands = .ok a

/-- The line as the look-up keeps it: without the empty texts at its end that may be omitted. -/
def kept (l : Line) : Line :=
  match Signature.byName? l.name with
  | some s => ⟨l.name, Operand.dropOmitted s.required l.operands⟩
  | none => l

/-- Whether no operand of the line is a stream. -/
def IsPlain (l : Line) : Prop :=
  ∀ op ∈ l.operands, op.type ≠ .stream

/-- What begins and what ends a stream. -/
def opening : Line := ⟨"uni_start_stream", []⟩

@[inherit_doc opening]
def closing : Line := ⟨"uni_end_stream", []⟩

variable {l : Line} {a : Atom}

theorem Makes.isMade (h : l.Makes a) : a.IsMade := by
  refine ⟨l.name, l.operands, ?_⟩
  obtain ⟨s, -, -, rfl⟩ := Atom.make_eq_ok_iff.mp h
  exact h

/-- The atom for a line stands for the line. -/
theorem Makes.toLine_eq (h : l.Makes a) : a.toLine = l.kept := by
  obtain ⟨s, hname, -, rfl⟩ := Atom.make_eq_ok_iff.mp h
  rw [kept, hname]
  show Line.mk s.name _ = _
  rw [Signature.name_of_byName? hname]
  rfl

theorem Makes.isPlain (h : l.Makes a) (hplain : l.IsPlain) : a.IsPlain := by
  obtain ⟨s, -, -, rfl⟩ := Atom.make_eq_ok_iff.mp h
  exact fun op hop => hplain op (Operand.mem_of_mem_dropOmitted hop)

end Line

-- ---------------------------------------------------------------------------
-- Building
-- ---------------------------------------------------------------------------

namespace Builder

/-- A builder in a stream that holds the given nodes, latest first. -/
def within (latest : List Node) : Builder :=
  ⟨[], [⟨.stream none, latest⟩], none⟩

/-- Adds an atom. -/
def line (b : Builder) (l : Line) : Builder :=
  b.atom l.name l.operands

variable {b : Builder} {latest : List Node} {l : Line} {a : Atom} {lines : List Line}
  {atoms : List Atom} {script : Script}

theorem line_of_failed (h : b.failed = true) (l : Line) : b.line l = b := by
  rw [line, atom, inside, if_pos h]

theorem foldl_line_of_failed (h : b.failed = true) (lines : List Line) :
    lines.foldl line b = b := by
  induction lines with
  | nil => rfl
  | cons l rest ih => rw [List.foldl_cons, line_of_failed h, ih]

theorem build_endStream_within (latest : List Node) :
    (within latest).endStream.build = .ok ⟨[.stream none latest.reverse]⟩ := rfl

theorem build_endStream_of_failed (h : b.failed = true) : ¬Succeeds b.endStream.build := by
  obtain ⟨error, herror⟩ := Option.isSome_iff_exists.mp h
  rw [endStream, close, if_pos h, build, herror]
  exact not_succeeds_error error

theorem line_of_make_eq_ok (h : l.Makes a) (latest : List Node) :
    (within latest).line l = (within latest).pushPlain a := by
  rw [line, atom, inside, h]
  rfl

theorem line_of_make_eq_error {error : AtomError} (h : Atom.make l.name l.operands = .error error)
    (latest : List Node) :
    (within latest).line l = (within latest).fail (.ofAtomError error) := by
  rw [line, atom, inside, h]
  rfl

/-- An atom without streams that can be built and does not change scopes is added. -/
theorem line_of_makes (h : l.Makes a) (heffect : a.effect = .none) (hplain : a.IsPlain) :
    (within latest).line l = within (.atom a :: latest) := by
  rw [line_of_make_eq_ok h, pushPlain, if_pos heffect, Operand.checkBalanceList_of_plain hplain]
  rfl

/-- A call for an atom fails, or adds the atom that the look-up builds. -/
theorem line_within_cases (latest : List Node) (l : Line) :
    ((within latest).line l).failed = true ∨
      ∃ a, l.Makes a ∧ (within latest).line l = within (.atom a :: latest) := by
  cases hmake : Atom.make l.name l.operands with
  | error error =>
    refine .inl ?_
    rw [line_of_make_eq_error hmake]
    exact failed_fail _ _
  | ok a =>
    rw [line_of_make_eq_ok hmake, pushPlain]
    split
    · split
      · exact .inr ⟨a, hmake, rfl⟩
      · exact .inl (failed_fail _ _)
    · exact .inl (failed_fail _ _)

/-- A stream whose atoms can be built is built. -/
theorem build_of_makes (h : List.Forall₂ Line.Makes lines atoms)
    (hplain : ∀ a ∈ atoms, a.effect = .none ∧ a.IsPlain) (latest : List Node) :
    (lines.foldl line (within latest)).endStream.build =
      .ok ⟨[.stream none (latest.reverse ++ atoms.map .atom)]⟩ := by
  induction h generalizing latest with
  | nil => rw [List.foldl_nil, build_endStream_within, List.map_nil, List.append_nil]
  | @cons l a lines atoms hmakes hrest ih =>
    obtain ⟨⟨heffect, hfirst⟩, hplain⟩ := List.forall_mem_cons.mp hplain
    rw [List.foldl_cons, line_of_makes hmakes heffect hfirst, ih hplain, List.reverse_cons,
      List.append_assoc]
    rfl

/-- The first atom that cannot be built is the fault of the whole stream. -/
theorem build_of_makes_of_error {error : AtomError} {after : List Line}
    (h : List.Forall₂ Line.Makes lines atoms)
    (hplain : ∀ a ∈ atoms, a.effect = .none ∧ a.IsPlain)
    (herror : Atom.make l.name l.operands = .error error) (latest : List Node) :
    ((lines ++ l :: after).foldl line (within latest)).endStream.build =
      .error (.ofAtomError error) := by
  induction h generalizing latest with
  | nil =>
    have hfault : ((within latest).line l).fault = some (.ofAtomError error) := by
      rw [line_of_make_eq_error herror]
      rfl
    have hfailed : ((within latest).line l).failed = true := by rw [failed, hfault]; rfl
    rw [List.nil_append, List.foldl_cons, foldl_line_of_failed hfailed, endStream, close,
      if_pos hfailed, build, hfault]
  | @cons m a lines atoms hmakes hrest ih =>
    obtain ⟨⟨heffect, hfirst⟩, hplain⟩ := List.forall_mem_cons.mp hplain
    rw [List.cons_append, List.foldl_cons, line_of_makes hmakes heffect hfirst]
    exact ih hplain _

/-- A stream that is built consists of the atoms that were called for. -/
theorem makes_of_build
    (h : (lines.foldl line (within latest)).endStream.build = .ok script) :
    ∃ atoms, List.Forall₂ Line.Makes lines atoms ∧
      script = ⟨[.stream none (latest.reverse ++ atoms.map .atom)]⟩ := by
  induction lines generalizing latest with
  | nil =>
    rw [List.foldl_nil, build_endStream_within] at h
    cases h
    exact ⟨[], .nil, by rw [List.map_nil, List.append_nil]⟩
  | cons l rest ih =>
    rw [List.foldl_cons] at h
    rcases line_within_cases latest l with hfailed | ⟨a, hmakes, hline⟩
    · -- the first fault stays
      rw [foldl_line_of_failed hfailed] at h
      exact absurd ⟨script, h⟩ (build_endStream_of_failed hfailed)
    · rw [hline] at h
      obtain ⟨atoms, hrest, rfl⟩ := ih h
      refine ⟨a :: atoms, .cons hmakes hrest, ?_⟩
      rw [List.reverse_cons, List.append_assoc]
      rfl

end Builder

-- ---------------------------------------------------------------------------
-- Reading back
-- ---------------------------------------------------------------------------

namespace Atom

/-- Counting the depths of plain atoms leaves their lines. -/
theorem lines_assignFrom {base depth : UInt16} {atoms : List Atom}
    (hplain : ∀ a ∈ atoms, a.IsPlain) :
    (assignFrom base depth [] atoms).map toLine = atoms.map toLine := by
  induction atoms generalizing depth with
  | nil => rfl
  | cons a atoms ih =>
    obtain ⟨hfirst, hrest⟩ := List.forall_mem_cons.mp hplain
    obtain ⟨s, ops, old⟩ := a
    have hops : ∀ op ∈ ops, op.type ≠ .stream := hfirst
    rw [assignFrom_cons, List.map_cons, List.map_cons, ih hrest, atDepth,
      withDepthsList_of_plain hops]
    rfl

end Atom

namespace Script

variable {lines : List Line} {atoms : List Atom}

theorem atoms_of_makes (hmakes : List.Forall₂ Line.Makes lines atoms)
    (hplain : ∀ l ∈ lines, l.IsPlain) :
    (∀ a ∈ atoms, a.IsMade ∧ a.IsPlain) ∧ atoms.map Atom.toLine = lines.map Line.kept := by
  induction hmakes with
  | nil => exact ⟨List.forall_mem_nil _, rfl⟩
  | cons hfirst _ ih =>
    obtain ⟨hplainFirst, hplainRest⟩ := List.forall_mem_cons.mp hplain
    obtain ⟨hatoms, hlines⟩ := ih hplainRest
    refine ⟨List.forall_mem_cons.mpr ⟨⟨hfirst.isMade, hfirst.isPlain hplainFirst⟩, hatoms⟩, ?_⟩
    rw [List.map_cons, List.map_cons, hfirst.toLine_eq, hlines]

theorem isMade_ofAtoms (h : ∀ a ∈ atoms, a.IsMade ∧ a.IsPlain) : (ofAtoms atoms).IsMade := by
  rw [IsMade, ofAtoms, Node.atomsEach, Node.atomsEach, Node.atoms, atomsEach_map, List.append_nil]
  intro a hwithin
  exact (h a (Atom.mem_of_within_of_plain hwithin fun b hb => (h b hb).2)).1

/-- What is read from the chunks of such a script is what was called for, in one stream. -/
theorem lines_of_compile (hmakes : List.Forall₂ Line.Makes lines atoms)
    (hplain : ∀ l ∈ lines, l.IsPlain) {limit : Nat} {streamId : UInt16} {label : String}
    {chunks : List Chunk} (h : (ofAtoms atoms).compile limit streamId label = .ok chunks) :
    ∃ read, Atom.decodeStream (Chunk.reassemble chunks) = .ok read ∧
      read.map Atom.toLine = Line.opening :: (lines.map Line.kept ++ [Line.closing]) := by
  obtain ⟨hatoms, hlines⟩ := atoms_of_makes hmakes hplain
  obtain ⟨flat, encoded, hflatten, hencoded, hchunks⟩ := compile_eq_ok_iff.mp h
  obtain ⟨hmade, hdepths⟩ := areMade_of_flatten hflatten (isMade_ofAtoms hatoms)
  refine ⟨flat, ?_, ?_⟩
  -- reading counts the depths anew, and flattening has already counted them
  · rw [Chunk.reassemble_of_ofStream hchunks, Atom.decodeStream_encodeStream hmade hencoded, hdepths]
  · rw [flatten_ofAtoms] at hflatten
    cases hflatten
    have hstream : ∀ a ∈ opener :: (atoms ++ [closer]), a.IsPlain := by
      intro a ha
      rcases List.mem_cons.mp ha with rfl | ha
      · exact fun _ hop => nomatch hop
      · rcases List.mem_append.mp ha with ha | ha
        · exact (hatoms a ha).2
        · rw [List.mem_singleton.mp ha]
          exact fun _ hop => nomatch hop
    rw [Atom.assignDepths, Atom.lines_assignFrom hstream, List.map_cons, List.map_append, hlines]
    rfl

end Script

end Switchboard
