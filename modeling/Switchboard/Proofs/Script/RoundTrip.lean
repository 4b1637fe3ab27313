import Switchboard.Proofs.Chunk
import Switchboard.Proofs.Script.Parsed

/-!
# Compiling and reading back

What a client makes of the chunks of a script: their bodies, put together again, are read as exactly
the atoms that flattening the script gives.

Main results:

* `Script.succeeds_compile_iff`: when compiling succeeds.
* `Script.compile_round_trip`: the round trip, with every reason that can keep a script from being
  compiled.
-/

namespace Switchboard.Script

/-- Compiling takes a script apart, writes its atoms and cuts the bytes. -/
theorem compile_eq_ok_iff {script : Script} {limit : Nat} {streamId : UInt16} {label : String}
    {chunks : List Chunk} :
    script.compile limit streamId label = .ok chunks ↔
      ∃ atoms encoded, script.flatten = .ok atoms ∧ Atom.encodeStream atoms = .ok encoded ∧
        Chunk.ofStream .stream streamId encoded limit label = .ok chunks := by
  rw [compile, bind_eq_ok_iff]
  constructor
  · rintro ⟨encoded, hencode, hchunks⟩
    obtain ⟨atoms, hflatten, hencode⟩ := bind_eq_ok_iff.mp hencode
    split at hencode
    · next encoded' hencoded =>
      cases hencode
      exact ⟨atoms, encoded, hflatten, hencoded, hchunks⟩
    · cases hencode
  · rintro ⟨atoms, encoded, hflatten, hencoded, hchunks⟩
    refine ⟨encoded, bind_eq_ok_iff.mpr ⟨atoms, hflatten, ?_⟩, hchunks⟩
    rw [hencoded]
    rfl

/-- The chunks of a script travel as a stream of atoms. -/
theorem token_of_compile {script : Script} {limit : Nat} {streamId : UInt16} {label : String}
    {chunks : List Chunk} (h : script.compile limit streamId label = .ok chunks) :
    ∀ chunk ∈ chunks, chunk.token = .stream := by
  obtain ⟨_, _, -, -, hchunks⟩ := compile_eq_ok_iff.mp h
  exact fun chunk hmem => (Chunk.head_of_ofStream hchunks chunk hmem).1

/-- The chunks of a script travel on the stream id that it is compiled for. -/
theorem streamId_of_compile {script : Script} {limit : Nat} {streamId : UInt16} {label : String}
    {chunks : List Chunk} (h : script.compile limit streamId label = .ok chunks) :
    ∀ chunk ∈ chunks, chunk.streamId = streamId := by
  obtain ⟨_, _, -, -, hchunks⟩ := compile_eq_ok_iff.mp h
  exact fun chunk hmem => (Chunk.head_of_ofStream hchunks chunk hmem).2

/-- Whether an atom of the flattened script, at some level, has more data than it can count. -/
def HasLongAtom (script : Script) : Prop :=
  ∃ (atoms : List Atom) (a : Atom), script.flatten = .ok atoms ∧ a.Within atoms ∧
    Atom.maxData < a.dataLength

/-- Whether frames of the given payload size have room for the header of an atom. -/
def FitsFrames (limit : Nat) : Prop :=
  Chunk.headLength + Chunk.maxHeader ≤ limit

/-- Compiling a script of made atoms succeeds if frames are large enough, titles are short enough,
and atoms do not have too much data. -/
theorem succeeds_compile_iff {script : Script} (hmade : script.IsMade) (limit : Nat)
    (streamId : UInt16) (label : String) :
    Succeeds (script.compile limit streamId label) ↔
      FitsFrames limit ∧ ¬script.HasLongTitle ∧ ¬script.HasLongAtom := by
  constructor
  · rintro ⟨chunks, h⟩
    obtain ⟨atoms, encoded, hflatten, hencoded, hchunks⟩ := compile_eq_ok_iff.mp h
    refine ⟨Chunk.succeeds_ofStream_iff.mp ⟨chunks, hchunks⟩,
      (succeeds_flatten_iff script).mp ⟨atoms, hflatten⟩, ?_⟩
    -- flattening gives one list of atoms only, and all of them could be written
    rintro ⟨atoms', a, hflatten', hwithin, hlong⟩
    rw [hflatten] at hflatten'
    cases hflatten'
    obtain ⟨hmadeAtoms, -⟩ := areMade_of_flatten hflatten hmade
    have hfits : a.dataLength ≤ Atom.maxData :=
      (Atom.succeeds_encodeStream_iff hmadeAtoms).mp ⟨encoded, hencoded⟩ a hwithin
    omega
  · rintro ⟨hlimit, htitles, hatoms⟩
    obtain ⟨atoms, hflatten⟩ := (succeeds_flatten_iff script).mpr htitles
    obtain ⟨hmadeAtoms, -⟩ := areMade_of_flatten hflatten hmade
    -- no atom of the flattened script has too much data, so that all of them fit
    have hfits : Atom.Everywhere Atom.FitsLength atoms := by
      intro a hwithin
      by_contra hlong
      exact hatoms ⟨atoms, a, hflatten, hwithin, Nat.lt_of_not_le hlong⟩
    obtain ⟨encoded, hencoded⟩ := (Atom.succeeds_encodeStream_iff hmadeAtoms).mpr hfits
    obtain ⟨chunks, hchunks⟩ :
        Succeeds (Chunk.ofStream .stream streamId encoded limit label) :=
      Chunk.succeeds_ofStream_iff.mpr hlimit
    exact ⟨chunks, compile_eq_ok_iff.mpr ⟨atoms, encoded, hflatten, hencoded, hchunks⟩⟩

/-- The chunks of a script whose atoms the look-up built, as it did for every script read from source
text, are read back as the atoms of the flattened script, which are written as the same bytes again.
Such a script is compiled unless frames are too small, a title is too long, or an atom has too much
data. -/
theorem compile_round_trip {script : Script}
    (hscript : script.IsMade ∨ ∃ source, parse source = .ok script) (limit : Nat)
    (streamId : UInt16) (label : String) :
    (∀ chunks, script.compile limit streamId label = .ok chunks →
      ∃ atoms encoded, script.flatten = .ok atoms ∧
        Atom.decodeStream (Chunk.reassemble chunks) = .ok atoms ∧
        Atom.encodeStream atoms = .ok encoded ∧ encoded.bytes = Chunk.reassemble chunks) ∧
    ((∃ error, script.compile limit streamId label = .error error) ↔
      limit < 8 ∨
      (∃ title ∈ Node.titlesEach script.nodes, 255 < title.utf8ByteSize) ∨
      ∃ (atoms : List Atom) (a : Atom), script.flatten = .ok atoms ∧ a.Within atoms ∧
        0x7FFF < a.dataLength) := by
  have hmade : script.IsMade := by
    rcases hscript with hmade | ⟨source, hparse⟩
    · exact hmade
    · exact isMade_of_parse hparse
  constructor
  · intro chunks hcompile
    obtain ⟨atoms, encoded, hflatten, hencoded, hchunks⟩ := compile_eq_ok_iff.mp hcompile
    obtain ⟨hmadeAtoms, hdepths⟩ := areMade_of_flatten hflatten hmade
    have hbytes := Chunk.reassemble_of_ofStream hchunks
    refine ⟨atoms, encoded, hflatten, ?_, hencoded, hbytes.symm⟩
    -- reading counts the depths anew, and flattening has already counted them
    rw [hbytes, Atom.decodeStream_encodeStream hmadeAtoms hencoded, hdepths]
  -- what keeps a script from being compiled is the negation of what is needed for it
  · have hlimit : limit < 8 ↔ ¬FitsFrames limit := Nat.not_le.symm
    rw [← not_succeeds_iff, succeeds_compile_iff hmade, hlimit, not_and_or, not_and_or, not_not,
      not_not]
    rfl

/-- A greeting: a stream with an object, some text in it, and an action on the object. -/
def greeting : Script :=
  ⟨[.stream (some 300) [.object 0 "Hello" false
    [.atom (.mk (.plain "man_append_data" .man 8 [Signature.text]) [.str "Welcome"] 0),
      .action 2 [.atom (.mk (.plain "man_update_display" .man 7 []) [] 0)]]]]⟩

theorem isMade_greeting : greeting.IsMade := by
  refine Atom.everywhere_cons.mpr ⟨⟨"man_append_data", [.str "Welcome"], rfl⟩, ?_, ?_⟩
  · intro inner hinner
    simp [Atom.operands] at hinner
  · refine Atom.everywhere_cons.mpr ⟨⟨"man_update_display", [], rfl⟩, ?_, Atom.everywhere_nil _⟩
    intro inner hinner
    cases hinner

/-- The greeting is compiled, and read back. -/
theorem compile_round_trip_greeting :
    greeting.IsMade ∧ ∃ chunks atoms, greeting.compile 64 7 "greeting" = .ok chunks ∧
      greeting.flatten = .ok atoms ∧ Atom.decodeStream (Chunk.reassemble chunks) = .ok atoms := by
  refine ⟨isMade_greeting, ?_⟩
  obtain ⟨chunks, hchunks⟩ : Succeeds (greeting.compile 64 7 "greeting") := ⟨_, rfl⟩
  obtain ⟨atoms, encoded, hflatten, hread, -, -⟩ :=
    (compile_round_trip (.inl isMade_greeting) 64 7 "greeting").1 chunks hchunks
  exact ⟨chunks, atoms, hchunks, hflatten, hread⟩

end Switchboard.Script
