import Switchboard.Proofs.Script.RoundTrip
import Switchboard.Proofs.Text.Decimal
import Switchboard.Transfer.Notice

/-!
# Scenes about transfers

These scenes are streams of plain atoms.  Such a script has no titles and no nested streams, so the
size of a frame alone decides whether it can be compiled.

Main results:

* `Script.succeeds_compile_ofAtoms`: compiling a stream of plain atoms.
* `Scene.succeeds_uploadStat` and `Scene.succeeds_uploadAuthorize`: what the client is told in the
  course of an upload can be said whenever frames have room for a header.
-/

namespace Switchboard

-- ---------------------------------------------------------------------------
-- Streams of plain atoms
-- ---------------------------------------------------------------------------

namespace Atom

/-- Whether an atom carries no stream. -/
def IsPlain (a : Atom) : Prop :=
  ∀ op ∈ a.operands, op.type ≠ .stream

theorem mem_of_within_of_plain {a : Atom} {atoms : List Atom} (h : a.Within atoms)
    (hplain : ∀ b ∈ atoms, b.IsPlain) : a ∈ atoms := by
  cases h with
  | here mem => exact mem
  | nested mem carried within => exact absurd rfl (hplain _ mem _ carried)

theorem withDepthsList_of_plain {base : UInt16} {ops : List Operand}
    (h : ∀ op ∈ ops, op.type ≠ .stream) : Operand.withDepthsList base ops = ops := by
  rw [Operand.withDepthsList_eq_map]
  refine (List.map_congr_left fun op hop => ?_).trans (List.map_id ops)
  cases op with
  | stream atoms => exact absurd rfl (h _ hop)
  | int | str | raw | gid => rfl

/-- Counting the depths of plain atoms changes nothing but their depths. -/
theorem exists_of_mem_assignFrom {base depth : UInt16} {atoms : List Atom} {b : Atom}
    (hplain : ∀ a ∈ atoms, a.IsPlain) (h : b ∈ assignFrom base depth [] atoms) :
    ∃ a ∈ atoms, b.signature = a.signature ∧ b.operands = a.operands := by
  induction atoms generalizing depth with
  | nil => cases h
  | cons a atoms ih =>
    obtain ⟨hfirst, hrest⟩ := List.forall_mem_cons.mp hplain
    rw [assignFrom_cons] at h
    rcases List.mem_cons.mp h with rfl | hmem
    · obtain ⟨s, ops, old⟩ := a
      refine ⟨_, List.mem_cons_self .., rfl, ?_⟩
      rw [atDepth]
      exact withDepthsList_of_plain hfirst
    · obtain ⟨c, hc, hequal⟩ := ih hrest hmem
      exact ⟨c, List.mem_cons_of_mem _ hc, hequal⟩

/-- An atom that the look-up built, without streams and with data that it can count. -/
structure IsSimple (a : Atom) : Prop where
  made : a.IsMade
  plain : a.IsPlain
  fits : a.FitsLength

theorem dataLength_congr {a b : Atom} (hsignature : b.signature = a.signature)
    (hoperands : b.operands = a.operands) : b.dataLength = a.dataLength := by
  obtain ⟨s, ops, depth⟩ := a
  obtain ⟨s', ops', depth'⟩ := b
  cases hsignature
  cases hoperands
  rw [dataLength, dataLength]

/-- What stands in a stream of simple atoms, once their depths are counted. -/
theorem fits_of_within_assignDepths {base : UInt16} {a : Atom} {atoms : List Atom}
    (hsimple : ∀ b ∈ atoms, b.IsSimple) (h : a.Within (assignDepths base atoms)) :
    a.FitsLength := by
  have hplain : ∀ b ∈ atoms, b.IsPlain := fun b hb => (hsimple b hb).plain
  -- counting depths adds no streams, so every atom stands at the top
  have hcounted : ∀ b ∈ assignDepths base atoms, b.IsPlain := by
    intro b hb
    obtain ⟨c, hc, -, hoperands⟩ := exists_of_mem_assignFrom hplain hb
    rw [IsPlain, hoperands]
    exact hplain c hc
  obtain ⟨c, hc, hsignature, hoperands⟩ :=
    exists_of_mem_assignFrom hplain (mem_of_within_of_plain h hcounted)
  rw [FitsLength, dataLength_congr hsignature hoperands]
  exact (hsimple c hc).fits

end Atom

namespace Script

/-- A script that is one stream of plain atoms. -/
def ofAtoms (atoms : List Atom) : Script :=
  ⟨[.stream none (atoms.map .atom)]⟩

theorem atomsEach_map (atoms : List Atom) : Node.atomsEach (atoms.map .atom) = atoms := by
  induction atoms with
  | nil => rfl
  | cons a atoms ih =>
    rw [List.map_cons, Node.atomsEach, ih, Node.atoms, List.singleton_append]

theorem titlesEach_map (atoms : List Atom) : Node.titlesEach (atoms.map .atom) = [] := by
  induction atoms with
  | nil => rfl
  | cons a atoms ih =>
    rw [List.map_cons, Node.titlesEach, ih, Node.titles, List.append_nil]

theorem flattenAllOnto_map (out atoms : List Atom) :
    Node.flattenAllOnto out (atoms.map .atom) = .ok (atoms.reverse ++ out) := by
  induction atoms generalizing out with
  | nil => rfl
  | cons a atoms ih =>
    rw [List.map_cons, Node.flattenAllOnto, Node.flattenOnto, ok_bind, ih, List.reverse_cons,
      List.append_assoc]
    rfl

/-- The opener of a stream without an id. -/
def opener : Atom :=
  .mk (.define "uni_start_stream" .uni 1 [.num] 0 (.opens .stream)) [] 0

/-- The closer of a stream. -/
def closer : Atom :=
  .mk (.define "uni_end_stream" .uni 2 [] 0 (.closes .stream)) [] 0

/-- The atoms of such a script, between the opener and the closer of the stream. -/
theorem flatten_ofAtoms (atoms : List Atom) :
    (ofAtoms atoms).flatten = .ok (Atom.assignDepths 0 (opener :: (atoms ++ [closer]))) := by
  have hopener : Atom.forScript "uni_start_stream" [] = .ok opener := rfl
  have hcloser : Atom.forScript "uni_end_stream" [] = .ok closer := rfl
  have hreverse : (closer :: (atoms.reverse ++ [opener])).reverse =
      opener :: (atoms ++ [closer]) := by simp
  rw [flatten, ofAtoms, Node.flattenAllOnto, Node.flattenOnto, Option.map_none, Option.toList_none,
    hopener, ok_bind, flattenAllOnto_map, ok_bind, hcloser, ← hreverse]
  rfl

/-- A stream of plain atoms can be compiled if frames have room for a header. -/
theorem succeeds_compile_ofAtoms {atoms : List Atom} (h : ∀ a ∈ atoms, a.IsSimple) {limit : Nat}
    (hlimit : FitsFrames limit) (streamId : UInt16) (label : String) :
    Succeeds ((ofAtoms atoms).compile limit streamId label) := by
  have hopener : opener.IsSimple :=
    ⟨⟨"uni_start_stream", [], rfl⟩, (fun _ hop => nomatch hop), Nat.zero_le _⟩
  have hcloser : closer.IsSimple :=
    ⟨⟨"uni_end_stream", [], rfl⟩, (fun _ hop => nomatch hop), Nat.zero_le _⟩
  -- the atoms of the script are those given, whatever the level
  have hmade : (ofAtoms atoms).IsMade := by
    rw [IsMade, ofAtoms, Node.atomsEach, Node.atomsEach, Node.atoms, atomsEach_map,
      List.append_nil]
    intro a hwithin
    exact (h a (Atom.mem_of_within_of_plain hwithin fun b hb => (h b hb).plain)).made
  rw [succeeds_compile_iff hmade]
  refine ⟨hlimit, ?_, ?_⟩
  · rw [not_hasLongTitle_iff, ofAtoms, Node.titlesEach, Node.titles, titlesEach_map]
    exact titlesFit_nil
  · rintro ⟨flat, a, hflat, hwithin, hlong⟩
    rw [flatten_ofAtoms] at hflat
    cases hflat
    -- flattening adds an opener and a closer, which have no data
    have hsimple : ∀ b ∈ opener :: (atoms ++ [closer]), b.IsSimple := by
      intro b hb
      rcases List.mem_cons.mp hb with rfl | hb
      · exact hopener
      · rcases List.mem_append.mp hb with hb | hb
        · exact h b hb
        · rw [List.mem_singleton.mp hb]
          exact hcloser
    have hfits : a.FitsLength := Atom.fits_of_within_assignDepths hsimple hwithin
    exact absurd hfits (Nat.not_le_of_lt hlong)

/-- A script can be compiled only if frames have room for a header. -/
theorem fitsFrames_of_compile {script : Script} {limit : Nat} {streamId : UInt16} {label : String}
    {chunks : List Chunk} (h : script.compile limit streamId label = .ok chunks) :
    FitsFrames limit := by
  obtain ⟨_, _, -, -, hchunks⟩ := compile_eq_ok_iff.mp h
  exact Chunk.succeeds_ofStream_iff.mp ⟨chunks, hchunks⟩

end Script

-- ---------------------------------------------------------------------------
-- Scenes in the course of an upload
-- ---------------------------------------------------------------------------

/-- The id of a transfer as a parameter is read as the id. -/
theorem SceneContext.number_of_lookup {ctx : SceneContext} {key : String} {v : UInt32}
    (h : ctx.params.lookup key = some (Text.number v.toNat)) : ctx.number key = .ok v := by
  rw [number, param, h, ok_bind, Text.unsignedBelow?_number v.toNat_lt]
  show Except.ok (UInt32.ofNat v.toNat) = _
  rw [UInt32.ofNat_toNat]

namespace Scene

/-- The atom that says which transfer a scene is about. -/
def setId (id : UInt32) : Atom :=
  .mk (.plain "xfer_set_id" .xfer 0 [.dword]) [.int id] 0

theorem isSimple_setId (id : UInt32) : (setId id).IsSimple := by
  refine ⟨⟨"xfer_set_id", [.int id], rfl⟩, ?_, ?_⟩
  · intro op hop
    rw [List.mem_singleton.mp hop]
    simp [Operand.type]
  · show 4 + 0 ≤ Atom.maxData
    decide

variable {ctx : SceneContext} {id : UInt32} {limit : Nat}

/-- The client can be asked for the size of a file. -/
theorem succeeds_uploadStat (hid : ctx.number "xfer_id" = .ok id)
    (hlimit : Script.FitsFrames limit) :
    ∃ script, uploadStat.script ctx = .ok script ∧
      ∀ streamId label, Succeeds (script.compile limit streamId label) := by
  refine ⟨.ofAtoms [setId id, .mk (.plain "xfer_request_stats" .xfer 5 []) [] 0], ?_, ?_⟩
  · rw [script, uploadStat]
    dsimp only
    rw [hid]
    rfl
  · have hrequest : Atom.IsSimple (.mk (.plain "xfer_request_stats" .xfer 5 []) [] 0) :=
      ⟨⟨"xfer_request_stats", [], rfl⟩, (fun _ hop => nomatch hop), Nat.zero_le _⟩
    refine fun streamId label => Script.succeeds_compile_ofAtoms ?_ hlimit streamId label
    exact List.forall_mem_cons.mpr
      ⟨isSimple_setId id, List.forall_mem_singleton.mpr hrequest⟩

/-- The client can be told to send a file. -/
theorem succeeds_uploadAuthorize (hid : ctx.number "xfer_id" = .ok id)
    (hlimit : Script.FitsFrames limit) :
    ∃ script, uploadAuthorize.script ctx = .ok script ∧
      ∀ streamId label, Succeeds (script.compile limit streamId label) := by
  refine ⟨.ofAtoms [setId id,
    .mk (.plain "xfer_set_status_text" .xfer 8 [Signature.title]) [.str "Sending..."] 0,
    .mk (.plain "xfer_authorize_upload" .xfer 6 []) [] 0], ?_, ?_⟩
  · rw [script, uploadAuthorize]
    dsimp only
    rw [hid]
    rfl
  · have hstatus : Atom.IsSimple (.mk (.plain "xfer_set_status_text" .xfer 8 [Signature.title])
        [.str "Sending..."] 0) := by
      refine ⟨⟨"xfer_set_status_text", [.str "Sending..."], rfl⟩, ?_, ?_⟩
      · intro op hop
        rw [List.mem_singleton.mp hop]
        simp [Operand.type]
      · show "Sending...".utf8ByteSize + 0 ≤ Atom.maxData
        decide
    have hauthorize : Atom.IsSimple (.mk (.plain "xfer_authorize_upload" .xfer 6 []) [] 0) :=
      ⟨⟨"xfer_authorize_upload", [], rfl⟩, (fun _ hop => nomatch hop), Nat.zero_le _⟩
    refine fun streamId label => Script.succeeds_compile_ofAtoms ?_ hlimit streamId label
    exact List.forall_mem_cons.mpr ⟨isSimple_setId id,
      List.forall_mem_cons.mpr ⟨hstatus, List.forall_mem_singleton.mpr hauthorize⟩⟩

end Scene

end Switchboard
