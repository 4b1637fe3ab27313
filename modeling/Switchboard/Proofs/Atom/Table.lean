import Switchboard.Atom.Table

/-!
# What the instruction set keeps to

Every tag stands for one signature, and the fields of a signature are laid out so that data can be
read without separators: only the last field may take whatever data is left, and a field that may be
omitted holds no stream.
-/

namespace Switchboard.Signature

/-- What makes the data of an atom readable: how its fields follow each other. -/
structure IsRegular (s : Signature) : Prop where
  fixed : ∀ kind ∈ s.fields.dropLast, kind.isVariable = false
  required_le : s.required ≤ s.fields.length
  optional : ∀ kind ∈ s.fields.drop s.required, kind ≠ .stream

theorem isRegular_of_mem {s : Signature} (hs : s ∈ all) : s.IsRegular := by
  -- a finite table: the kernel checks each of its rows
  have hall : ∀ s ∈ all, (∀ kind ∈ s.fields.dropLast, kind.isVariable = false) ∧
      s.required ≤ s.fields.length ∧ ∀ kind ∈ s.fields.drop s.required, kind ≠ .stream := by
    decide +kernel
  obtain ⟨hfixed, hrequired, hoptional⟩ := hall s hs
  exact ⟨hfixed, hrequired, hoptional⟩

/-- A number, and a stream, is the only operand of its atom. -/
theorem fields_eq_singleton {s : Signature} (hs : s ∈ all) {kind : FieldKind}
    (hkind : kind = .num ∨ kind = .stream) (hmem : kind ∈ s.fields) : s.fields = [kind] := by
  have hall : ∀ s ∈ all, (.num ∈ s.fields → s.fields = [.num]) ∧
      (.stream ∈ s.fields → s.fields = [.stream]) := by
    decide +kernel
  rcases hkind with rfl | rfl
  · exact (hall s hs).1 hmem
  · exact (hall s hs).2 hmem

theorem nodup_tags : (all.map (·.tag)).Nodup := by
  decide +kernel

theorem nodup_names : (all.map (·.name)).Nodup := by
  decide +kernel

/-- In a list where no key stands for two signatures, each is found under its own. -/
theorem find?_key {κ : Type} [BEq κ] [LawfulBEq κ] {key : Signature → κ} {list : List Signature}
    (hnodup : (list.map key).Nodup) {s : Signature} (hs : s ∈ list) :
    list.find? (key · == key s) = some s := by
  -- by induction: a signature before `s` has another key
  induction list with
  | nil => cases hs
  | cons first rest ih =>
    rw [List.map_cons, List.nodup_cons] at hnodup
    rcases List.mem_cons.mp hs with rfl | hrest
    · simp
    · have hne : key first ≠ key s := fun heq =>
        hnodup.1 (heq ▸ List.mem_map_of_mem hrest)
      rw [List.find?_cons_of_neg (by simpa using hne)]
      exact ih hnodup.2 hrest

/-- A signature is found under its own tag. -/
theorem byTag?_tag {s : Signature} (hs : s ∈ all) : byTag? s.tag = some s :=
  find?_key nodup_tags hs

/-- A signature is found under its own name. -/
theorem byName?_name {s : Signature} (hs : s ∈ all) : byName? s.name = some s :=
  find?_key nodup_names hs

theorem mem_of_byTag? {tag : Tag} {s : Signature} (h : byTag? tag = some s) : s ∈ all :=
  List.mem_of_find?_eq_some h

theorem mem_of_byName? {name : String} {s : Signature} (h : byName? name = some s) : s ∈ all :=
  List.mem_of_find?_eq_some h

theorem name_of_byName? {name : String} {s : Signature} (h : byName? name = some s) :
    s.name = name := by
  simpa using List.find?_some h

end Switchboard.Signature
