import Switchboard.Proofs.Text.Blank
import Switchboard.Proofs.Text.Lowercase
import Switchboard.ScreenName

/-!
# The identity of a screen name

Main results:

* `identityOf_identityOf`: the identity of a screen name is a name with that identity.
* `identityOf_insert`: white space anywhere in a name is no part of its identity; in particular, trimming
  leaves the identity (`identityOf_trim`).
-/

namespace Switchboard

/-- Nothing in the identity of a name is left out of it, or has another lowercase form. -/
theorem spec_of_mem_identityChars {name : List Char} {c : Char} (h : c ∈ identityChars name) :
    Text.isBlank c = false ∧ Text.lowercaseChar c = [c] := by
  obtain ⟨written, hwritten, hlower⟩ := List.mem_flatMap.mp h
  have hblank : Text.isBlank written = false := by simpa using (List.mem_filter.mp hwritten).2
  exact ⟨Text.isBlank_of_mem_lowercaseChar hlower hblank, Text.lowercaseChar_of_mem hlower⟩

theorem identityChars_identityChars (name : List Char) :
    identityChars (identityChars name) = identityChars name := by
  have hkept : (identityChars name).filter (fun c => !Text.isBlank c) = identityChars name := by
    rw [List.filter_eq_self]
    intro c hc
    simp [(spec_of_mem_identityChars hc).1]
  have hlower (cs : List Char) (h : ∀ c ∈ cs, Text.lowercaseChar c = [c]) :
      cs.flatMap Text.lowercaseChar = cs := by
    induction cs with
    | nil => rfl
    | cons c rest ih =>
      rw [List.flatMap_cons, h c List.mem_cons_self,
        ih fun other hother => h other (List.mem_cons_of_mem c hother)]
      rfl
  rw [identityChars, hkept]
  exact hlower _ fun c hc => (spec_of_mem_identityChars hc).2

/-- The identity of a screen name is a name with that identity. -/
theorem identityOf_identityOf (name : String) : identityOf (identityOf name) = identityOf name := by
  rw [identityOf, identityOf, String.toList_ofList, identityChars_identityChars]

theorem identityChars_append (before after : List Char) :
    identityChars (before ++ after) = identityChars before ++ identityChars after := by
  simp [identityChars]

theorem identityChars_of_blank {blanks : List Char} (h : ∀ c ∈ blanks, Text.isBlank c = true) :
    identityChars blanks = [] := by
  have hnone : blanks.filter (fun c => !Text.isBlank c) = [] := by
    rw [List.filter_eq_nil_iff]
    intro c hc
    simp [h c hc]
  rw [identityChars, hnone]
  rfl

/-- White space anywhere in a name is no part of its identity. -/
theorem identityOf_insert {before blanks after : List Char}
    (h : ∀ c ∈ blanks, Text.isBlank c = true) :
    identityOf (String.ofList (before ++ blanks ++ after)) =
      identityOf (String.ofList (before ++ after)) := by
  rw [identityOf, identityOf, String.toList_ofList, String.toList_ofList, identityChars_append,
    identityChars_append, identityChars_append, identityChars_of_blank h, List.append_nil]

/-- White space around a name is no part of its identity. -/
theorem identityOf_trim (name : String) :
    identityOf (String.ofList (Text.trim name.toList)) = identityOf name := by
  obtain ⟨before, after, hname, hbefore, hafter⟩ := Text.exists_trim name.toList
  have hchars := congrArg identityChars hname
  rw [identityChars_append, identityChars_append, identityChars_of_blank hbefore,
    identityChars_of_blank hafter, List.nil_append, List.append_nil] at hchars
  rw [identityOf, identityOf, String.toList_ofList, hchars]

end Switchboard
