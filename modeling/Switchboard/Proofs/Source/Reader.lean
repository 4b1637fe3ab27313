import Switchboard.Proofs.Atom.Table
import Switchboard.Proofs.Except
import Switchboard.Source.Parse

/-!
# What the reader gives

The reader takes an argument only where the signature has a field for it, and reads it as a nested
stream exactly where that field takes streams.

Main result: `Statement.isProper_of_read`, this holds of every statement, at every level.
-/

namespace Switchboard

mutual

/-- A statement as the reader gives it: its signature is known and takes its arguments. -/
inductive Statement.IsProper : Statement → Prop where
  | mk {s : Signature} {line : Nat} {args : List Argument}
      (known : Signature.byName? s.name = some s) (takes : Signature.Takes s args) :
      Statement.IsProper (.mk s line args)

/-- A signature has a field for each argument, and the argument suits it. -/
inductive Signature.Takes : Signature → List Argument → Prop where
  | mk {s : Signature} {args : List Argument} (count : args.length ≤ s.fields.length)
      (suits : ∀ (i : Nat) (kind : FieldKind) (arg : Argument), s.fields[i]? = some kind →
        args[i]? = some arg → Argument.Suits kind arg) : Signature.Takes s args

/-- A stream of statements suits a field that takes streams, literals suit any other. -/
inductive Argument.Suits : FieldKind → Argument → Prop where
  | literals {kind : FieldKind} {lexemes : List Lexeme} (plain : kind ≠ .stream) :
      Argument.Suits kind (.literals lexemes)
  | stream {statements : List Statement} (filled : statements ≠ [])
      (inner : ∀ st ∈ statements, Statement.IsProper st) :
      Argument.Suits .stream (.stream statements)

end

namespace Signature.Takes

theorem nil (s : Signature) : s.Takes [] :=
  .mk (Nat.zero_le _) fun _ _ _ _ h => nomatch h

/-- One more argument, which suits the next field. -/
theorem concat {s : Signature} {args : List Argument} {arg : Argument} {kind : FieldKind}
    (h : s.Takes args) (hkind : s.fields[args.length]? = some kind)
    (hsuits : Argument.Suits kind arg) : s.Takes (args ++ [arg]) := by
  obtain ⟨-, holder⟩ := h
  refine .mk ?_ fun i other next hother hnext => ?_
  · rw [List.length_append]
    exact (List.getElem?_eq_some_iff.mp hkind).1
  · rcases Nat.lt_trichotomy i args.length with hlt | rfl | hgt
    · rw [List.getElem?_append_left hlt] at hnext
      exact holder i other next hother hnext
    · rw [List.getElem?_concat_length] at hnext
      cases hkind.symm.trans hother
      cases hnext
      exact hsuits
    · rw [List.getElem?_eq_none (by rw [List.length_append]; exact hgt)] at hnext
      cases hnext

/-- The nested streams among the arguments have statements, which are proper. -/
theorem of_mem {s : Signature} {args : List Argument} {statements : List Statement}
    (h : s.Takes args) (hmem : .stream statements ∈ args) :
    statements ≠ [] ∧ ∀ st ∈ statements, st.IsProper := by
  obtain ⟨count, suits⟩ := h
  obtain ⟨i, hi⟩ := List.mem_iff_getElem?.mp hmem
  have hlt : i < s.fields.length := Nat.lt_of_lt_of_le (List.getElem?_eq_some_iff.mp hi).1 count
  have hsuits := suits i s.fields[i] _ (List.getElem?_eq_getElem hlt) hi
  generalize s.fields[i] = kind at hsuits
  cases hsuits with
  | stream filled inner => exact ⟨filled, inner⟩

end Signature.Takes

namespace Reader

/-- A statement whose nested stream is being read: the stream suits the next field. -/
structure Pending.IsProper (p : Pending) : Prop where
  known : Signature.byName? p.signature.name = some p.signature
  takes : p.signature.Takes p.arguments.reverse
  field : p.signature.fields[p.arguments.length]? = some .stream
  before : ∀ st ∈ p.before, st.IsProper

/-- What the reader has seen of a statement fits its signature. -/
def Mode.IsProper : Mode → Prop
  | statement => True
  | named signature _ => Signature.byName? signature.name = some signature
  | argument signature _ arguments =>
    Signature.byName? signature.name = some signature ∧ signature.Takes arguments.reverse
  | literal signature _ arguments _ =>
    Signature.byName? signature.name = some signature ∧ signature.Takes arguments.reverse ∧
      ∃ kind, signature.fields[arguments.length]? = some kind ∧ kind ≠ .stream

/-- A state of the reader in which all statements are proper.  Where a nested stream may end, it has
a statement. -/
structure State.IsProper (s : State) : Prop where
  done : ∀ st ∈ s.done, st.IsProper
  pending : ∀ p ∈ s.pending, p.IsProper
  mode : s.mode.IsProper
  filled : s.mode = .statement → s.pending ≠ [] → s.done ≠ []

namespace State.IsProper

variable {s next : State} {signature : Signature} {line : Nat} {arguments : List Argument}
  {t : Placed}

theorem start : Reader.start.IsProper :=
  ⟨fun _ h => (nomatch h), fun _ h => (nomatch h), trivial, fun _ h => absurd rfl h⟩

theorem complete (hdone : ∀ st ∈ s.done, st.IsProper) (hpending : ∀ p ∈ s.pending, p.IsProper)
    (hknown : Signature.byName? signature.name = some signature)
    (htakes : signature.Takes arguments.reverse) :
    (s.complete signature line arguments).IsProper :=
  ⟨List.forall_mem_cons.mpr ⟨.mk hknown htakes, hdone⟩, hpending, trivial,
    fun _ _ => List.cons_ne_nil _ _⟩

/-- A lexeme where a statement may start.  Where no statement of a nested stream has been read yet,
the stream does not end. -/
theorem begin (hdone : ∀ st ∈ s.done, st.IsProper) (hpending : ∀ p ∈ s.pending, p.IsProper)
    (hfilled : t.lexeme = .closing → s.pending ≠ [] → s.done ≠ []) (h : s.begin t = .ok next) :
    next.IsProper := by
  unfold State.begin at h
  split at h
  · split at h
    · next hknown =>
      cases h
      refine ⟨hdone, hpending, ?_, fun hmode => nomatch hmode⟩
      show Signature.byName? _ = _
      rw [Signature.name_of_byName? hknown, hknown]
    · cases h
  · next p outer hclosing houter =>
    cases h
    -- the stream is over, and is the last argument of the statement around it
    obtain ⟨hp, houters⟩ := List.forall_mem_cons.mp (houter ▸ hpending)
    have hsuits : Argument.Suits .stream (.stream s.done.reverse) := by
      refine .stream ?_ fun st hst => hdone st (List.mem_reverse.mp hst)
      rw [Ne, List.reverse_eq_nil_iff]
      exact hfilled hclosing (houter ▸ List.cons_ne_nil p outer)
    refine complete (s := ⟨outer, p.before, .statement⟩) hp.before houters hp.known ?_
    rw [List.reverse_cons]
    refine hp.takes.concat ?_ hsuits
    rw [List.length_reverse]
    exact hp.field
  · cases h

theorem takeLiteral {kind : FieldKind} {lexemes : List Lexeme}
    (hdone : ∀ st ∈ s.done, st.IsProper) (hpending : ∀ p ∈ s.pending, p.IsProper)
    (hknown : Signature.byName? signature.name = some signature)
    (htakes : signature.Takes arguments.reverse)
    (hkind : signature.fields[arguments.length]? = some kind) (hplain : kind ≠ .stream)
    (h : s.takeLiteral signature line arguments lexemes t = .ok next) : next.IsProper := by
  have hmore : signature.Takes (.literals lexemes.reverse :: arguments).reverse := by
    rw [List.reverse_cons]
    refine htakes.concat ?_ (.literals hplain)
    rw [List.length_reverse]
    exact hkind
  unfold State.takeLiteral at h
  split at h
  · cases h
    exact ⟨hdone, hpending, ⟨hknown, hmore⟩, fun hmode => nomatch hmode⟩
  · cases h
    exact complete hdone hpending hknown hmore
  · cases h
  · cases h
    exact ⟨hdone, hpending, ⟨hknown, htakes, kind, hkind, hplain⟩, fun hmode => nomatch hmode⟩

/-- A lexeme keeps the statements proper. -/
theorem step (hs : s.IsProper) (h : s.step t = .ok next) : next.IsProper := by
  obtain ⟨hdone, hpending, hmode, hfilled⟩ := hs
  unfold State.step at h
  split at h
  · next heq => exact begin hdone hpending (fun _ => hfilled heq) h
  · next signature line heq =>
    rw [heq] at hmode
    split at h
    · cases h
      exact ⟨hdone, hpending, ⟨hmode, .nil _⟩, fun hmode => nomatch hmode⟩
    · have hcomplete : (s.complete signature line []).IsProper :=
        complete hdone hpending hmode (.nil _)
      exact begin hcomplete.done hpending (fun _ => hcomplete.filled rfl) h
  · next signature line arguments heq =>
    rw [heq] at hmode
    obtain ⟨hknown, htakes⟩ := hmode
    split at h
    · cases h
      exact complete hdone hpending hknown htakes
    · next hnot =>
      split at h
      · cases h
      · next hkind =>
        -- a nested stream starts, and does not end at once
        refine begin (fun _ hst => absurd hst List.not_mem_nil) ?_
          (fun hclosing => absurd hclosing hnot) h
        exact List.forall_mem_cons.mpr ⟨⟨hknown, htakes, hkind, hdone⟩, hpending⟩
      · next kind hplain hkind =>
        exact takeLiteral hdone hpending hknown htakes hkind hplain h
  · next signature line arguments lexemes heq =>
    rw [heq] at hmode
    obtain ⟨hknown, htakes, kind, hkind, hplain⟩ := hmode
    exact takeLiteral hdone hpending hknown htakes hkind hplain h

/-- So do lexemes in a row. -/
theorem foldlM (hs : s.IsProper) {lexemes : List Placed}
    (h : lexemes.foldlM State.step s = .ok next) : next.IsProper := by
  induction lexemes generalizing s with
  | nil =>
    cases h
    exact hs
  | cons t rest ih =>
    rw [List.foldlM_cons] at h
    obtain ⟨mid, hmid, h⟩ := bind_eq_ok_iff.mp h
    exact ih (hs.step hmid) h

/-- The statements that have been read are proper. -/
theorem finish (hs : s.IsProper) {statements : List Statement} (h : s.finish = .ok statements) :
    ∀ st ∈ statements, st.IsProper := by
  have hclose {s : State} (hdone : ∀ st ∈ s.done, st.IsProper) (h : s.close = .ok statements) :
      ∀ st ∈ statements, st.IsProper := by
    unfold State.close at h
    split at h
    · cases h
      exact fun st hst => hdone st (List.mem_reverse.mp hst)
    · cases h
  unfold State.finish at h
  split at h
  · exact hclose hs.done h
  · next signature line heq =>
    have hmode := hs.mode
    rw [heq] at hmode
    have hcomplete : (s.complete signature line []).IsProper :=
      complete hs.done hs.pending hmode (.nil _)
    exact hclose hcomplete.done h
  · split at h <;> cases h
  · cases h

end State.IsProper

end Reader

/-- Every statement that the reader gives is proper. -/
theorem Statement.isProper_of_read {lexemes : List Placed} {statements : List Statement}
    (h : read lexemes = .ok statements) : ∀ st ∈ statements, st.IsProper := by
  obtain ⟨s, hs, h⟩ := bind_eq_ok_iff.mp h
  exact (Reader.State.IsProper.start.foldlM hs).finish h

end Switchboard
