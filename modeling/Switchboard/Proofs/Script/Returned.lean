import Switchboard.Proofs.Source.Calls

/-!
# Scripts that are returned

The reader of source text drives a builder, and by its calls alone.  So what holds of every script that
a builder returns holds of those that are read from source text.

Main results:

* `Builder.leadsTo_of_run`: carrying out statements is a sequence of calls.
* `Script.isPlaced_of_isReturned`: in a script that is returned, the nodes stand where their kinds may
  stand.
-/

namespace Switchboard

/-- A statement that is no action is one call. -/
theorem Statement.exists_call_of_apply {b next : Builder} {st : Statement}
    (h : st.apply b = .ok next) : ∃ c, next = b.call c := by
  rw [Statement.apply_eq] at h
  obtain ⟨c, -, heq⟩ := bind_eq_ok_iff.mp h
  cases heq
  exact ⟨c, rfl⟩

namespace Builder

/-- Whether calls lead from one builder to another. -/
def LeadsTo (b final : Builder) : Prop :=
  ∃ calls, final = b.callAll calls

section LeadsTo

variable {b mid final : Builder}

theorem LeadsTo.refl (b : Builder) : b.LeadsTo b :=
  ⟨[], rfl⟩

theorem LeadsTo.trans (h : b.LeadsTo mid) (hrest : mid.LeadsTo final) : b.LeadsTo final := by
  obtain ⟨calls, rfl⟩ := h
  obtain ⟨more, rfl⟩ := hrest
  exact ⟨calls ++ more, (callAll_append b calls more).symm⟩

theorem leadsTo_call (b : Builder) (c : Call) : b.LeadsTo (b.call c) :=
  ⟨[c], rfl⟩

theorem leadsTo_of_apply {st : Statement} (h : st.apply b = .ok mid) : b.LeadsTo mid := by
  obtain ⟨c, rfl⟩ := Statement.exists_call_of_apply h
  exact leadsTo_call b c

end LeadsTo

/-- Carrying out statements is a sequence of calls. -/
theorem leadsTo_of_run {b final : Builder} {statements : List Statement}
    (h : b.run statements = .ok final) : b.LeadsTo final := by
  -- the recursion follows the statements, with the body of an action taken before what follows it
  induction b, statements using run.induct generalizing final with
  | case1 b =>
    unfold run at h
    cases h
    exact .refl _
  | case2 b st rest hfailed =>
    rw [run_failed hfailed] at h
    cases h
    exact .refl _
  -- an action, its body and its end, and then the others
  | case3 b st rest hfailed hrole ihBody ihRest =>
    rw [run_select hfailed hrole] at h
    obtain ⟨mid, hmid, h⟩ := bind_eq_ok_iff.mp h
    have hbody := (leadsTo_call b (.action "select")).trans (ihBody hmid)
    exact hbody.trans ((leadsTo_call mid .endAction).trans (ihRest mid h))
  | case4 b st hfailed hselect hrole next after hnext ihBody ihRest =>
    rw [run, if_neg hfailed, if_neg hselect, if_pos hrole, if_pos hnext] at h
    obtain ⟨criterion, -, h⟩ := bind_eq_ok_iff.mp h
    obtain ⟨mid, hmid, h⟩ := bind_eq_ok_iff.mp h
    have hbody := (leadsTo_call b (.action criterion)).trans (ihBody criterion hmid)
    exact hbody.trans ((leadsTo_call mid .endAction).trans (ihRest mid h))
  -- a criterion that stands by itself, with statements behind it or without
  | case5 b st hfailed hselect hrole next after hnext ih =>
    rw [run, if_neg hfailed, if_neg hselect, if_pos hrole, if_neg hnext] at h
    obtain ⟨mid, hmid, h⟩ := bind_eq_ok_iff.mp h
    exact (leadsTo_of_apply hmid).trans (ih mid h)
  | case6 b st hfailed hselect hrole =>
    rw [run, if_neg hfailed, if_neg hselect, if_pos hrole] at h
    exact leadsTo_of_apply h
  | case7 b st rest hfailed hselect hrole ih =>
    rw [run_apply hfailed hselect hrole] at h
    obtain ⟨mid, hmid, h⟩ := bind_eq_ok_iff.mp h
    exact (leadsTo_of_apply hmid).trans (ih mid h)

end Builder

namespace Script

/-- Whether a builder, or the reader of source text, returns the script. -/
def IsReturned (script : Script) : Prop :=
  (∃ calls, (Builder.empty.callAll calls).build = .ok script) ∨
    ∃ source, parse source = .ok script

/-- A script that is read from source text is one that a builder returns. -/
theorem exists_calls_of_isReturned {script : Script} (h : script.IsReturned) :
    ∃ calls, (Builder.empty.callAll calls).build = .ok script := by
  rcases h with hbuilt | ⟨source, hparse⟩
  · exact hbuilt
  · obtain ⟨lexemes, -, hparse⟩ := bind_eq_ok_iff.mp hparse
    obtain ⟨statements, -, hparse⟩ := bind_eq_ok_iff.mp hparse
    obtain ⟨b, hrun, hbuild⟩ := bind_eq_ok_iff.mp hparse
    obtain ⟨calls, rfl⟩ := Builder.leadsTo_of_run hrun
    exact ⟨calls, hbuild⟩

/-- In a script that is returned, the nodes stand where their kinds may stand. -/
theorem isPlaced_of_isReturned {script : Script} (h : script.IsReturned) : script.IsPlaced := by
  obtain ⟨calls, hbuild⟩ := exists_calls_of_isReturned h
  exact isPlaced_of_build hbuild

end Script

end Switchboard
