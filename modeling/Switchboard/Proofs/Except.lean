/-!
# Steps that may fail

How a sequence of steps that may fail comes apart: it succeeds if each step does.
-/

namespace Switchboard

variable {ε α β : Type}

theorem ok_bind (a : α) (f : α → Except ε β) : (Except.ok a >>= f) = f a := rfl

theorem error_bind (e : ε) (f : α → Except ε β) : (Except.error e >>= f) = .error e := rfl

theorem bind_eq_ok_iff {x : Except ε α} {f : α → Except ε β} {b : β} :
    (x >>= f) = .ok b ↔ ∃ a, x = .ok a ∧ f a = .ok b := by
  cases x with
  | error e => rw [error_bind]; simp
  | ok a => rw [ok_bind]; simp

theorem map_eq_error_iff {x : Except ε α} {f : α → β} {e : ε} :
    x.map f = .error e ↔ x = .error e := by
  cases x with
  | error fault => simp [Except.map]
  | ok a => simp [Except.map]

theorem map_eq_ok_iff {x : Except ε α} {f : α → β} {b : β} :
    x.map f = .ok b ↔ ∃ a, x = .ok a ∧ f a = b := by
  cases x with
  | error fault => simp [Except.map]
  | ok a => simp [Except.map]

/-- One more step after those for a list that is held latest first. -/
theorem foldlM_reverse_cons {f : β → α → Except ε β} {b c : β} {earlier : List α}
    (h : earlier.reverse.foldlM f b = .ok c) (a : α) :
    (a :: earlier).reverse.foldlM f b = f c a := by
  rw [List.reverse_cons, List.foldlM_append, h, ok_bind]
  simp only [List.foldlM_cons, List.foldlM_nil, bind_pure]

/-- Whether a step succeeds. -/
def Succeeds (x : Except ε α) : Prop :=
  ∃ a, x = .ok a

theorem succeeds_ok (a : α) : Succeeds (.ok a : Except ε α) :=
  ⟨a, rfl⟩

/-- A result that passes a check is a result. -/
theorem exists_of_any {x : Except ε α} {p : α → Bool} (h : x.toOption.any p = true) :
    ∃ a, x = .ok a ∧ p a = true := by
  cases x with
  | error e => cases h
  | ok a => exact ⟨a, rfl, h⟩

/-- A step whose fault is the expected one fails with it. -/
theorem eq_error_of_decide [DecidableEq ε] {x : Except ε α} {e : ε}
    (h : (match x with | .error fault => decide (fault = e) | .ok _ => false) = true) :
    x = .error e := by
  cases x with
  | error fault => rw [of_decide_eq_true h]
  | ok a => cases h

theorem not_succeeds_error (e : ε) : ¬Succeeds (.error e : Except ε α) := by
  rintro ⟨a, h⟩
  cases h

/-- Two steps in a row succeed if both do, where the second does not depend on the first. -/
theorem succeeds_bind_iff {x : Except ε α} {f : α → Except ε β} {p : Prop}
    (h : ∀ a, x = .ok a → (Succeeds (f a) ↔ p)) : Succeeds (x >>= f) ↔ Succeeds x ∧ p := by
  cases x with
  | error e => rw [error_bind]; simp [not_succeeds_error]
  | ok a => rw [ok_bind, h a rfl]; simp [succeeds_ok]

theorem not_succeeds_iff {x : Except ε α} : ¬Succeeds x ↔ ∃ e, x = .error e := by
  cases x with
  | error e => simp [not_succeeds_error]
  | ok a => simp [succeeds_ok]

end Switchboard
