import Mathlib.Data.Option.Basic

/-!
# Steps that may fail

What is missing becomes an error, what is refused stops, and a run of steps
that came through is taken apart step by step.
-/

namespace Ratspeak.Library

variable {α β ε : Type}

/-- A value, or an error in its place. -/
def okOr (value : Option α) (error : ε) : Except ε α :=
  match value with
  | none => .error error
  | some value => .ok value

def refuseIf (refused : Prop) [Decidable refused] (error : ε) :
    Except ε Unit :=
  if refused then .error error else .ok ()

@[simp]
theorem okOr_some (value : α) (error : ε) :
    okOr (some value) error = .ok value :=
  rfl

@[simp]
theorem okOr_none (error : ε) :
    okOr (none : Option α) error = .error error :=
  rfl

theorem okOr_eq_ok {value : Option α} {error : ε} {result : α}
    (equal : okOr value error = .ok result) : value = some result := by
  cases value with
  | none => cases equal
  | some value =>
      cases equal
      rfl

theorem refuseIf_eq_ok {refused : Prop} [Decidable refused] {error : ε}
    {result : Unit} (equal : refuseIf refused error = .ok result) :
    ¬refused := by
  intro holds
  rw [refuseIf, if_pos holds] at equal
  cases equal

theorem refuseIf_of_not {refused : Prop} [Decidable refused] (error : ε)
    (allowed : ¬refused) : refuseIf refused error = .ok () :=
  if_neg allowed

/-- What was not refused came through. -/
theorem ok_of_unless {refused : Prop} [Decidable refused] {error : ε}
    {otherwise : Except ε α} {value : α}
    (accepted : (if refused then .error error else otherwise) =
      .ok value) : ¬refused ∧ otherwise = .ok value := by
  by_cases holds : refused
  · rw [if_pos holds] at accepted
    cases accepted
  · rw [if_neg holds] at accepted
    exact ⟨holds, accepted⟩

theorem map_eq_ok {value : Except ε α} {f : α → β} {result : β}
    (equal : value.map f = .ok result) :
    ∃ inner, value = .ok inner ∧ f inner = result := by
  cases value with
  | error error => cases equal
  | ok inner =>
      cases equal
      exact ⟨inner, rfl, rfl⟩

theorem bind_eq_ok {first : Except ε α} {next : α → Except ε β} {result : β}
    (equal : first >>= next = .ok result) :
    ∃ value, first = .ok value ∧ next value = .ok result := by
  cases first with
  | error error => cases equal
  | ok value => exact ⟨value, rfl, equal⟩

@[simp]
theorem ok_bind (value : α) (next : α → Except ε β) :
    (Except.ok value >>= next) = next value :=
  rfl

@[simp]
theorem error_bind (error : ε) (next : α → Except ε β) :
    ((Except.error error : Except ε α) >>= next) = .error error :=
  rfl

end Ratspeak.Library
