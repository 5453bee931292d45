import Mathlib.Algebra.Order.Group.Multiset
import Ratspeak.Library.Runs

/-!
# Ledgers

A machine takes amounts in, holds some of them and gives some out.  When no
step gives out or keeps more than it held and took, no run gives out more
than it was given: over multisets, whatever is given out was taken in before,
and nothing is given out twice.
-/

namespace Ratspeak.Library

universe u v w

variable {State : Type u} {Input : Type v} {Amount : Type w}
  [AddCommMonoid Amount]

/-- The sum of an amount over the steps of a run. -/
def tally (step : State → Input → State) (amount : State → Input → Amount) :
    State → List Input → Amount
  | _, [] => 0
  | state, input :: rest =>
      amount state input + tally step amount (step state input) rest

theorem tally_append (step : State → Input → State)
    (amount : State → Input → Amount) (state : State) (first second : List Input) :
    tally step amount state (first ++ second) =
      tally step amount state first +
        tally step amount (runFrom step state first) second := by
  induction first generalizing state with
  | nil => simp only [List.nil_append, tally, runFrom, zero_add]
  | cons input rest ih => simp only [List.cons_append, tally, runFrom, ih, add_assoc]

/-- Inputs that come with nothing add nothing. -/
theorem tally_eq_zero {step : State → Input → State}
    {amount : State → Input → Amount} {inputs : List Input}
    (nothing : ∀ input ∈ inputs, ∀ state, amount state input = 0)
    (state : State) : tally step amount state inputs = 0 := by
  induction inputs generalizing state with
  | nil => rfl
  | cons input rest ih =>
      rw [tally, nothing input List.mem_cons_self, zero_add]
      exact ih (fun later among => nothing later (List.mem_cons_of_mem _ among)) _

variable [Preorder Amount] [AddLeftMono Amount]

/-- What a run gave out, with what is held at its end, was held at its start
or taken in by the run. -/
theorem tally_add_held_le {step : State → Input → State}
    {given taken : State → Input → Amount} (held : State → Amount) (kept : ∀ state input,
      given state input + held (step state input) ≤ held state + taken state input)
    (state : State) (inputs : List Input) :
    tally step given state inputs + held (runFrom step state inputs) ≤
      held state + tally step taken state inputs := by
  induction inputs generalizing state with
  | nil => simp only [tally, runFrom, zero_add, add_zero, le_refl]
  | cons input rest ih =>
      simp only [tally, runFrom]
      have later := ih (step state input)
      calc given state input + tally step given (step state input) rest +
            held (runFrom step (step state input) rest)
        _ = given state input +
              (tally step given (step state input) rest +
                held (runFrom step (step state input) rest)) :=
            add_assoc _ _ _
        _ ≤ given state input +
              (held (step state input) + tally step taken (step state input) rest) :=
            add_le_add le_rfl later
        _ = given state input + held (step state input) +
              tally step taken (step state input) rest :=
            (add_assoc _ _ _).symm
        _ ≤ held state + taken state input +
              tally step taken (step state input) rest :=
            add_le_add (kept state input) le_rfl
        _ = held state + (taken state input +
              tally step taken (step state input) rest) :=
            add_assoc _ _ _

end Ratspeak.Library
