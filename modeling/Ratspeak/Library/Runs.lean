import Mathlib.Data.List.Basic

/-!
# Runs of a state machine

A machine is a step function on states and inputs.  `runFrom` feeds it a list
of inputs, and `Along` says that a condition on the state and the next input
holds at every step of such a run.  An invariant that each permitted step
keeps holds at the end of every run whose steps are all permitted, hence in
every state the run passes through.
-/

namespace Ratspeak.Library

universe u v

variable {State : Type u} {Input : Type v}

/-- The state after a list of inputs. -/
def runFrom (step : State → Input → State) :
    State → List Input → State
  | state, [] => state
  | state, input :: rest => runFrom step (step state input) rest

/-- Every step of the run meets the condition. -/
def Along (step : State → Input → State) (permits : State → Input → Prop) :
    State → List Input → Prop
  | _, [] => True
  | state, input :: rest =>
      permits state input ∧ Along step permits (step state input) rest

instance decidableAlong (step : State → Input → State)
    (permits : State → Input → Prop) [∀ state input, Decidable (permits state input)] :
    ∀ (state : State) (inputs : List Input), Decidable (Along step permits state inputs)
  | _, [] => inferInstanceAs (Decidable True)
  | state, input :: rest =>
      haveI := decidableAlong step permits (step state input) rest
      inferInstanceAs (Decidable (_ ∧ _))

@[simp]
theorem runFrom_append (step : State → Input → State)
    (state : State) (first second : List Input) :
    runFrom step state (first ++ second) =
      runFrom step (runFrom step state first) second := by
  induction first generalizing state with
  | nil => rfl
  | cons input rest ih => exact ih (step state input)

theorem along_append (step : State → Input → State) (permits : State → Input → Prop)
    (state : State) (first second : List Input) :
    Along step permits state (first ++ second) ↔
      Along step permits state first ∧
        Along step permits (runFrom step state first) second := by
  induction first generalizing state with
  | nil => simp [Along, runFrom]
  | cons input rest ih => simp only [List.cons_append, Along, runFrom, ih, and_assoc]

/-- The steps of a run meet a weaker condition as well. -/
theorem Along.mono {step : State → Input → State} {permits weaker : State → Input → Prop}
    (weaken : ∀ state input, permits state input → weaker state input)
    {state : State} {inputs : List Input} (along : Along step permits state inputs) :
    Along step weaker state inputs := by
  induction inputs generalizing state with
  | nil => trivial
  | cons input rest ih => exact ⟨weaken state input along.1, ih along.2⟩

/-- What every permitted step keeps holds after a permitted run. -/
theorem invariant_runFrom {step : State → Input → State}
    {permits : State → Input → Prop} (invariant : State → Prop) (kept : ∀ state input,
      invariant state → permits state input → invariant (step state input))
    {state : State} {inputs : List Input} (initially : invariant state)
    (along : Along step permits state inputs) :
    invariant (runFrom step state inputs) := by
  induction inputs generalizing state with
  | nil => exact initially
  | cons input rest ih => exact ih (kept state input initially along.1) along.2

/-- What every permitted step yields holds along a permitted run. -/
theorem along_of_invariant {step : State → Input → State}
    {permits wanted : State → Input → Prop} (invariant : State → Prop) (kept : ∀ state input,
      invariant state → permits state input → invariant (step state input))
    (yields : ∀ state input, invariant state → permits state input → wanted state input)
    {state : State} {inputs : List Input} (initially : invariant state)
    (along : Along step permits state inputs) :
    Along step wanted state inputs := by
  induction inputs generalizing state with
  | nil => trivial
  | cons input rest ih =>
      have later : invariant (step state input) :=
        kept state input initially along.1
      exact ⟨yields state input initially along.1, ih later along.2⟩

/-- A machine whose steps leave marks, with the marks that it has left. -/
def recording {Mark : Type v} (step : State → Input → State × List Mark)
    (recorded : State × List Mark) (input : Input) : State × List Mark :=
  ((step recorded.1 input).1, recorded.2 ++ (step recorded.1 input).2)

/-- What every step keeps holds after every run. -/
theorem invariant_of_forall_step {step : State → Input → State} {invariant : State → Prop}
    (kept : ∀ state input, invariant state → invariant (step state input))
    {state : State} (inputs : List Input) (initially : invariant state) :
    invariant (runFrom step state inputs) := by
  induction inputs generalizing state with
  | nil => exact initially
  | cons input rest ih => exact ih (kept state input initially)

end Ratspeak.Library
