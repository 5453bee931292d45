import Mathlib.Data.List.Basic

/-!
# Programs with state and failure

A program reads and changes a state and either returns a value or stops with a
failure; the state it leaves behind is kept in both cases.  `Meets` is a
triple with two outcomes: what holds after a value, and what holds after a
failure.  `through` runs a body over a list of inputs and keeps the last thing
the body reported.
-/

namespace Ratspeak.Library

/-- A program over a state that may stop with a failure. -/
abbrev Program (State Failure : Type) :=
  ExceptT Failure (StateM State)

/-- A computation in two steps succeeds where both do. -/
theorem except_bind_ok {Failure Value Next : Type}
    {first : Except Failure Value} {next : Value → Except Failure Next} {result : Next} :
    (first >>= next) = .ok result ↔
      ∃ value, first = .ok value ∧ next value = .ok result := by
  cases first with
  | error failure =>
      constructor
      · intro succeeded
        cases succeeded
      · intro succeeded
        obtain ⟨value, impossible, -⟩ := succeeded
        cases impossible
  | ok value =>
      constructor
      · intro succeeded
        exact ⟨value, rfl, succeeded⟩
      · intro succeeded
        obtain ⟨other, same, succeeded⟩ := succeeded
        cases same
        exact succeeded

namespace Program

variable {State Failure Value Next Input : Type}

/-- What a program returns from a state, and the state it leaves. -/
def exec (program : Program State Failure Value) (state : State) :
    Except Failure Value × State :=
  program.run.run state

@[simp]
theorem exec_pure (value : Value) (state : State) :
    (pure value : Program State Failure Value).exec state = (.ok value, state) :=
  rfl

@[simp]
theorem exec_throw (failure : Failure) (state : State) :
    (throw failure : Program State Failure Value).exec state = (.error failure, state) :=
  rfl

@[simp]
theorem exec_get (state : State) :
    (get : Program State Failure State).exec state = (.ok state, state) :=
  rfl

@[simp]
theorem exec_modify (change : State → State) (state : State) :
    (modify change : Program State Failure PUnit).exec state = (.ok (), change state) :=
  rfl

theorem exec_bind (program : Program State Failure Value)
    (next : Value → Program State Failure Next) (state : State) :
    (program >>= next).exec state =
      match program.exec state with
      | (.ok value, reached) => (next value).exec reached
      | (.error failure, reached) => (.error failure, reached) := by
  change (do
      let (result, reached) ← program.run.run state
      ((ExceptT.bindCont next result : StateM State _) reached) : Id _) = _
  simp only [exec]
  rcases program.run.run state with ⟨result, reached⟩
  cases result with
  | ok value => rfl
  | error failure => rfl

theorem exec_bind_ok {program : Program State Failure Value}
    {state reached : State} {value : Value} (runs : program.exec state = (.ok value, reached))
    (next : Value → Program State Failure Next) :
    (program >>= next).exec state = (next value).exec reached := by
  rw [exec_bind, runs]

/-! ## Triples -/

/-- From every state before, the program ends in `after` with its value or in
`failed` with its failure. -/
def Meets (before : State → Prop) (program : Program State Failure Value)
    (after : Value → State → Prop) (failed : Failure → State → Prop) :
    Prop :=
  ∀ state, before state →
    match program.exec state with
    | (.ok value, reached) => after value reached
    | (.error failure, reached) => failed failure reached

variable {before : State → Prop} {program : Program State Failure Value}
  {after : Value → State → Prop} {failed : Failure → State → Prop}

theorem Meets.ok (meets : Meets before program after failed)
    {state reached : State} {value : Value} (starts : before state)
    (runs : program.exec state = (.ok value, reached)) :
    after value reached := by
  have held := meets state starts
  rw [runs] at held
  exact held

theorem Meets.error (meets : Meets before program after failed)
    {state reached : State} {failure : Failure} (starts : before state)
    (stops : program.exec state = (.error failure, reached)) :
    failed failure reached := by
  have held := meets state starts
  rw [stops] at held
  exact held

theorem meets_of_state (each : ∀ state, before state →
      Meets (fun start => start = state) program after failed) :
    Meets before program after failed := by
  intro state starts
  exact each state starts state rfl

theorem meets_pure {value : Value} (holds : ∀ state, before state → after value state) :
    Meets before (pure value : Program State Failure Value) after
      failed := by
  intro state starts
  exact holds state starts

theorem meets_throw {failure : Failure} (holds : ∀ state, before state → failed failure state) :
    Meets before (throw failure : Program State Failure Value) after
      failed := by
  intro state starts
  exact holds state starts

theorem meets_modify {change : State → State} {after : PUnit → State → Prop}
    (holds : ∀ state, before state → after () (change state)) :
    Meets before (modify change : Program State Failure PUnit) after
      failed := by
  intro state starts
  exact holds state starts

/-- Reading the state fixes which one the rest starts from. -/
theorem meets_get_bind {next : State → Program State Failure Next}
    {after : Next → State → Prop} (rest : ∀ state, before state →
      Meets (fun start => start = state) (next state) after failed) :
    Meets before (get >>= next) after failed := by
  intro state starts
  have held := rest state starts state rfl
  rw [exec_bind_ok (exec_get state)]
  exact held

theorem Meets.bind {next : Value → Program State Failure Next}
    {last : Next → State → Prop} (first : Meets before program after failed)
    (rest : ∀ value, Meets (after value) (next value) last failed) :
    Meets before (program >>= next) last failed := by
  intro state starts
  have held := first state starts
  rw [exec_bind]
  rcases ran : program.exec state with ⟨result, reached⟩
  rw [ran] at held
  cases result with
  | ok value => exact rest value reached held
  | error failure => exact held

/-- The rest may use what is known of the value alone. -/
theorem Meets.bind_known {next : Value → Program State Failure Next}
    {known : Value → Prop} {last : Next → State → Prop} (first :
      Meets before program (fun value state => after value state ∧ known value)
        failed)
    (rest : ∀ value, known value → Meets (after value) (next value) last failed) :
    Meets before (program >>= next) last failed := by
  apply first.bind
  intro value state held
  exact rest value held.2 state held.1

/-- A triple from one state, when the state meets what comes before. -/
theorem Meets.starting {state : State}
    (meets : Meets before program after failed) (starts : before state) :
    Meets (fun start => start = state) program after failed := by
  intro start same
  rw [same]
  exact meets state starts

theorem Meets.weaken {stronger : State → Prop}
    {weaker : Value → State → Prop} {worse : Failure → State → Prop}
    (meets : Meets before program after failed)
    (starts : ∀ state, stronger state → before state)
    (ends : ∀ value state, after value state → weaker value state)
    (fails : ∀ failure state, failed failure state → worse failure state) :
    Meets stronger program weaker worse := by
  intro state stronglyStarts
  have held := meets state (starts state stronglyStarts)
  rcases ran : program.exec state with ⟨result, reached⟩
  rw [ran] at held
  cases result with
  | ok value => exact ends value reached held
  | error failure => exact fails failure reached held

/-- Two triples of one program hold together. -/
theorem Meets.both {alsoBefore : State → Prop}
    {alsoAfter : Value → State → Prop} {alsoFailed : Failure → State → Prop}
    (first : Meets before program after failed)
    (second : Meets alsoBefore program alsoAfter alsoFailed) :
    Meets (fun state => before state ∧ alsoBefore state) program
      (fun value state => after value state ∧ alsoAfter value state)
      (fun failure state =>
        failed failure state ∧ alsoFailed failure state) := by
  intro state starts
  have held := first state starts.1
  have alsoHeld := second state starts.2
  rcases ran : program.exec state with ⟨result, reached⟩
  rw [ran] at held alsoHeld
  cases result with
  | ok value => exact ⟨held, alsoHeld⟩
  | error failure => exact ⟨held, alsoHeld⟩

/-- What holds after a failure may be weakened. -/
theorem Meets.failing {worse : Failure → State → Prop}
    (meets : Meets before program after failed)
    (fails : ∀ failure state, failed failure state → worse failure state) :
    Meets before program after worse :=
  meets.weaken (fun _ held => held) (fun _ _ held => held) fails

/-! ## Loops -/

/-- Run the body once for each input and keep the last report. -/
def through (body : Input → Program State Failure (Option Value)) :
    Option Value → List Input → Program State Failure (Option Value)
  | last, [] => pure last
  | last, input :: rest => do
      let reported ← body input
      through body (reported.or last) rest

variable {body : Input → Program State Failure (Option Value)}

theorem through_append (last : Option Value) (first second : List Input) :
    through body last (first ++ second) =
      through body last first >>= fun reported =>
        through body reported second := by
  induction first generalizing last with
  | nil => simp [through]
  | cons input rest ih =>
      simp only [List.cons_append, through, bind_assoc]
      congr 1
      funext reported
      exact ih _

/-- What was reported before only matters if nothing is reported now. -/
theorem through_last (last : Option Value) (inputs : List Input) :
    through body last inputs =
      through body none inputs >>= fun reported =>
        pure (reported.or last) := by
  induction inputs generalizing last with
  | nil => simp [through]
  | cons input rest ih =>
      simp only [through, bind_assoc]
      congr 1
      funext reported
      rw [ih (reported.or last), ih (reported.or none)]
      simp [Option.or_assoc]

/-- A body that keeps a property, and leaves the failed one when it stops,
does so over any number of inputs. -/
theorem meets_through {keeps : State → Prop} (each : ∀ input,
      Meets keeps (body input) (fun _ state => keeps state) failed)
    (last : Option Value) (inputs : List Input) :
    Meets keeps (through body last inputs)
      (fun _ state => keeps state) failed := by
  induction inputs generalizing last with
  | nil => exact meets_pure fun _ kept => kept
  | cons input rest ih =>
      apply (each input).bind
      intro reported
      exact ih (reported.or last)

/-- Run the program a number of times. -/
def iterate (program : Program State Failure PUnit) :
    Nat → Program State Failure PUnit
  | 0 => pure ()
  | count + 1 => do
      program
      iterate program count

theorem meets_iterate {keeps : State → Prop} {program : Program State Failure PUnit}
    (each : Meets keeps program (fun _ state => keeps state) failed) (count : Nat) :
    Meets keeps (iterate program count) (fun _ state => keeps state)
      failed := by
  induction count with
  | zero => exact meets_pure fun _ kept => kept
  | succ count ih => exact each.bind fun _ => ih

end Program

end Ratspeak.Library
