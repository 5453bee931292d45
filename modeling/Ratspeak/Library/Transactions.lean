import Ratspeak.Library.Programs

/-!
# Transactions

A transaction is a program over a working copy of the tables of a database.
Each of its statements may fail, and a program may give up by itself; in both
cases the working copy is dropped.  A commit may be lost, and it may also take
effect and be reported as failed.

`Settles` is a triple about tables: what holds of the working copy when the
program returns a value, and with which failures it may give up.  Nothing
needs to be said about the tables of a program that fails, since `immediate`
then leaves them as they were.
-/

namespace Ratspeak.Library

/-- A working copy, and how the statements to come fare. -/
structure Working (Tables Failure : Type) where
  tables : Tables
  fares : Nat → Option Failure

/-- A program over a working copy. -/
abbrev Tx (Tables Failure : Type) :=
  Program (Working Tables Failure) Failure

/-- What becomes of a commit: it is done, or lost, or it has landed although
it is reported as failed. -/
inductive CommitOutcome where
  | done
  | lost
  | landed
deriving DecidableEq, Repr

/-- What a transaction meets with: a connection that cannot be opened,
statements that fail, and what becomes of the commit. -/
structure Circumstances (Failure : Type) where
  connection : Option Failure
  fares : Nat → Option Failure
  commit : CommitOutcome

/-- The answer to a transaction, the tables after it, and the value of its
program if it took effect. -/
structure Attempt (Tables Failure Value : Type) where
  result : Except Failure Value
  tables : Tables
  landed : Option Value

namespace Tx

variable {Tables Failure Value Next Input : Type}

/-- One statement. -/
def statement (run : Tables → Value × Tables) : Tx Tables Failure Value := do
  let working ← get
  match working.fares 0 with
  | some failure => throw failure
  | none =>
      let (value, tables) := run working.tables
      modify fun working =>
        { tables := tables, fares := fun index => working.fares (index + 1) }
      pure value

def query (read : Tables → Value) : Tx Tables Failure Value :=
  statement fun tables => (read tables, tables)

def execute (change : Tables → Tables) : Tx Tables Failure PUnit :=
  statement fun tables => ((), change tables)

/-- One step that decides by the tables whether it fails. -/
def attempt (run : Tables → Except Failure (Value × Tables)) :
    Tx Tables Failure Value := do
  let working ← get
  match run working.tables with
  | .error failure => throw failure
  | .ok (value, tables) =>
      modify fun working => { working with tables := tables }
      pure value

/-- Give up unless a condition holds. -/
def require (condition : Bool) (failure : Failure) :
    Tx Tables Failure PUnit :=
  if condition then pure () else throw failure

/-- Run a body for each input in turn, and collect what it returns. -/
def forEach (body : Input → Tx Tables Failure Value) :
    List Input → Tx Tables Failure (List Value)
  | [] => pure []
  | input :: rest => do
      let value ← body input
      let values ← forEach body rest
      pure (value :: values)

/-! ## Triples -/

/-- From tables before, the program returns only values with tables after, if
its statements fail at most with faulty failures; and it fails only with such
a failure or with one of those it gives. -/
def Settles (faulty : Failure → Prop) (before : Tables → Prop)
    (program : Tx Tables Failure Value) (after : Value → Tables → Prop)
    (gives : Failure → Prop) : Prop :=
  Program.Meets
    (fun working =>
      (∀ index failure, working.fares index = some failure →
        faulty failure) ∧ before working.tables)
    program
    (fun value working =>
      (∀ index failure, working.fares index = some failure →
        faulty failure) ∧ after value working.tables)
    (fun failure _ => faulty failure ∨ gives failure)

/-- The triple that says nothing about failures. -/
abbrev Keeps (before : Tables → Prop) (program : Tx Tables Failure Value)
    (after : Value → Tables → Prop) : Prop :=
  Settles (fun _ => True) before program after (fun _ => False)

variable {faulty gives : Failure → Prop} {before : Tables → Prop}
  {program : Tx Tables Failure Value} {after : Value → Tables → Prop}
  {next : Value → Tx Tables Failure Next} {last : Next → Tables → Prop}

theorem settles_pure {value : Value} (holds : ∀ tables, before tables → after value tables) :
    Settles faulty before (pure value : Tx Tables Failure Value) after gives :=
  Program.meets_pure fun working held =>
    ⟨held.1, holds working.tables held.2⟩

theorem settles_throw {failure : Failure}
    (allowed : ∀ tables, before tables → faulty failure ∨ gives failure) :
    Settles faulty before (throw failure : Tx Tables Failure Value) after gives :=
  Program.meets_throw fun working held => allowed working.tables held.2

theorem Settles.bind (first : Settles faulty before program after gives)
    (rest : ∀ value, Settles faulty (after value) (next value) last gives) :
    Settles faulty before (program >>= next) last gives :=
  Program.Meets.bind first rest

theorem Settles.weaken {stronger : Tables → Prop} {weaker : Value → Tables → Prop}
    (settles : Settles faulty before program after gives)
    (starts : ∀ tables, stronger tables → before tables)
    (ends : ∀ value tables, after value tables → weaker value tables) :
    Settles faulty stronger program weaker gives :=
  Program.Meets.weaken settles
    (fun working held => ⟨held.1, starts working.tables held.2⟩)
    (fun value working held => ⟨held.1, ends value working.tables held.2⟩)
    (fun _ _ held => held)

/-- Nothing needs to be said about failures. -/
theorem Settles.keeps (settles : Settles (fun _ => True) before program after gives) :
    Keeps before program after :=
  Program.Meets.weaken settles (fun _ held => held) (fun _ _ held => held)
    (fun _ _ _ => Or.inl trivial)

theorem Settles.gives_weaken {more : Failure → Prop}
    (settles : Settles faulty before program after gives)
    (allowed : ∀ failure, gives failure → more failure) :
    Settles faulty before program after more :=
  Program.Meets.weaken settles (fun _ held => held) (fun _ _ held => held)
    (fun failure _ held => held.imp_right (allowed failure))

/-- A triple for each tables before is a triple. -/
theorem settles_of_tables (each : ∀ tables, before tables →
      Settles faulty (fun start => start = tables) program after gives) :
    Settles faulty before program after gives := by
  intro working held
  exact each working.tables held.2 working ⟨held.1, rfl⟩

/-- A statement, and then the rest from the tables it reached. -/
theorem settles_statement_bind {run : Tables → Value × Tables} (rest : ∀ tables, before tables →
      Settles faulty (fun start => start = (run tables).2)
        (next (run tables).1) last gives) :
    Settles faulty before (statement run >>= next) last gives := by
  apply settles_of_tables
  intro tables held
  have ran : Settles faulty (fun start => start = tables)
      (statement run : Tx Tables Failure Value)
      (fun value reached => value = (run tables).1 ∧
        reached = (run tables).2) gives := by
    apply Program.meets_get_bind
    intro working ⟨fares, same⟩
    split
    · rename_i failure fails
      exact Program.meets_throw fun _ _ => Or.inl (fares 0 failure fails)
    · intro start isWorking
      rw [isWorking, same]
      exact ⟨fun index failure fails => fares (index + 1) failure fails,
        rfl, rfl⟩
  apply ran.bind
  intro value
  apply settles_of_tables
  intro reached ⟨isValue, isReached⟩
  rw [isValue, isReached]
  exact rest tables held

theorem settles_query_bind {read : Tables → Value} (rest : ∀ tables, before tables →
      Settles faulty (fun start => start = tables) (next (read tables)) last
        gives) :
    Settles faulty before (query read >>= next) last gives :=
  settles_statement_bind rest

theorem settles_execute_bind {change : Tables → Tables}
    {next : PUnit → Tx Tables Failure Next} (rest : ∀ tables, before tables →
      Settles faulty (fun start => start = change tables) (next ()) last
        gives) :
    Settles faulty before (execute change >>= next) last gives :=
  settles_statement_bind rest

theorem settles_statement {run : Tables → Value × Tables}
    (holds : ∀ tables, before tables → after (run tables).1 (run tables).2) :
    Settles faulty before (statement run : Tx Tables Failure Value) after
      gives := by
  have alone : Settles faulty before
      ((statement run : Tx Tables Failure Value) >>= pure) after gives := by
    apply settles_statement_bind
    intro tables held
    apply settles_pure
    intro reached same
    rw [same]
    exact holds tables held
  rwa [bind_pure] at alone

theorem settles_execute {change : Tables → Tables} {after : PUnit → Tables → Prop}
    (holds : ∀ tables, before tables → after () (change tables)) :
    Settles faulty before (execute change : Tx Tables Failure PUnit) after gives :=
  settles_statement holds

theorem settles_attempt_bind {run : Tables → Except Failure (Value × Tables)}
    (fails : ∀ tables, before tables → ∀ failure,
      run tables = .error failure → faulty failure ∨ gives failure)
    (rest : ∀ tables, before tables → ∀ value reached,
      run tables = .ok (value, reached) →
        Settles faulty (fun start => start = reached) (next value) last
          gives) :
    Settles faulty before (attempt run >>= next) last gives := by
  apply settles_of_tables
  intro tables held
  have ran : Settles faulty (fun start => start = tables)
      (attempt run : Tx Tables Failure Value)
      (fun value reached => run tables = .ok (value, reached)) gives := by
    apply Program.meets_get_bind
    intro working ⟨fares, same⟩
    split
    · rename_i failure stopped
      rw [same] at stopped
      exact Program.meets_throw fun _ _ => fails tables held failure stopped
    · rename_i value reached ran
      intro start isWorking
      rw [isWorking]
      exact ⟨fares, same ▸ ran⟩
  apply ran.bind
  intro value
  apply settles_of_tables
  intro reached known
  exact rest tables held value reached known

theorem settles_require {condition : Bool} {failure : Failure}
    {after : PUnit → Tables → Prop} (fails : condition = false → ∀ tables, before tables →
      faulty failure ∨ gives failure)
    (holds : condition = true → ∀ tables, before tables → after () tables) :
    Settles faulty before
      (require condition failure : Tx Tables Failure PUnit) after
      gives := by
  rw [require]
  split
  · rename_i passes
    exact settles_pure (holds passes)
  · rename_i stops
    exact settles_throw (fails (Bool.eq_false_iff.mpr stops))

theorem settles_require_bind {condition : Bool} {failure : Failure}
    {next : PUnit → Tx Tables Failure Next}
    (fails : condition = false → ∀ tables, before tables → faulty failure ∨ gives failure)
    (rest : condition = true → Settles faulty before (next ()) last gives) :
    Settles faulty before (require condition failure >>= next) last
      gives := by
  have passed : Settles faulty before
      (require condition failure : Tx Tables Failure PUnit)
      (fun _ tables => condition = true ∧ before tables) gives :=
    settles_require fails fun passes _ held => ⟨passes, held⟩
  apply passed.bind
  intro _
  apply settles_of_tables
  intro tables ⟨passes, held⟩
  exact (rest passes).weaken (fun _ same => same ▸ held)
    (fun _ _ ends => ends)

/-! Where nothing is said about failures, none needs to be allowed. -/

theorem keeps_throw (failure : Failure) :
    Keeps before (throw failure : Tx Tables Failure Value) after :=
  settles_throw fun _ _ => Or.inl trivial

theorem keeps_require {condition : Bool} {failure : Failure}
    {after : PUnit → Tables → Prop} (holds : condition = true → ∀ tables, before tables →
      after () tables) :
    Keeps before (require condition failure : Tx Tables Failure PUnit) after :=
  settles_require (fun _ _ _ => Or.inl trivial) holds

theorem keeps_require_bind {condition : Bool} {failure : Failure}
    {next : PUnit → Tx Tables Failure Next}
    (rest : condition = true → Keeps before (next ()) last) :
    Keeps before (require condition failure >>= next) last :=
  settles_require_bind (fun _ _ _ => Or.inl trivial) rest

/-- What the body establishes input by input holds after the loop. -/
theorem settles_forEach {body : Input → Tx Tables Failure Value}
    (holds : List Input → List Value → Tables → Prop) (each : ∀ done values input,
      Settles faulty (holds done values) (body input)
        (fun value tables => holds (done ++ [input]) (values ++ [value])
          tables) gives)
    (inputs : List Input) :
    Settles faulty (holds [] []) (forEach body inputs)
      (fun values tables => holds inputs values tables) gives := by
  have general (done : List Input) (values : List Value)
      (rest : List Input) :
      Settles faulty (holds done values) (forEach body rest)
        (fun others tables => holds (done ++ rest) (values ++ others)
          tables) gives := by
    induction rest generalizing done values with
    | nil =>
        apply settles_pure
        intro tables held
        rw [List.append_nil, List.append_nil]
        exact held
    | cons input rest ih =>
        apply (each done values input).bind
        intro value
        apply (ih (done ++ [input]) (values ++ [value])).bind
        intro others
        apply settles_pure
        intro tables held
        rw [List.append_assoc, List.singleton_append,
          List.append_assoc, List.singleton_append] at held
        exact held
  exact general [] [] inputs

/-! ## Taking effect -/

/-- Run a transaction on the tables. -/
def immediate (circumstances : Circumstances Failure) (uncertain : Failure)
    (program : Tx Tables Failure Value) (tables : Tables) :
    Attempt Tables Failure Value :=
  match circumstances.connection with
  | some failure => { result := .error failure, tables := tables, landed := none }
  | none =>
      match program.exec { tables := tables, fares := circumstances.fares } with
      | (.error failure, _) =>
          { result := .error failure, tables := tables, landed := none }
      | (.ok value, working) =>
          match circumstances.commit with
          | .done =>
              { result := .ok value
                tables := working.tables
                landed := some value }
          | .lost =>
              { result := .error uncertain
                tables := tables
                landed := none }
          | .landed =>
              { result := .error uncertain
                tables := working.tables
                landed := some value }

/-- A transaction takes effect as a whole, or it fails and nothing of it
does; it is reported as uncertain if the commit was. -/
theorem immediate_cases (keeps : Keeps before program after)
    (circumstances : Circumstances Failure) (uncertain : Failure)
    {tables : Tables} (held : before tables) :
    (∃ value,
      (immediate circumstances uncertain program tables).landed = some value ∧
      after value (immediate circumstances uncertain program tables).tables ∧
      ((immediate circumstances uncertain program tables).result =
          .ok value ∨
        (immediate circumstances uncertain program tables).result = .error uncertain)) ∨
    ((immediate circumstances uncertain program tables).landed = none ∧
      (immediate circumstances uncertain program tables).tables = tables ∧
      ∃ failure,
        (immediate circumstances uncertain program tables).result =
          .error failure) := by
  rw [immediate]
  split
  · rename_i failure _
    exact Or.inr ⟨rfl, rfl, failure, rfl⟩
  · split
    · rename_i failure _ _
      exact Or.inr ⟨rfl, rfl, failure, rfl⟩
    · rename_i value working ran
      have starts : (∀ index failure,
          circumstances.fares index = some failure → True) ∧
          before tables :=
        ⟨fun _ _ _ => trivial, held⟩
      have ends := (Program.Meets.ok keeps starts ran).2
      cases circumstances.commit with
      | done => exact Or.inl ⟨value, rfl, ends, Or.inl rfl⟩
      | lost => exact Or.inr ⟨rfl, rfl, uncertain, rfl⟩
      | landed => exact Or.inl ⟨value, rfl, ends, Or.inr rfl⟩

/-- What the program keeps the transaction keeps. -/
theorem immediate_keeps {invariant : Tables → Prop}
    (keeps : Keeps invariant program (fun _ => invariant))
    (circumstances : Circumstances Failure) (uncertain : Failure)
    {tables : Tables} (held : invariant tables) :
    invariant (immediate circumstances uncertain program tables).tables := by
  rcases immediate_cases keeps circumstances uncertain held with
    ⟨_, -, ends, -⟩ | ⟨-, same, -⟩
  · exact ends
  · rw [same]
    exact held

/-- Where no commit lands that is reported as failed, a transaction takes
effect if and only if it succeeds. -/
theorem immediate_landed {circumstances : Circumstances Failure}
    (program : Tx Tables Failure Value) (uncertain : Failure)
    (certain : circumstances.commit ≠ .landed) (tables : Tables) :
    (immediate circumstances uncertain program tables).landed =
      (immediate circumstances uncertain program tables).result.toOption := by
  rw [immediate]
  split
  · rfl
  · split
    · rfl
    · cases outcome : circumstances.commit with
      | done => rfl
      | lost => rfl
      | landed => exact (certain outcome).elim

/-- Where no commit lands that is reported as failed, a transaction that fails
has done nothing. -/
theorem immediate_certain (keeps : Keeps before program after)
    {circumstances : Circumstances Failure} (uncertain : Failure)
    (certain : circumstances.commit ≠ .landed) {tables : Tables} (held : before tables) :
    (∃ value,
      (immediate circumstances uncertain program tables).result = .ok value ∧
      after value (immediate circumstances uncertain program tables).tables) ∨
    ((immediate circumstances uncertain program tables).tables = tables ∧
      ∃ failure,
        (immediate circumstances uncertain program tables).result =
          .error failure) := by
  rw [immediate]
  split
  · rename_i failure _
    exact Or.inr ⟨rfl, failure, rfl⟩
  · split
    · rename_i failure _ _
      exact Or.inr ⟨rfl, failure, rfl⟩
    · rename_i value working ran
      have starts : (∀ index failure,
          circumstances.fares index = some failure → True) ∧
          before tables :=
        ⟨fun _ _ _ => trivial, held⟩
      have ends := (Program.Meets.ok keeps starts ran).2
      cases outcome : circumstances.commit with
      | done => exact Or.inl ⟨value, rfl, ends⟩
      | lost => exact Or.inr ⟨rfl, uncertain, rfl⟩
      | landed => exact (certain outcome).elim

/-- Where the connection and the commit work and no statement fails, a
transaction returns a value or gives up of itself. -/
theorem immediate_healthy (settles : Settles (fun _ => False) before program after gives)
    {circumstances : Circumstances Failure} (uncertain : Failure)
    (connects : circumstances.connection = none)
    (fares : ∀ index, circumstances.fares index = none)
    (commits : circumstances.commit = .done) {tables : Tables} (held : before tables) :
    (∃ value, (immediate circumstances uncertain program tables).result = .ok value) ∨
    (∃ failure,
      (immediate circumstances uncertain program tables).result =
        .error failure ∧ gives failure) := by
  rw [immediate, connects]
  have starts : (∀ index failure,
      circumstances.fares index = some failure → False) ∧
      before tables := by
    refine ⟨fun index failure fails => ?_, held⟩
    rw [fares index] at fails
    cases fails
  dsimp only
  split
  · rename_i failure working stopped
    have ended := Program.Meets.error settles (by exact starts) stopped
    rcases ended with never | given
    · exact never.elim
    · exact Or.inr ⟨failure, rfl, given⟩
  · rename_i value working ran
    rw [commits]
    exact Or.inl ⟨value, rfl⟩

end Tx

end Ratspeak.Library
