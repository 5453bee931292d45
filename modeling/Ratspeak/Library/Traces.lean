import Ratspeak.Library.Runs

/-!
# Traces and what holds since

The trace of a run has an entry for each input, with what the machine
answered to it.  `Since` says of a trace that something happened in it, and
that everything after it was quiet.  What each step keeps of a trace and of
the state that it leads to, every run keeps.
-/

namespace Ratspeak.Library

universe u v w

section Since

variable {Entry : Type u} {quiet happened : Entry → Prop}

/-- Something happened, and since then all was quiet. -/
def Since (quiet happened : Entry → Prop) (trace : List Entry) : Prop :=
  ∃ early entry late, trace = early ++ entry :: late ∧ happened entry ∧
    ∀ later ∈ late, quiet later

theorem Since.now (trace : List Entry) {entry : Entry}
    (happens : happened entry) : Since quiet happened (trace ++ [entry]) :=
  ⟨trace, entry, [], rfl, happens, by simp⟩

theorem Since.still {trace : List Entry} {entry : Entry}
    (since : Since quiet happened trace) (silent : quiet entry) :
    Since quiet happened (trace ++ [entry]) := by
  obtain ⟨early, found, late, split, happens, silence⟩ := since
  refine ⟨early, found, late ++ [entry], ?_, happens, ?_⟩
  · rw [split, List.append_assoc, List.cons_append]
  · intro later member
    rcases List.mem_append.mp member with inLate | isLast
    · exact silence later inLate
    · rw [List.mem_singleton.mp isLast]
      exact silent

end Since

variable {State : Type u} {Input : Type v} {Answer : Type w}

/-- The inputs of a run, each with the answer to it. -/
def traceFrom (answer : State → Input → Answer) (next : Answer → State) :
    State → List Input → List (Input × Answer)
  | _, [] => []
  | state, input :: rest =>
      (input, answer state input) :: traceFrom answer next (next (answer state input)) rest

/-- What every step keeps of the trace and of the state it leads to holds
after every run. -/
theorem invariant_traceFrom {answer : State → Input → Answer}
    {next : Answer → State} {holds : List (Input × Answer) → State → Prop}
    (kept : ∀ trace state input, holds trace state →
      holds (trace ++ [(input, answer state input)]) (next (answer state input)))
    {state : State} (inputs : List Input) (initially : holds [] state) :
    holds (traceFrom answer next state inputs)
      (runFrom (fun state input => next (answer state input)) state
        inputs) := by
  have general : ∀ (trace : List (Input × Answer)) (state : State),
      holds trace state →
        holds (trace ++ traceFrom answer next state inputs)
          (runFrom (fun state input => next (answer state input)) state
            inputs) := by
    induction inputs with
    | nil =>
        intro trace state before
        rw [traceFrom, List.append_nil]
        exact before
    | cons input rest ih =>
        intro trace state before
        have after := ih _ _ (kept trace state input before)
        rw [List.append_assoc] at after
        exact after
  exact general [] state initially

end Ratspeak.Library
