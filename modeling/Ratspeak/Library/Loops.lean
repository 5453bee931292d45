import Mathlib.Data.Option.Basic

/-!
# Loops

A `while` loop whose rounds change a state and may fail, run for a given
number of rounds.  The rule of total correctness takes an invariant and a
measure: with as many rounds as the measure allows the loop comes to its end,
and there the invariant holds and the condition does not.
-/

namespace Ratspeak.Library

variable {State : Type}

/-- The loop `while going do body` from a state.  There is no result while the
condition still holds after the last round, and none when a round has none. -/
def whileLoop (going : State → Bool) (body : State → Option State) :
    Nat → State → Option State
  | 0, state => if going state then none else some state
  | rounds + 1, state =>
      if going state then
        (body state).bind (whileLoop going body rounds)
      else some state

variable {going : State → Bool} {body : State → Option State}

theorem whileLoop_of_not_going {state : State} (stopped : going state = false) (rounds : Nat) :
    whileLoop going body rounds state = some state := by
  cases rounds with
  | zero => rw [whileLoop, if_neg (by simp [stopped])]
  | succ rounds => rw [whileLoop, if_neg (by simp [stopped])]

theorem whileLoop_of_going {state next : State}
    (goes : going state = true) (round : body state = some next) (rounds : Nat) :
    whileLoop going body (rounds + 1) state =
      whileLoop going body rounds next := by
  rw [whileLoop, if_pos goes, round]
  rfl

/-- A loop ends in its invariant when every round keeps the invariant and
lowers the measure. -/
theorem whileLoop_total (invariant : State → Prop) (measure : State → Nat)
    (round : ∀ state, invariant state → going state = true →
      ∃ next, body state = some next ∧ invariant next ∧ measure next < measure state)
    {rounds : Nat} {state : State} (start : invariant state) (enough : measure state ≤ rounds) :
    ∃ final, whileLoop going body rounds state = some final ∧
      invariant final ∧ going final = false := by
  induction rounds generalizing state with
  | zero =>
      cases goes : going state with
      | false => exact ⟨state, whileLoop_of_not_going goes 0, start, goes⟩
      | true =>
          obtain ⟨next, _, _, lower⟩ := round state start goes
          omega
  | succ rounds ih =>
      cases goes : going state with
      | false => exact ⟨state, whileLoop_of_not_going goes _, start, goes⟩
      | true =>
          obtain ⟨next, ran, kept, lower⟩ := round state start goes
          have left : measure next ≤ rounds := by omega
          obtain ⟨final, ended, holds, stopped⟩ :=
            ih kept left
          exact ⟨final, (whileLoop_of_going goes ran rounds).trans ended, holds, stopped⟩

end Ratspeak.Library
