import Mathlib.Data.List.Basic

/-!
# Lists in pieces

A list split into pieces of at most a given length, which together are the
list again.
-/

namespace Ratspeak.Library

/-- Split a list into pieces of at most `length` items. -/
def chunksOf {α : Type} (length : Nat) : Nat → List α → List (List α)
  | 0, _ => []
  | _ + 1, [] => []
  | fuel + 1, items => items.take length :: chunksOf length fuel (items.drop length)

theorem flatten_chunksOf {α : Type} {length : Nat} (positive : 0 < length)
    (fuel : Nat) (items : List α) (enough : items.length ≤ fuel) :
    (chunksOf length fuel items).flatten = items := by
  induction fuel generalizing items with
  | zero =>
      have empty : items = [] := List.length_eq_zero_iff.mp (by omega)
      subst empty
      rfl
  | succ fuel ih =>
      cases items with
      | nil => rfl
      | cons head tail =>
          have shorter : ((head :: tail).drop length).length ≤ fuel := by
            simp only [List.length_drop, List.length_cons] at enough ⊢
            omega
          rw [chunksOf, List.flatten_cons, ih _ shorter, List.take_append_drop]
          simp

end Ratspeak.Library
