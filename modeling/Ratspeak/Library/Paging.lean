import Mathlib.Data.List.Sort

/-!
# Pages of an ordered table

The rows of a table have places, and no two of them the same one.  A query
sorts rows by their places, upwards or downwards, and takes one row more than
a page holds: whether that row is there tells whether the page leaves any
out.
-/

namespace Ratspeak.Library

variable {Row : Type}

/-- The first rows upwards. -/
def upwards (place : Row → Nat) (limit : Nat) (rows : List Row) : List Row :=
  (rows.mergeSort fun first second => place first ≤ place second).take limit

/-- The first rows downwards. -/
def downwards (place : Row → Nat) (limit : Nat) (rows : List Row) :
    List Row :=
  (rows.mergeSort fun first second => place second ≤ place first).take limit

/-- The rows stand in the order of their places. -/
abbrev Placed (place : Row → Nat) (rows : List Row) : Prop :=
  rows.Pairwise fun first second => place first < place second

variable {place : Row → Nat} {rows : List Row}

end Ratspeak.Library
