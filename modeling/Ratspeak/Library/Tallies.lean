import Mathlib.Algebra.BigOperators.Group.List.Basic
import Mathlib.Algebra.BigOperators.Ring.Finset
import Mathlib.Algebra.Order.Ring.Int
import Ratspeak.Library.FiniteMap

/-!
# Tallies

Rows fall into groups, and each row has a size.  A tally says for each group
that has rows how many they are and how large they are together.  It is kept
by two triggers, one for an insertion and one for a deletion; as long as only
these change it, it is exact, and a sum over some of its entries is a sum over
the rows of their groups.
-/

namespace Ratspeak.Library

/-- The number of rows of a group, and their size. -/
structure Tally where
  count : Int
  size : Int
deriving DecidableEq, Repr

namespace Tally

variable {Row Group : Type} [DecidableEq Group] (group : Row → Group)
  (size : Row → Nat)

/-- What a trigger does after a row was inserted. -/
def afterInsert (row : Row) (tallies : FiniteMap Group Tally) :
    FiniteMap Group Tally :=
  tallies.insert (group row)
    (match tallies.lookup (group row) with
    | none => { count := 1, size := size row }
    | some tally => { count := tally.count + 1, size := tally.size + size row })

/-- What a trigger does after a row was deleted. -/
def afterDelete (row : Row) (tallies : FiniteMap Group Tally) :
    FiniteMap Group Tally :=
  match tallies.lookup (group row) with
  | none => tallies
  | some tally =>
      if tally.count - 1 = 0 then tallies.erase (group row)
      else
        tallies.insert (group row) { count := tally.count - 1, size := tally.size - size row }

/-- The rows of a group. -/
def members (rows : List Row) (tested : Group) : List Row :=
  rows.filter fun row => group row = tested

/-- The size of some rows together. -/
def totalSize (rows : List Row) : Nat :=
  (rows.map size).sum

/-- Each group with rows is tallied, and no other. -/
def Exact (tallies : FiniteMap Group Tally) (rows : List Row) : Prop :=
  ∀ tested, tallies.lookup tested =
    if members group rows tested = [] then none
    else
      some
        { count := (members group rows tested).length
          size := totalSize size (members group rows tested) }

variable {group size} {tallies : FiniteMap Group Tally}
  {rows other : List Row}

theorem exact_nil : Exact group size (∅ : FiniteMap Group Tally) [] :=
  fun _ => rfl

theorem totalSize_perm (perm : rows.Perm other) :
    totalSize size rows = totalSize size other :=
  (perm.map size).sum_eq

theorem totalSize_cons (row : Row) (rows : List Row) :
    totalSize size (row :: rows) = size row + totalSize size rows := by
  rw [totalSize, List.map_cons, List.sum_cons]
  rfl

theorem totalSize_append (first second : List Row) :
    totalSize size (first ++ second) =
      totalSize size first + totalSize size second := by
  rw [totalSize, List.map_append, List.sum_append]
  rfl

theorem cast_totalSize (rows : List Row) :
    (totalSize size rows : Int) = (rows.map fun row => (size row : Int)).sum := by
  rw [totalSize, Nat.cast_list_sum, List.map_map]
  rfl

/-- The order of the rows does not matter. -/
theorem Exact.perm (exact : Exact group size tallies rows)
    (perm : rows.Perm other) : Exact group size tallies other := by
  intro tested
  have members : (members group rows tested).Perm
      (members group other tested) :=
    perm.filter _
  rw [exact tested, members.length_eq, totalSize_perm members]
  have empty : Tally.members group rows tested = [] ↔
      Tally.members group other tested = [] := by
    rw [← List.length_eq_zero_iff, ← List.length_eq_zero_iff, members.length_eq]
  by_cases none_there : Tally.members group other tested = []
  · rw [if_pos none_there, if_pos (empty.mpr none_there)]
  · rw [if_neg none_there, if_neg (none_there ∘ empty.mp)]

private theorem members_cons (row : Row) (rows : List Row) (tested : Group) :
    members group (row :: rows) tested =
      if group row = tested then row :: members group rows tested
      else members group rows tested := by
  simp [members, List.filter_cons]

/-- The trigger for an insertion keeps a tally exact. -/
theorem Exact.insert (exact : Exact group size tallies rows) (row : Row) :
    Exact group size (afterInsert group size row tallies)
      (rows ++ [row]) := by
  have atFront : Exact group size (afterInsert group size row tallies)
      (row :: rows) := by
    intro tested
    rw [afterInsert, FiniteMap.lookup_insert_ite, members_cons]
    by_cases isOwn : group row = tested
    · subst isOwn
      rw [if_pos rfl, if_pos rfl, if_neg (List.cons_ne_nil _ _),
        exact (group row)]
      by_cases empty : members group rows (group row) = []
      · simp [empty, totalSize]
      · simp [empty, totalSize, add_comm]
    · rw [if_neg (Ne.symm isOwn), if_neg isOwn]
      exact exact tested
  exact atFront.perm (List.perm_append_singleton row rows).symm

/-- The trigger for a deletion keeps a tally exact. -/
theorem Exact.delete {row : Row} (exact : Exact group size tallies (row :: rows)) :
    Exact group size (afterDelete group size row tallies) rows := by
  intro tested
  have own := exact (group row)
  rw [members_cons, if_pos rfl, if_neg (List.cons_ne_nil _ _)] at own
  rw [afterDelete, own]
  by_cases isOwn : tested = group row
  · subst isOwn
    by_cases empty : members group rows (group row) = []
    · simp [empty]
    · simp [empty, totalSize]
  · have same : (if ((row :: members group rows (group row)).length :
        Int) - 1 = 0 then tallies.erase (group row)
        else tallies.insert (group row)
          { count :=
              ((row :: members group rows (group row)).length : Int) - 1
            size :=
              (totalSize size (row :: members group rows (group row)) : Int) -
                size row }).lookup tested = tallies.lookup tested := by
      split <;> simp [isOwn]
    have others := exact tested
    rw [members_cons, if_neg (Ne.symm isOwn)] at others
    exact same.trans others

/-- Deleting rows one by one keeps a tally exact. -/
theorem Exact.deleteAll {removed kept : List Row}
    (exact : Exact group size tallies (removed ++ kept)) :
    Exact group size
      (removed.foldl (fun tallies row => afterDelete group size row tallies)
        tallies) kept := by
  induction removed generalizing tallies with
  | nil => exact exact
  | cons row rest ih => exact ih exact.delete

/-! ## Sums -/

/-- Summing over groups is summing over their rows. -/
private theorem sum_members (measure : Row → Int) (rows : List Row)
    {groups : List Group} (nodup : groups.Nodup)
    (keep : Group → Bool) (kept : ∀ tested ∈ groups, keep tested = true)
    (covers : ∀ row ∈ rows, keep (group row) = true → group row ∈ groups) :
    (groups.map fun tested =>
        ((members group rows tested).map measure).sum).sum =
      ((rows.filter fun row => keep (group row)).map measure).sum := by
  induction rows with
  | nil => simp [members]
  | cons row rest ih =>
      have earlier := ih fun other member =>
        covers other (List.mem_cons_of_mem row member)
      have split_off (tested : Group) :
          ((members group (row :: rest) tested).map measure).sum =
            (if tested = group row then measure row else 0) +
              ((members group rest tested).map measure).sum := by
        rw [members_cons]
        by_cases isOwn : group row = tested
        · simp [isOwn]
        · simp [isOwn, Ne.symm isOwn]
      have once : (groups.map fun tested =>
          if tested = group row then measure row else 0).sum =
            if keep (group row) then measure row else 0 := by
        by_cases keeps : keep (group row) = true
        · have there := covers row List.mem_cons_self keeps
          rw [List.sum_map_ite_eq, if_pos keeps, List.count_eq_one_of_mem nodup there]
          simp
        · have absent : group row ∉ groups :=
            fun there => keeps (kept _ there)
          rw [List.sum_map_ite_eq, if_neg keeps, List.count_eq_zero_of_not_mem absent]
          simp
      simp only [split_off, List.sum_map_add, once, earlier]
      rw [List.filter_cons]
      split
      · simp
      · simp

/-- The entries of some of the groups. -/
def select (keep : Group → Bool) (tallies : FiniteMap Group Tally) :
    List Tally :=
  ((FiniteMap.bindings tallies).filter fun entry => keep entry.1).map
    Prod.snd

/-- A measure of the members of each group, summed over the entries. -/
private theorem Exact.sum_select (exact : Exact group size tallies rows)
    (keep : Group → Bool) (measure : Row → Int) (read : Tally → Int) (reads : ∀ tested, read
        { count := (members group rows tested).length
          size := totalSize size (members group rows tested) } =
      ((members group rows tested).map measure).sum) :
    ((select keep tallies).map read).sum =
      ((rows.filter fun row => keep (group row)).map measure).sum := by
  let entries :=
    (FiniteMap.bindings tallies).filter fun entry => keep entry.1
  have bound (entry : Group × Tally) (member : entry ∈ entries) :
      tallies.lookup entry.1 = some entry.2 ∧ keep entry.1 = true := by
    obtain ⟨listed, keeps⟩ := List.mem_filter.mp member
    exact ⟨(FiniteMap.mem_bindings_iff _ _ _).mp listed, keeps⟩
  have nodup : (entries.map Prod.fst).Nodup := by
    have keys : ((FiniteMap.bindings tallies).map Prod.fst).Nodup := by
      rw [FiniteMap.bindings, List.map_map]
      exact tallies.nodupKeys
    exact keys.sublist (List.filter_sublist.map _)
  have kept (tested : Group) (member : tested ∈ entries.map Prod.fst) :
      keep tested = true := by
    obtain ⟨entry, listed, isTested⟩ := List.mem_map.mp member
    exact isTested ▸ (bound entry listed).2
  have covers (row : Row) (member : row ∈ rows)
      (keeps : keep (group row) = true) :
      group row ∈ entries.map Prod.fst := by
    have some_there : members group rows (group row) ≠ [] := by
      apply List.ne_nil_of_mem (a := row)
      simp [members, member]
    have found := exact (group row)
    rw [if_neg some_there] at found
    have listed := (FiniteMap.mem_bindings_iff _ _ _).mpr found
    exact List.mem_map.mpr ⟨_, List.mem_filter.mpr ⟨listed, keeps⟩, rfl⟩
  rw [← sum_members measure rows nodup keep kept covers, select, List.map_map, List.map_map]
  apply congrArg List.sum
  apply List.map_congr_left
  intro entry member
  have found := exact entry.1
  rw [(bound entry member).1] at found
  split at found
  · cases found
  · rw [Function.comp_apply, Function.comp_apply, ← reads entry.1, ← Option.some.inj found]

/-- The counts of some groups add up to the number of their rows. -/
theorem Exact.count_select (exact : Exact group size tallies rows) (keep : Group → Bool) :
    ((select keep tallies).map Tally.count).sum =
      ((rows.filter fun row => keep (group row)).length : Int) := by
  rw [exact.sum_select keep (fun _ => 1) Tally.count fun tested => by simp]
  simp

/-- The sizes of some groups add up to the size of their rows. -/
theorem Exact.size_select (exact : Exact group size tallies rows) (keep : Group → Bool) :
    ((select keep tallies).map Tally.size).sum =
      (totalSize size (rows.filter fun row => keep (group row)) : Int) := by
  rw [exact.sum_select keep (fun row => size row) Tally.size fun tested =>
    cast_totalSize _, cast_totalSize]

end Tally

end Ratspeak.Library
