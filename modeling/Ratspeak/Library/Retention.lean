import Mathlib.Order.Bounds.Basic
import Ratspeak.Library.Tallies

/-!
# Retention

Rows in order, the oldest first, are kept within a number and a size.  A
statement with window functions numbers the rows and sums their sizes up; it
removes a row if its number is within the excess number, or if the size before
it is less than the excess size.  What it removes is the smallest prefix after
which the rest is within both limits.
-/

namespace Ratspeak.Library

open Tally

variable {Row : Type} (size : Row → Nat)

/-- The rows, each with its number and the size up to it. -/
def windowed : Nat → Nat → List Row → List (Row × Nat × Nat)
  | _, _, [] => []
  | number, total, row :: rest =>
      (row, number + 1, total + size row) :: windowed (number + 1) (total + size row) rest

/-- The condition of a row for being removed. -/
def exceeds (excessCount excessSize : Int) (entry : Row × Nat × Nat) :
    Bool :=
  (entry.2.1 : Int) ≤ excessCount || (entry.2.2 : Int) - size entry.1 < excessSize

/-- The rows that are removed. -/
def excessRows (excessCount excessSize : Int) (rows : List Row) :
    List Row :=
  ((windowed size 0 0 rows).filter (exceeds size excessCount excessSize)).map Prod.fst

variable {size} {excessCount excessSize : Int}

/-- Once a row stays, all later ones stay. -/
private theorem filter_windowed_nil {number total : Nat}
    (counted : excessCount ≤ number) (summed : excessSize ≤ total) (rows : List Row) :
    (windowed size number total rows).filter
      (exceeds size excessCount excessSize) = [] := by
  induction rows generalizing number total with
  | nil => rfl
  | cons row rest ih =>
      have stays : exceeds size excessCount excessSize
          (row, number + 1, total + size row) = false := by
        simp only [exceeds, Bool.or_eq_false_iff, decide_eq_false_iff_not]
        omega
      rw [windowed, List.filter_cons, stays]
      exact ih (by omega) (by omega)

/-- The removed rows are a prefix: each row in it was within an excess, and
the first row after it is not. -/
private theorem filter_windowed (number total : Nat) (rows : List Row) :
    ∃ kept ≤ rows.length,
      ((windowed size number total rows).filter
        (exceeds size excessCount excessSize)).map Prod.fst = rows.take kept ∧
      (∀ earlier < kept, (number + earlier + 1 : Int) ≤ excessCount ∨
        (total + totalSize size (rows.take earlier) : Int) < excessSize) ∧
      (kept < rows.length → excessCount ≤ number + kept ∧
        excessSize ≤ total + totalSize size (rows.take kept)) := by
  induction rows generalizing number total with
  | nil =>
      exact ⟨0, Nat.le_refl 0, rfl, fun _ less => (nomatch less),
        fun less => (nomatch less)⟩
  | cons row rest ih =>
      cases removed : exceeds size excessCount excessSize
          (row, number + 1, total + size row) with
      | false =>
          simp only [exceeds, Bool.or_eq_false_iff,
            decide_eq_false_iff_not] at removed
          refine ⟨0, Nat.zero_le _, ?_, fun _ less => (nomatch less),
            fun _ => ⟨by omega, ?_⟩⟩
          · rw [filter_windowed_nil (by omega) (by omega) (row :: rest)]
            rfl
          · have nothing : totalSize size ((row :: rest).take 0) = 0 :=
              rfl
            omega
      | true =>
          obtain ⟨kept, inRange, isPrefix, within, ends⟩ :=
            ih (number + 1) (total + size row)
          refine ⟨kept + 1, ?_, ?_, ?_, ?_⟩
          · rw [List.length_cons]
            omega
          · rw [windowed, List.filter_cons, removed, if_pos rfl,
              List.map_cons, isPrefix, List.take_succ_cons]
          · intro earlier less
            cases earlier with
            | zero =>
                simp only [exceeds, Bool.or_eq_true,
                  decide_eq_true_eq] at removed
                have nothing : totalSize size ((row :: rest).take 0) = 0 :=
                  rfl
                omega
            | succ earlier =>
                have held := within earlier (by omega)
                rw [List.take_succ_cons, totalSize_cons]
                omega
          · intro less
            have held := ends (by rw [List.length_cons] at less; omega)
            rw [List.take_succ_cons, totalSize_cons]
            omega

/-- The rows after a prefix are within both limits. -/
def Fits (size : Row → Nat) (maxCount maxSize : Nat) (rows : List Row) :
    Prop :=
  rows.length ≤ maxCount ∧ totalSize size rows ≤ maxSize

/-- What is removed is the smallest prefix after which the rest fits. -/
theorem excessRows_least (size : Row → Nat) (maxCount maxSize : Nat) (rows : List Row) :
    ∃ removed,
      excessRows size ((rows.length : Int) - maxCount)
        ((totalSize size rows : Int) - maxSize) rows = rows.take removed ∧
      IsLeast {removed | Fits size maxCount maxSize (rows.drop removed)}
        removed := by
  obtain ⟨removed, inRange, isPrefix, within, ends⟩ :=
    @filter_windowed Row size ((rows.length : Int) - maxCount)
      ((totalSize size rows : Int) - maxSize) 0 0 rows
  have whole (index : Nat) : totalSize size rows =
      totalSize size (rows.take index) + totalSize size (rows.drop index) := by
    rw [← totalSize_append, List.take_append_drop]
  refine ⟨removed, isPrefix, ?_, ?_⟩
  · by_cases all : removed < rows.length
    · obtain ⟨counted, summed⟩ := ends all
      have sum := whole removed
      refine ⟨?_, ?_⟩
      · rw [List.length_drop]
        omega
      · omega
    · have none_left : rows.drop removed = [] :=
        List.drop_eq_nil_of_le (by omega)
      change Fits size maxCount maxSize (rows.drop removed)
      rw [none_left]
      exact ⟨Nat.zero_le _, Nat.zero_le _⟩
  · intro index ⟨counted, summed⟩
    by_contra less
    have sum := whole index
    rw [List.length_drop] at counted
    rcases within index (by omega) with number | total
    · omega
    · omega

private theorem totalSize_sublist {rows fewer : List Row} (sublist : fewer.Sublist rows) :
    totalSize size fewer ≤ totalSize size rows := by
  induction sublist with
  | slnil => exact Nat.le_refl _
  | cons row rest ih =>
      rw [totalSize_cons]
      omega
  | cons_cons row rest ih =>
      rw [totalSize_cons, totalSize_cons]
      omega

theorem Fits.sublist {maxCount maxSize : Nat} {rows fewer : List Row}
    (fits : Fits size maxCount maxSize rows) (sublist : fewer.Sublist rows) :
    Fits size maxCount maxSize fewer :=
  ⟨sublist.length_le.trans fits.1, (totalSize_sublist sublist).trans fits.2⟩

/-- Removing by name what a prefix names leaves the rest. -/
theorem filter_not_mem_take {Name : Type} [DecidableEq Name]
    {name : Row → Name} {rows : List Row} (nodup : (rows.map name).Nodup) (removed : Nat) :
    rows.filter (fun row =>
      !decide (name row ∈ (rows.take removed).map name)) =
        rows.drop removed := by
  have whole : rows.take removed ++ rows.drop removed = rows :=
    List.take_append_drop removed rows
  have disjoint : ∀ row ∈ rows.drop removed,
      name row ∉ (rows.take removed).map name := by
    intro row later earlier
    rw [← whole, List.map_append, List.nodup_append] at nodup
    exact nodup.2.2 (name row) earlier (name row) (List.mem_map_of_mem later) rfl
  have split_off : rows.filter (fun row =>
      !decide (name row ∈ (rows.take removed).map name)) =
      (rows.take removed ++ rows.drop removed).filter (fun row =>
        !decide (name row ∈ (rows.take removed).map name)) := by
    rw [whole]
  rw [split_off, List.filter_append]
  have front : (rows.take removed).filter (fun row =>
      !decide (name row ∈ (rows.take removed).map name)) = [] := by
    rw [List.filter_eq_nil_iff]
    intro row member
    have named : name row ∈ (rows.take removed).map name :=
      List.mem_map_of_mem member
    rw [decide_eq_true named]
    exact Bool.false_ne_true
  have back : (rows.drop removed).filter (fun row =>
      !decide (name row ∈ (rows.take removed).map name)) =
      rows.drop removed := by
    rw [List.filter_eq_self]
    intro row member
    simpa using disjoint row member
  rw [front, back, List.nil_append]

end Ratspeak.Library
