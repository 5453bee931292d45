import Mathlib.Data.List.Infix
import Mathlib.Data.List.Induction

/-!
# The longest suffix that fits

A window over a growing list shows the longest suffix with a property that
every shorter suffix shares.  When the list grows by one entry, the next
window lies within the one before and that entry.
-/

namespace Ratspeak.Library

variable {Entry : Type}

/-- `kept` is the longest suffix of `all` that fits. -/
structure LongestSuffix (fits : List Entry → Prop)
    (all kept : List Entry) : Prop where
  suffix : kept <:+ all
  holds : fits kept
  longest : ∀ other, other <:+ all → fits other → other.length ≤ kept.length

variable {fits : List Entry → Prop} {all kept : List Entry}

theorem LongestSuffix.nil (empty : fits []) : LongestSuffix fits [] [] := by
  refine ⟨List.suffix_refl [], empty, ?_⟩
  intro other suffix _
  rw [List.suffix_nil.mp suffix]

/-- What is the longest within the window and the new entry is the longest
within the whole list and the new entry. -/
theorem LongestSuffix.push {entry : Entry} {next : List Entry}
    (window : LongestSuffix fits all kept)
    (shorter : ∀ front, fits (front ++ [entry]) → fits front)
    (within : LongestSuffix fits (kept ++ [entry]) next) :
    LongestSuffix fits (all ++ [entry]) next := by
  obtain ⟨before, parts⟩ := window.suffix
  refine ⟨?_, within.holds, ?_⟩
  · refine within.suffix.trans ⟨before, ?_⟩
    rw [← List.append_assoc, parts]
  · intro other suffix fitting
    rcases List.eq_nil_or_concat other with empty | ⟨front, last, whole⟩
    · rw [empty]
      exact Nat.zero_le _
    · rw [List.concat_eq_append] at whole
      rw [whole] at suffix fitting ⊢
      obtain ⟨start, equal⟩ := suffix
      rw [← List.append_assoc] at equal
      obtain ⟨inAll, sameLast⟩ := List.append_inj' equal rfl
      have isEntry : last = entry := by simpa using sameLast
      rw [isEntry] at fitting ⊢
      have frontSuffix : front <:+ all := ⟨start, inAll⟩
      have short := window.longest front frontSuffix (shorter front fitting)
      have inKept : front <:+ kept :=
        List.suffix_of_suffix_length_le frontSuffix window.suffix short
      obtain ⟨rest, kept⟩ := inKept
      refine within.longest _ ⟨rest, ?_⟩ fitting
      rw [← List.append_assoc, kept]

end Ratspeak.Library
