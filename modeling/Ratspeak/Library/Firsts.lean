import Mathlib.Data.List.Induction
import Mathlib.Data.Set.Function

/-!
# First appearances

`List.eraseDups` keeps the first appearance of every item.  It commutes with
maps that keep the items apart, and so two lists with the same pattern of
equal items have their first appearances at the same places.
-/

namespace Ratspeak.Library

universe u v

variable {α : Type u} {β : Type v} [BEq α] [LawfulBEq α] [BEq β]
  [LawfulBEq β]

omit [BEq β] [LawfulBEq β] in
theorem eraseDups_concat_of_mem {items : List α} {item : α} (known : item ∈ items) :
    (items ++ [item]).eraseDups = items.eraseDups := by
  rw [List.eraseDups_append]
  simp [known, List.removeAll]

omit [BEq β] [LawfulBEq β] in
theorem eraseDups_concat_of_not_mem {items : List α} {item : α} (fresh : item ∉ items) :
    (items ++ [item]).eraseDups = items.eraseDups ++ [item] := by
  have alone : [item].eraseDups = [item] := rfl
  have kept : [item].removeAll items = [item] := by
    simp [fresh, List.removeAll]
  rw [List.eraseDups_append, kept, alone]

omit [BEq β] [LawfulBEq β] in
theorem nodup_eraseDups (items : List α) : items.eraseDups.Nodup := by
  induction items using List.reverseRecOn with
  | nil => exact List.nodup_nil
  | append_singleton items last ih =>
      by_cases known : last ∈ items
      · rw [eraseDups_concat_of_mem known]
        exact ih
      · rw [eraseDups_concat_of_not_mem known, List.nodup_append]
        refine ⟨ih, by simp, ?_⟩
        intro first inside second single equal
        rw [List.mem_singleton.mp single] at equal
        exact known (List.mem_eraseDups.mp (equal ▸ inside))

/-- A map that keeps the items apart keeps their first appearances. -/
theorem eraseDups_map {image : α → β} {items : List α}
    (apart : ∀ first ∈ items, ∀ second ∈ items, image first = image second → first = second) :
    (items.map image).eraseDups = items.eraseDups.map image := by
  induction items using List.reverseRecOn with
  | nil => rfl
  | append_singleton items last ih =>
      have earlier : (items.map image).eraseDups =
          items.eraseDups.map image :=
        ih fun first one second other =>
          apart first (by simp [one]) second (by simp [other])
      rw [List.map_append, List.map_singleton]
      by_cases known : last ∈ items
      · rw [eraseDups_concat_of_mem known,
          eraseDups_concat_of_mem (List.mem_map_of_mem known), earlier]
      · have fresh : image last ∉ items.map image := by
          intro inside
          obtain ⟨other, member, equal⟩ := List.mem_map.mp inside
          have found := apart other (by simp [member]) last (by simp) equal
          exact known (found ▸ member)
        rw [eraseDups_concat_of_not_mem known,
          eraseDups_concat_of_not_mem fresh, earlier, List.map_append]
        rfl

/-- Items are equal in one list where they are equal in the other one. -/
def SamePattern (first : List α) (second : List β) : Prop :=
  first.length = second.length ∧
    ∀ pair ∈ first.zip second, ∀ other ∈ first.zip second, pair.1 = other.1 ↔ pair.2 = other.2

/-- The first appearances of two lists with the same pattern are those of
their pairs. -/
theorem SamePattern.eraseDups {first : List α} {second : List β}
    (pattern : SamePattern first second) :
    first.eraseDups = (first.zip second).eraseDups.map Prod.fst ∧
      second.eraseDups = (first.zip second).eraseDups.map Prod.snd := by
  obtain ⟨lengths, same⟩ := pattern
  constructor
  · have mapped : ((first.zip second).map Prod.fst).eraseDups =
        (first.zip second).eraseDups.map Prod.fst :=
      eraseDups_map fun pair inside other member equal =>
        Prod.ext equal ((same pair inside other member).mp equal)
    rw [← mapped, List.map_fst_zip (by omega)]
  · have mapped : ((first.zip second).map Prod.snd).eraseDups =
        (first.zip second).eraseDups.map Prod.snd :=
      eraseDups_map fun pair inside other member equal =>
        Prod.ext ((same pair inside other member).mpr equal) equal
    rw [← mapped, List.map_snd_zip (by omega)]

end Ratspeak.Library
