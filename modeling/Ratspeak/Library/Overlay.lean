import Mathlib.Data.List.Nodup
import Mathlib.Logic.Function.Basic

/-!
# Writing over a view

A view gives a value to some of the keys.  Writes are laid over it one after
the other, so that writing in batches is writing all at once, and where each
key is written once, the order does not matter.
-/

namespace Ratspeak.Library.Overlay

universe u v

variable {κ : Type u} {ν : Type v} [DecidableEq κ]

/-- The view after the writes. -/
def overwrite (writes : List (κ × Option ν)) (view : κ → Option ν) :
    κ → Option ν :=
  writes.foldl (fun view write => Function.update view write.1 write.2) view

/-- The view without some of the keys. -/
def clear (removed : List κ) (view : κ → Option ν) : κ → Option ν :=
  fun key => if key ∈ removed then none else view key

theorem overwrite_append (first second : List (κ × Option ν)) (view : κ → Option ν) :
    overwrite (first ++ second) view = overwrite second (overwrite first view) :=
  List.foldl_append

theorem overwrite_concat (writes : List (κ × Option ν)) (key : κ)
    (value : Option ν) (view : κ → Option ν) :
    overwrite (writes ++ [(key, value)]) view =
      Function.update (overwrite writes view) key value := by
  rw [overwrite_append]
  rfl

theorem clear_nil (view : κ → Option ν) : clear [] view = view := by
  funext key
  exact if_neg List.not_mem_nil

theorem clear_append (first second : List κ) (view : κ → Option ν) :
    clear (first ++ second) view = clear second (clear first view) := by
  funext key
  simp only [clear, List.mem_append]
  by_cases early : key ∈ first
  · simp [early]
  · simp [early]

theorem clear_concat (removed : List κ) (key : κ) (view : κ → Option ν) :
    clear (removed ++ [key]) view =
      Function.update (clear removed view) key none := by
  funext other
  rw [clear_append, clear, Function.update_apply]
  simp only [List.mem_singleton]

/-- A key that is not written keeps its value. -/
theorem overwrite_of_not_mem {writes : List (κ × Option ν)} {key : κ}
    (spared : key ∉ writes.map Prod.fst) (view : κ → Option ν) :
    overwrite writes view key = view key := by
  induction writes generalizing view with
  | nil => rfl
  | cons write rest ih =>
      rw [List.map_cons, List.mem_cons, not_or] at spared
      have later := ih spared.2 (Function.update view write.1 write.2)
      rw [Function.update_of_ne spared.1] at later
      exact later

/-- A key that is written once has the value that was written. -/
theorem overwrite_of_mem {writes : List (κ × Option ν)}
    (distinct : (writes.map Prod.fst).Nodup) {key : κ} {value : Option ν}
    (written : (key, value) ∈ writes) (view : κ → Option ν) :
    overwrite writes view key = value := by
  induction writes generalizing view with
  | nil => exact absurd written List.not_mem_nil
  | cons write rest ih =>
      rw [List.map_cons, List.nodup_cons] at distinct
      rcases List.mem_cons.mp written with isFirst | later
      · have spared : key ∉ rest.map Prod.fst := by
          rw [← isFirst] at distinct
          exact distinct.1
        have kept := overwrite_of_not_mem spared (Function.update view write.1 write.2)
        rw [← isFirst, Function.update_self] at kept
        rw [← isFirst]
        exact kept
      · exact ih distinct.2 later (Function.update view write.1 write.2)

/-- The value of a key that is written is one that was written to it. -/
theorem mem_of_overwrite {writes : List (κ × Option ν)} {key : κ}
    {value : Option ν} {view : κ → Option ν} (written : key ∈ writes.map Prod.fst)
    (known : overwrite writes view key = value) : (key, value) ∈ writes := by
  induction writes generalizing view with
  | nil => cases written
  | cons write rest ih =>
      by_cases later : key ∈ rest.map Prod.fst
      · exact List.mem_cons_of_mem _ (ih later known)
      · have kept := overwrite_of_not_mem later
          (Function.update view write.1 write.2)
        have isFirst : key = write.1 :=
          (List.mem_cons.mp written).resolve_right later
        change overwrite rest (Function.update view write.1 write.2) key = value at known
        rw [kept, isFirst, Function.update_self] at known
        rw [isFirst, ← known]
        exact List.mem_cons_self

end Ratspeak.Library.Overlay
