import Mathlib.Algebra.Ring.Nat
import Mathlib.Data.List.Nodup
import Mathlib.Logic.Function.Basic

/-!
# Tagged fields

A body is a sequence of fields, each a tag byte, a length byte and a value of
that length.  A reader folds over the fields; it may give up at any of them.

A reader has slots when the state it has reached is determined by the last
value of each tag, and when a value is refused or not whatever came before.
What such a reader makes of a body depends only on the order of the fields
with equal tags, and a field that no slot looks at makes no difference.
-/

namespace Ratspeak.Library

universe u

structure TlvField where
  tag : UInt8
  value : List UInt8
  short : value.length < 256
deriving DecidableEq

def TlvField.wire (field : TlvField) : List UInt8 :=
  field.tag :: UInt8.ofNat field.value.length :: field.value

def tlvBytes (fields : List TlvField) : List UInt8 :=
  fields.flatMap TlvField.wire

variable {State : Type u}

/-- Read the fields of a body one after the other. -/
def tlvFold (step : State → UInt8 → List UInt8 → Option State) :
    State → List UInt8 → Option State
  | state, [] => some state
  | _, [_] => none
  | state, tag :: len :: tail =>
      if tail.length < len.toNat then none
      else do
        let next ← step state tag (tail.take len.toNat)
        tlvFold step next (tail.drop len.toNat)
termination_by _ bytes => bytes.length
decreasing_by
  simp only [List.length_drop, List.length_cons]
  omega

variable {step : State → UInt8 → List UInt8 → Option State}
  {state final : State}

theorem tlvFold_nil : tlvFold step state [] = some state := by
  rw [tlvFold]

theorem tlvFold_wire (field : TlvField) (rest : List UInt8) :
    tlvFold step state (field.wire ++ rest) =
      (step state field.tag field.value).bind
        (fun next => tlvFold step next rest) := by
  have size : (UInt8.ofNat field.value.length).toNat =
      field.value.length :=
    UInt8.toNat_ofNat_of_lt' field.short
  have enough : ¬(field.value ++ rest).length <
      (UInt8.ofNat field.value.length).toNat := by
    rw [size, List.length_append]
    omega
  rw [TlvField.wire, List.cons_append, List.cons_append, tlvFold,
    if_neg enough, size, List.take_left, List.drop_left]
  rfl

/-- Reading the bytes of fields is folding over them. -/
theorem tlvFold_tlvBytes (fields : List TlvField) :
    tlvFold step state (tlvBytes fields) =
      fields.foldlM
        (fun state field => step state field.tag field.value) state := by
  induction fields generalizing state with
  | nil => exact tlvFold_nil
  | cons field rest ih =>
      rw [tlvBytes, List.flatMap_cons, tlvFold_wire, List.foldlM_cons]
      refine Option.bind_congr ?_
      intro next _
      exact ih

/-- A body that is read to its end consists of fields. -/
theorem fields_of_tlvFold {bytes : List UInt8} (read : tlvFold step state bytes = some final) :
    ∃ fields, bytes = tlvBytes fields := by
  induction state, bytes using tlvFold.induct with
  | case1 state => exact ⟨[], rfl⟩
  | case2 state byte =>
      rw [tlvFold] at read
      cases read
  | case3 state tag len tail missing =>
      rw [tlvFold, if_pos missing] at read
      cases read
  | case4 state tag len tail enough ih =>
      rw [tlvFold, if_neg enough] at read
      obtain ⟨next, _, later⟩ := Option.bind_eq_some_iff.mp read
      obtain ⟨fields, whole⟩ := ih next later
      have size : (tail.take len.toNat).length = len.toNat :=
        List.length_take_of_le (Nat.le_of_not_lt enough)
      have short : (tail.take len.toNat).length < 256 := by
        rw [size]
        exact len.toNat_lt
      refine ⟨⟨tag, tail.take len.toNat, short⟩ :: fields, ?_⟩
      rw [tlvBytes, List.flatMap_cons, TlvField.wire, size,
        UInt8.ofNat_toNat, List.cons_append, List.cons_append]
      congr 2
      change tail = tail.take len.toNat ++ tlvBytes fields
      rw [← whole, List.take_append_drop]

theorem length_tlvBytes (fields : List TlvField) :
    (tlvBytes fields).length =
      (fields.map fun field => 2 + field.value.length).sum := by
  induction fields with
  | nil => rfl
  | cons field rest ih =>
      have wire : field.wire.length = 2 + field.value.length := by
        simp only [TlvField.wire, List.length_cons]
        omega
      rw [tlvBytes, List.flatMap_cons, List.length_append, wire,
        List.map_cons, List.sum_cons, ← ih, tlvBytes]

/-! ## Readers with slots -/

/-- The last value of each tag. -/
abbrev LastValues : Type := UInt8 → Option (List UInt8)

def lastValues : LastValues → List TlvField → LastValues
  | last, [] => last
  | last, field :: rest =>
      lastValues (Function.update last field.tag (some field.value)) rest

/-- The state is what `view` makes of the last values, and a value is refused
or not whatever came before it. -/
structure Slotted (step : State → UInt8 → List UInt8 → Option State)
    (view : LastValues → State) (valid : UInt8 → List UInt8 → Bool) :
    Prop where
  step_view : ∀ last tag value,
    step (view last) tag value =
      if valid tag value then
        some (view (Function.update last tag (some value)))
      else none

variable {view : LastValues → State} {valid : UInt8 → List UInt8 → Bool}

theorem Slotted.foldlM_view (slotted : Slotted step view valid)
    (last : LastValues) (fields : List TlvField) :
    fields.foldlM
        (fun state field => step state field.tag field.value)
        (view last) =
      if fields.all (fun field => valid field.tag field.value) then
        some (view (lastValues last fields))
      else none := by
  induction fields generalizing last with
  | nil => rfl
  | cons field rest ih =>
      rw [List.foldlM_cons, slotted.step_view, List.all_cons]
      by_cases fine : valid field.tag field.value = true
      · rw [if_pos fine, fine, Bool.true_and]
        exact ih _
      · rw [if_neg fine, Bool.eq_false_iff.mpr fine, Bool.false_and]
        rfl

theorem lastValues_congr {first second : LastValues} {tag : UInt8}
    (same : first tag = second tag) (fields : List TlvField) :
    lastValues first fields tag = lastValues second fields tag := by
  induction fields generalizing first second with
  | nil => exact same
  | cons field rest ih =>
      apply ih
      by_cases hit : tag = field.tag
      · rw [hit, Function.update_self, Function.update_self]
      · rw [Function.update_of_ne hit, Function.update_of_ne hit, same]

/-- Only the fields with a tag decide about its last value. -/
theorem lastValues_filter (last : LastValues) (fields : List TlvField) (tag : UInt8) :
    lastValues last fields tag =
      lastValues last (fields.filter fun field => field.tag == tag)
        tag := by
  induction fields generalizing last with
  | nil => rfl
  | cons field rest ih =>
      by_cases same : field.tag = tag
      · rw [List.filter_cons_of_pos (by simpa using same), lastValues,
          lastValues]
        exact ih _
      · rw [List.filter_cons_of_neg (by simpa using same), lastValues,
          ← ih]
        exact lastValues_congr (Function.update_of_ne (Ne.symm same) _ _) rest

theorem lastValues_append (last : LastValues) (front back : List TlvField) :
    lastValues last (front ++ back) =
      lastValues (lastValues last front) back := by
  induction front generalizing last with
  | nil => rfl
  | cons field rest ih => exact ih _

/-- The fields with one tag stand in the same order in both lists. -/
def SameOrder (fields others : List TlvField) : Prop :=
  ∀ tag, (fields.filter fun field => field.tag == tag) =
    others.filter fun field => field.tag == tag

theorem SameOrder.mem_iff {fields others : List TlvField}
    (same : SameOrder fields others) (field : TlvField) :
    field ∈ fields ↔ field ∈ others := by
  have equal := congrArg (fun found => field ∈ found) (same field.tag)
  simpa only [List.mem_filter, beq_self_eq_true, and_true, eq_iff_iff] using equal

/-- Fields with distinct tags may be put in any order. -/
theorem sameOrder_of_perm {fields others : List TlvField} (permuted : fields.Perm others)
    (distinct : (fields.map TlvField.tag).Nodup) :
    SameOrder fields others := by
  intro tag
  have found := permuted.filter fun field => field.tag == tag
  have single : (fields.filter fun field => field.tag == tag).length ≤
      1 := by
    have once : (fields.map TlvField.tag).count tag ≤ 1 :=
      List.nodup_iff_count_le_one.mp distinct tag
    rw [List.count, List.countP_map, List.countP_eq_length_filter] at once
    exact once
  cases kept : fields.filter fun field => field.tag == tag with
  | nil =>
      rw [kept] at found
      exact (List.nil_perm.mp found).symm
  | cons field rest =>
      rw [kept, List.length_cons] at single
      have alone : rest = [] :=
        List.eq_nil_of_length_eq_zero (by omega)
      rw [kept, alone] at found
      rw [alone]
      exact List.singleton_perm.mp found

theorem Slotted.tlvFold_view (slotted : Slotted step view valid)
    (last : LastValues) (fields : List TlvField) :
    tlvFold step (view last) (tlvBytes fields) =
      if fields.all (fun field => valid field.tag field.value) then
        some (view (lastValues last fields))
      else none := by
  rw [tlvFold_tlvBytes, slotted.foldlM_view]

/-- The order of fields with different tags makes no difference. -/
theorem Slotted.tlvFold_sameOrder (slotted : Slotted step view valid)
    (last : LastValues) {fields others : List TlvField} (same : SameOrder fields others) :
    tlvFold step (view last) (tlvBytes others) =
      tlvFold step (view last) (tlvBytes fields) := by
  have accepted :
      others.all (fun field => valid field.tag field.value) =
        fields.all (fun field => valid field.tag field.value) := by
    rw [Bool.eq_iff_iff, List.all_eq_true, List.all_eq_true]
    constructor
    · intro fine field among
      exact fine field ((same.mem_iff field).mp among)
    · intro fine field among
      exact fine field ((same.mem_iff field).mpr among)
  have values : lastValues last others = lastValues last fields := by
    funext tag
    rw [lastValues_filter, lastValues_filter last fields, same tag]
  rw [slotted.tlvFold_view, slotted.tlvFold_view, accepted, values]

/-- A field that no slot looks at makes no difference. -/
theorem Slotted.tlvFold_insert (slotted : Slotted step view valid)
    (last : LastValues) {front back : List TlvField} {field : TlvField}
    (unseen : ∀ first second : LastValues,
      (∀ tag, tag ≠ field.tag → first tag = second tag) → view first = view second)
    (fine : valid field.tag field.value = true) :
    tlvFold step (view last) (tlvBytes (front ++ field :: back)) =
      tlvFold step (view last) (tlvBytes (front ++ back)) := by
  have values : view (lastValues last (front ++ field :: back)) =
      view (lastValues last (front ++ back)) := by
    apply unseen
    intro tag other
    rw [lastValues_append, lastValues_append, lastValues]
    exact lastValues_congr (Function.update_of_ne other _ _) back
  rw [slotted.tlvFold_view, slotted.tlvFold_view, values,
    List.all_append, List.all_append, List.all_cons, fine,
    Bool.true_and]

end Ratspeak.Library
