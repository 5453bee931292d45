import Mathlib.Data.List.Basic

/-!
# The first of a sorted list

Items are put in the order of a comparison, and the name of the first one is
what is selected.  Where items that compare as equal have the same name, the
selection depends only on which items there are, and leaving out items of
other names does not change it.
-/

namespace Ratspeak.Library

universe u v

variable {Item : Type u} {Name : Type v}

/-- The items in the order of a comparison; equal ones stay as they are. -/
def sortedBy (compare : Item → Item → Ordering) (items : List Item) :
    List Item :=
  items.mergeSort fun first second => (compare first second).isLE

/-- The name of the first item. -/
def selectedName (compare : Item → Item → Ordering) (name : Item → Name)
    (items : List Item) : Option Name :=
  (sortedBy compare items).head?.map name

/-- An item before which no other one comes. -/
structure ComesFirst (compare : Item → Item → Ordering) (items : List Item)
    (item : Item) : Prop where
  mem : item ∈ items
  least : ∀ other ∈ items, (compare item other).isLE

variable {compare : Item → Item → Ordering} {name : Item → Name}
  {items fewer : List Item}

/-- Names may be given before the sorting, if the comparison goes along. -/
theorem selectedName_map {Other : Type*} {convert : Other → Item} {others : List Other} :
    selectedName compare name (others.map convert) =
      selectedName
        (fun first second => compare (convert first) (convert second))
        (fun other => name (convert other)) others := by
  have sorted := List.map_mergeSort
    (r := fun first second =>
      (compare (convert first) (convert second)).isLE)
    (s := fun first second => (compare first second).isLE)
    (f := convert) (l := others) (fun _ _ _ _ => rfl)
  rw [selectedName, selectedName, sortedBy, sortedBy, ← sorted, List.head?_map, Option.map_map]
  rfl

variable [Std.TransCmp compare]

theorem comesFirst_of_head? {item : Item} (first : (sortedBy compare items).head? = some item) :
    ComesFirst compare items item := by
  have sorted : (sortedBy compare items).Pairwise fun first second =>
      (compare first second).isLE := by
    apply List.pairwise_mergeSort
    · intro first second third before after
      exact Std.TransCmp.isLE_trans before after
    · intro first second
      rw [Bool.or_eq_true]
      cases order : compare first second with
      | lt => exact Or.inl rfl
      | eq => exact Or.inl rfl
      | gt =>
          rw [Std.OrientedCmp.lt_of_gt order]
          exact Or.inr rfl
  obtain ⟨rest, whole⟩ := List.head?_eq_some_iff.mp first
  have among (other : Item) :
      other ∈ sortedBy compare items ↔ other ∈ items :=
    List.mem_mergeSort
  rw [whole] at sorted among
  refine ⟨(among item).mp List.mem_cons_self, ?_⟩
  intro other member
  rcases List.mem_cons.mp ((among other).mpr member) with rfl | behind
  · exact Std.ReflCmp.isLE_rfl
  · exact List.rel_of_pairwise_cons sorted behind

/-- Items that compare as equal have the same name. -/
def Names (compare : Item → Item → Ordering) (name : Item → Name) : Prop :=
  ∀ first second, compare first second = .eq → name first = name second

omit [Std.TransCmp compare] in
theorem selectedName_eq_none_iff :
    selectedName compare name items = none ↔ items = [] := by
  rw [selectedName, Option.map_eq_none_iff, List.head?_eq_none_iff,
    ← List.length_eq_zero_iff, ← List.length_eq_zero_iff, sortedBy,
    List.length_mergeSort]

theorem name_eq_of_comesFirst (names : Names compare name) {first second : Item}
    (left : ComesFirst compare items first)
    (right : ComesFirst compare items second) : name first = name second :=
  names first second (Std.OrientedCmp.isLE_antisymm
    (left.least second right.mem) (right.least first left.mem))

/-- What is selected is the name of the least item. -/
theorem selectedName_eq_some_iff (names : Names compare name) {selected : Name} :
    selectedName compare name items = some selected ↔
      ∃ item, ComesFirst compare items item ∧ name item = selected := by
  constructor
  · intro equal
    obtain ⟨item, first, named⟩ := Option.map_eq_some_iff.mp equal
    exact ⟨item, comesFirst_of_head? first, named⟩
  · rintro ⟨item, least, rfl⟩
    cases first : (sortedBy compare items).head? with
    | none =>
        have nothing : selectedName compare name items = none := by
          rw [selectedName, first, Option.map_none]
        have mem := least.mem
        rw [selectedName_eq_none_iff.mp nothing] at mem
        cases mem
    | some other =>
        rw [selectedName, first, Option.map_some,
          name_eq_of_comesFirst names (comesFirst_of_head? first) least]

theorem eq_nil_or_comesFirst :
    items = [] ∨ ∃ item, ComesFirst compare items item := by
  cases first : (sortedBy compare items).head? with
  | none =>
      have nothing : selectedName compare id items = none := by
        rw [selectedName, first, Option.map_none]
      exact Or.inl (selectedName_eq_none_iff.mp nothing)
  | some least => exact Or.inr ⟨least, comesFirst_of_head? first⟩

theorem eq_of_subset_nil (subset : ∀ item ∈ fewer, item ∈ items)
    (nothing : items = []) : fewer = items := by
  subst nothing
  exact List.eq_nil_iff_forall_not_mem.mpr fun item member =>
    List.not_mem_nil (subset item member)

/-- Only which items there are matters. -/
theorem selectedName_congr (names : Names compare name)
    (same : ∀ item, item ∈ fewer ↔ item ∈ items) :
    selectedName compare name fewer = selectedName compare name items := by
  apply Option.ext
  intro selected
  rw [selectedName_eq_some_iff names, selectedName_eq_some_iff names]
  have least (item : Item) :
      ComesFirst compare fewer item ↔ ComesFirst compare items item := by
    constructor
    · intro least
      exact ⟨(same item).mp least.mem, fun other member =>
        least.least other ((same other).mpr member)⟩
    · intro least
      exact ⟨(same item).mpr least.mem, fun other member =>
        least.least other ((same other).mp member)⟩
  simp only [least]

/-- Leaving out items does not change the selection if a least one stays. -/
theorem selectedName_of_comesFirst_mem (names : Names compare name)
    (subset : ∀ item ∈ fewer, item ∈ items) {item : Item}
    (least : ComesFirst compare items item) (stays : item ∈ fewer) :
    selectedName compare name fewer = selectedName compare name items := by
  rw [(selectedName_eq_some_iff names).mpr ⟨item, least, rfl⟩]
  exact (selectedName_eq_some_iff names).mpr
    ⟨item, ⟨stays, fun other member =>
      least.least other (subset other member)⟩, rfl⟩

/-- Leaving out items of other names does not change the selection. -/
theorem selectedName_of_subset (names : Names compare name)
    (subset : ∀ item ∈ fewer, item ∈ items) (kept : ∀ item ∈ items,
      selectedName compare name items = some (name item) → item ∈ fewer) :
    selectedName compare name fewer = selectedName compare name items := by
  rcases @eq_nil_or_comesFirst _ compare items _ with nothing | ⟨item, least⟩
  · rw [eq_of_subset_nil subset nothing]
  · exact selectedName_of_comesFirst_mem names subset least
      (kept item least.mem ((selectedName_eq_some_iff names).mpr ⟨item, least, rfl⟩))

/-- Leaving out all items of some names keeps the selection exactly if each
of them comes behind one that stays. -/
theorem selectedName_eq_iff (names : Names compare name)
    (subset : ∀ item ∈ fewer, item ∈ items) (whole : ∀ item ∈ items, ∀ other ∈ fewer,
      name item = name other → item ∈ fewer) :
    selectedName compare name fewer = selectedName compare name items ↔
      ∀ item ∈ items, item ∉ fewer →
        ∃ other ∈ fewer, compare other item = .lt := by
  constructor
  · intro equal item mem out
    rcases @eq_nil_or_comesFirst _ compare items _ with
      nothing | ⟨least, isFirst⟩
    · rw [nothing] at mem
      cases mem
    have selected : selectedName compare name fewer = some (name least) :=
      equal.trans ((selectedName_eq_some_iff names).mpr ⟨least, isFirst, rfl⟩)
    obtain ⟨other, isOther, named⟩ :=
      (selectedName_eq_some_iff names).mp selected
    have stays : least ∈ fewer :=
      whole least isFirst.mem other isOther.mem named.symm
    refine ⟨least, stays, ?_⟩
    have before := isFirst.least item mem
    cases order : compare least item with
    | lt => rfl
    | eq => exact absurd (whole item mem least stays (names least item order).symm) out
    | gt =>
        rw [order] at before
        cases before
  · intro behind
    rcases @eq_nil_or_comesFirst _ compare items _ with
      nothing | ⟨least, isFirst⟩
    · rw [eq_of_subset_nil subset nothing]
    by_cases stays : least ∈ fewer
    · exact selectedName_of_comesFirst_mem names subset isFirst stays
    · obtain ⟨other, member, earlier⟩ := behind least isFirst.mem stays
      have before := isFirst.least other (subset other member)
      have later : compare least other = .gt :=
        Std.OrientedCmp.gt_of_lt earlier
      rw [later] at before
      cases before

end Ratspeak.Library
