import Mathlib.Data.List.AList

/-!
# Finite maps and finite sets

Association lists without repeated keys, and lists without repeated members,
as the finite maps and sets of an executable model.  Lookup after every
operation is a conditional expression, so that a statement about a whole
table reduces to a statement about one key.

The order of the bindings carries no meaning: it is the order in which a
loop over the table happens to visit them.
-/

namespace Ratspeak.Library

universe u v

/-- A finite map whose values have one type. -/
abbrev FiniteMap (κ : Type u) (ν : Type v) := AList fun _ : κ => ν

namespace FiniteMap

variable {κ : Type u} {ν : Type v} [DecidableEq κ]

@[simp]
theorem lookup_insert_ite (key tested : κ) (value : ν) (table : FiniteMap κ ν) :
    (AList.insert key value table).lookup tested =
      if tested = key then some value else table.lookup tested := by
  by_cases equal : tested = key
  · subst equal
    simp
  · simp [equal]

@[simp]
theorem lookup_erase_ite (key tested : κ) (table : FiniteMap κ ν) :
    (AList.erase key table).lookup tested =
      if tested = key then none else table.lookup tested := by
  by_cases equal : tested = key
  · subst equal
    simp
  · simp [equal]

omit [DecidableEq κ] in
private theorem keys_mapEntries (change : κ → ν → ν) (entries : List (Sigma fun _ : κ => ν)) :
    (entries.map fun entry =>
        (⟨entry.1, change entry.1 entry.2⟩ : Sigma fun _ : κ => ν)).keys =
      entries.keys := by
  simp [List.keys, Function.comp_def]

/-- Rewrite every value, keeping the keys. -/
def mapValues (change : κ → ν → ν) (table : FiniteMap κ ν) :
    FiniteMap κ ν where
  entries := table.entries.map fun entry =>
    ⟨entry.1, change entry.1 entry.2⟩
  nodupKeys := by
    have keysNodup : (table.entries.keys).Nodup := table.nodupKeys
    rw [List.NodupKeys, keys_mapEntries]
    exact keysNodup

omit [DecidableEq κ] in
theorem mem_entries_mapValues (change : κ → ν → ν) (table : FiniteMap κ ν)
    (entry : Sigma fun _ : κ => ν) :
    entry ∈ (mapValues change table).entries ↔
      ∃ value, ⟨entry.1, value⟩ ∈ table.entries ∧
        change entry.1 value = entry.2 := by
  constructor
  · intro member
    obtain ⟨source, sourceMember, sourceEq⟩ := List.mem_map.mp member
    subst sourceEq
    exact ⟨source.2, sourceMember, rfl⟩
  · rintro ⟨value, member, changed⟩
    exact List.mem_map.mpr ⟨⟨entry.1, value⟩, member, by
      rw [changed]⟩

theorem lookup_eq_some_iff (key : κ) (value : ν) (table : FiniteMap κ ν) :
    table.lookup key = some value ↔ ⟨key, value⟩ ∈ table.entries :=
  AList.mem_lookup_iff

@[simp]
theorem lookup_mapValues (change : κ → ν → ν) (table : FiniteMap κ ν) (tested : κ) :
    (mapValues change table).lookup tested =
      (table.lookup tested).map (change tested) := by
  ext value
  rw [lookup_eq_some_iff, mem_entries_mapValues]
  simp only [Option.map_eq_some_iff, lookup_eq_some_iff]

omit [DecidableEq κ] in
theorem mapValues_mapValues (first second : κ → ν → ν) (table : FiniteMap κ ν) :
    mapValues second (mapValues first table) =
      mapValues (fun key value => second key (first key value)) table := by
  simp [mapValues, Function.comp_def]

omit [DecidableEq κ] in
theorem mapValues_id (table : FiniteMap κ ν) :
    mapValues (fun _ value => value) table = table := by
  obtain ⟨entries, nodupKeys⟩ := table
  simp [mapValues]

/-- Rewrite the value bound to one key, if there is one. -/
def adjust (key : κ) (change : ν → ν) (table : FiniteMap κ ν) :
    FiniteMap κ ν :=
  mapValues (fun found value => if found = key then change value else value)
    table

@[simp]
theorem lookup_adjust (key tested : κ) (change : ν → ν) (table : FiniteMap κ ν) :
    (adjust key change table).lookup tested =
      if tested = key then (table.lookup key).map change
      else table.lookup tested := by
  rw [adjust, lookup_mapValues]
  by_cases equal : tested = key
  · subst equal
    simp
  · simp [equal]

/-- Keep the bindings that pass a test. -/
def retain (keep : κ → ν → Bool) (table : FiniteMap κ ν) :
    FiniteMap κ ν where
  entries := table.entries.filter fun entry => keep entry.1 entry.2
  nodupKeys :=
    List.NodupKeys.sublist List.filter_sublist table.nodupKeys

@[simp]
theorem lookup_retain (keep : κ → ν → Bool) (table : FiniteMap κ ν) (tested : κ) :
    (retain keep table).lookup tested =
      (table.lookup tested).filter (keep tested) := by
  ext value
  rw [lookup_eq_some_iff]
  simp only [retain, List.mem_filter, Option.filter_eq_some_iff, lookup_eq_some_iff]

/-- The bindings as pairs, in the order of the table. -/
def bindings (table : FiniteMap κ ν) : List (κ × ν) :=
  table.entries.map fun entry => (entry.1, entry.2)

omit [DecidableEq κ] in
theorem bindings_mapValues (change : κ → ν → ν) (table : FiniteMap κ ν) :
    bindings (mapValues change table) =
      (bindings table).map fun entry => (entry.1, change entry.1 entry.2) := by
  simp [bindings, mapValues, Function.comp_def]

theorem mem_bindings_iff (key : κ) (value : ν) (table : FiniteMap κ ν) :
    (key, value) ∈ bindings table ↔ table.lookup key = some value := by
  rw [lookup_eq_some_iff, bindings]
  constructor
  · intro member
    obtain ⟨entry, entryMember, entryEq⟩ := List.mem_map.mp member
    cases entryEq
    exact entryMember
  · intro member
    exact List.mem_map.mpr ⟨⟨key, value⟩, member, rfl⟩

/-- Maps with the same bindings list them in some order each. -/
theorem bindings_perm {first second : FiniteMap κ ν}
    (same : ∀ key, first.lookup key = second.lookup key) :
    (bindings first).Perm (bindings second) := by
  have entries : first.entries.Perm second.entries := by
    apply List.lookup_ext first.nodupKeys second.nodupKeys
    intro key value
    have lookups : first.entries.dlookup key = second.entries.dlookup key :=
      same key
    rw [lookups]
  exact entries.map fun entry => (entry.1, entry.2)

theorem mem_keys_iff (key : κ) (table : FiniteMap κ ν) :
    key ∈ table.keys ↔ ∃ value, table.lookup key = some value := by
  rw [← AList.mem_keys, ← AList.lookup_isSome, Option.isSome_iff_exists]

omit [DecidableEq κ] in
theorem eq_empty_of_keys {table : FiniteMap κ ν}
    (noKeys : table.keys.isEmpty = true) : table = ∅ := by
  apply AList.ext
  rw [AList.keys, List.keys, List.isEmpty_map] at noKeys
  exact List.isEmpty_iff.mp noKeys

theorem length_keys_insert (key : κ) (value : ν) (table : FiniteMap κ ν) :
    (AList.insert key value table).keys.length ≤ table.keys.length + 1 := by
  rw [AList.keys_insert, List.length_cons]
  exact Nat.succ_le_succ List.length_erase_le

theorem length_keys_insert_of_new {key : κ} (value : ν)
    {table : FiniteMap κ ν} (missing : table.lookup key = none) :
    (AList.insert key value table).keys.length = table.keys.length + 1 := by
  have absent : key ∉ table.keys := by
    intro inside
    obtain ⟨found, known⟩ := (mem_keys_iff key table).mp inside
    rw [missing] at known
    cases known
  rw [AList.keys_insert, List.erase_of_not_mem absent, List.length_cons]

/-- A table with fewer keys is no larger. -/
theorem length_keys_le {smaller larger : FiniteMap κ ν}
    (fewer : ∀ key, larger.lookup key = none → smaller.lookup key = none) :
    smaller.keys.length ≤ larger.keys.length := by
  have inside : smaller.keys ⊆ larger.keys := by
    intro key member
    obtain ⟨value, known⟩ := (mem_keys_iff key smaller).mp member
    rw [mem_keys_iff]
    cases found : larger.lookup key with
    | none =>
        rw [fewer key found] at known
        cases known
    | some kept => exact ⟨kept, rfl⟩
  exact (List.subperm_of_subset smaller.keys_nodup inside).length_le

theorem length_keys_erase (key : κ) (table : FiniteMap κ ν) :
    (table.erase key).keys.length ≤ table.keys.length := by
  rw [AList.keys_erase]
  exact List.length_erase_le

/-! ## Counting -/

/-- The number of bindings that pass a test. -/
def count (counts : κ × ν → Bool) (table : FiniteMap κ ν) : Nat :=
  (bindings table).countP counts

omit [DecidableEq κ] in
theorem nodup_bindings (table : FiniteMap κ ν) : (bindings table).Nodup := by
  have keys : ((bindings table).map Prod.fst).Nodup := by
    rw [bindings, List.map_map]
    exact table.nodupKeys
  exact keys.of_map _

/-- A table that binds less counts less. -/
theorem count_mono (counts : κ × ν → Bool) {smaller larger : FiniteMap κ ν}
    (less : ∀ key value, smaller.lookup key = some value → larger.lookup key = some value) :
    count counts smaller ≤ count counts larger := by
  have subset : bindings smaller ⊆ bindings larger := by
    intro entry member
    rw [mem_bindings_iff] at member ⊢
    exact less entry.1 entry.2 member
  exact (List.subperm_of_subset (nodup_bindings smaller) subset).countP_le counts

private theorem count_insert (counts : κ × ν → Bool) (key : κ) (value : ν)
    (table : FiniteMap κ ν) :
    count counts (table.insert key value) =
      count counts (table.erase key) +
        if counts (key, value) then 1 else 0 := by
  rw [count, bindings, AList.entries_insert, List.map_cons, List.countP_cons]
  rfl

/-- An insertion counts at most itself more. -/
theorem count_insert_le (counts : κ × ν → Bool) (key : κ) (value : ν) (table : FiniteMap κ ν) :
    count counts (table.insert key value) ≤
      count counts table + if counts (key, value) then 1 else 0 := by
  rw [count_insert]
  apply Nat.add_le_add_right
  apply count_mono
  intro other held found
  rw [lookup_erase_ite] at found
  split at found
  · cases found
  · exact found

/-- An insertion over a binding that was counted counts nothing more. -/
theorem count_insert_known (counts : κ × ν → Bool) (key : κ)
    (value : ν) {table : FiniteMap κ ν} {old : ν} (found : table.lookup key = some old)
    (counted : counts (key, old) = true) :
    count counts (table.insert key value) ≤ count counts table := by
  have restored : count counts (table.erase key) + 1 ≤
      count counts table := by
    have again := count_insert counts key old table
    rw [if_pos counted] at again
    rw [← again]
    apply count_mono
    intro other held known
    rw [lookup_insert_ite] at known
    split at known
    · rename_i same
      rw [same, found]
      exact known
    · exact known
  rw [count_insert]
  split
  · exact restored
  · omega

/-- An insertion that is counted only over a counted binding or where there
is room stays within the limit. -/
theorem count_insert_within (counts : κ × ν → Bool) (key : κ) (value : ν)
    {table : FiniteMap κ ν} {limit : Nat} (within : count counts table ≤ limit)
    (room : counts (key, value) = true →
      (∃ old, table.lookup key = some old ∧ counts (key, old) = true) ∨
        count counts table < limit) :
    count counts (table.insert key value) ≤ limit := by
  have bound := count_insert_le counts key value table
  split at bound
  · rename_i counted
    rcases room counted with ⟨old, found, wasCounted⟩ | room
    · exact Nat.le_trans (count_insert_known counts key value found wasCounted) within
    · exact Nat.le_trans bound room
  · exact Nat.le_trans bound within

/-- Tables that bind alike count alike. -/
theorem count_congr (counts : κ × ν → Bool) {first second : FiniteMap κ ν}
    (same : ∀ key, first.lookup key = second.lookup key) :
    count counts first = count counts second := by
  apply Nat.le_antisymm
  · exact count_mono counts fun key _ found => same key ▸ found
  · exact count_mono counts fun key _ found => (same key).symm ▸ found

end FiniteMap

/-- A finite set: its members in some order, none of them twice. -/
structure FiniteSet (α : Type u) where
  toList : List α
  nodup : toList.Nodup

namespace FiniteSet

variable {α : Type u}

instance : Membership α (FiniteSet α) :=
  ⟨fun members tested => tested ∈ members.toList⟩

instance [DecidableEq α] (tested : α) (members : FiniteSet α) :
    Decidable (tested ∈ members) :=
  inferInstanceAs (Decidable (tested ∈ members.toList))

instance : EmptyCollection (FiniteSet α) :=
  ⟨⟨[], List.nodup_nil⟩⟩

@[simp]
theorem mem_toList (tested : α) (members : FiniteSet α) :
    tested ∈ members.toList ↔ tested ∈ members :=
  Iff.rfl

@[simp]
theorem not_mem_empty (tested : α) : ¬ tested ∈ (∅ : FiniteSet α) :=
  List.not_mem_nil

/-- Sets with the same members list them in some order each. -/
theorem toList_perm {first second : FiniteSet α}
    (same : ∀ tested, tested ∈ first ↔ tested ∈ second) :
    first.toList.Perm second.toList :=
  (List.perm_ext_iff_of_nodup first.nodup second.nodup).mpr same

/-- The set without its members that fail a test. -/
def filter (keep : α → Bool) (members : FiniteSet α) : FiniteSet α where
  toList := members.toList.filter keep
  nodup := members.nodup.filter keep

@[simp]
theorem mem_filter (keep : α → Bool) (tested : α) (members : FiniteSet α) :
    tested ∈ members.filter keep ↔ tested ∈ members ∧ keep tested :=
  List.mem_filter

/-- Whether the set has no member. -/
def isEmpty (members : FiniteSet α) : Bool :=
  members.toList.isEmpty

theorem isEmpty_iff (members : FiniteSet α) :
    members.isEmpty = true ↔ ∀ tested, ¬ tested ∈ members := by
  rw [isEmpty, List.isEmpty_iff, List.eq_nil_iff_forall_not_mem]
  rfl

/-- The number of members. -/
def size (members : FiniteSet α) : Nat :=
  members.toList.length

variable [DecidableEq α]

/-- The set with one more member. -/
def insert (added : α) (members : FiniteSet α) : FiniteSet α where
  toList := members.toList.insert added
  nodup := members.nodup.insert

@[simp]
theorem mem_insert (added tested : α) (members : FiniteSet α) :
    tested ∈ members.insert added ↔ tested = added ∨ tested ∈ members :=
  List.mem_insert_iff

/-- The set without one member. -/
def erase (removed : α) (members : FiniteSet α) : FiniteSet α where
  toList := members.toList.erase removed
  nodup := members.nodup.erase removed

@[simp]
theorem mem_erase (removed tested : α) (members : FiniteSet α) :
    tested ∈ members.erase removed ↔ tested ≠ removed ∧ tested ∈ members :=
  members.nodup.mem_erase_iff

theorem insert_of_mem {added : α} {members : FiniteSet α}
    (known : added ∈ members) : members.insert added = members := by
  obtain ⟨items, nodup⟩ := members
  simp only [insert, FiniteSet.mk.injEq]
  exact List.insert_of_mem known

/-- The set of the members of a list. -/
def ofList (items : List α) : FiniteSet α :=
  items.foldr insert ∅

end FiniteSet

end Ratspeak.Library
