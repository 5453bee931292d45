import Mathlib.Data.List.Dedup
import Ratspeak.Identities.Prune
import Ratspeak.Library.Overlay

/-!
# The map of a manager and its file

A file gives back the map that was written to it.  Each change of the map is
a change of its revision, and a change is what it says: a learned key, hashes
taken out, or entries put back over whatever is there.
-/

namespace Ratspeak.Identities

open Library Library.Overlay

/-- The keys that are read from a file. -/
def view (data : List UInt8) : DestHash → Option PublicKey :=
  (loadKnownIdentities data).lookup

/-! ## The file -/

theorem ofList_take_append {length : Nat} (bytes : Bytes length) (rest : List UInt8) :
    Bytes.ofList length ((bytes.val ++ rest).take length) =
      some bytes := by
  have first : (bytes.val ++ rest).take length = bytes.val :=
    List.take_left' bytes.property
  rw [first, Bytes.ofList_val]

theorem readRecord_append (hash : DestHash) (key : PublicKey) (rest : List UInt8) :
    readRecord (hash.val ++ key.val ++ rest) = some (hash, key) := by
  have second : (hash.val ++ (key.val ++ rest)).drop 16 =
      key.val ++ rest :=
    List.drop_left' hash.property
  rw [List.append_assoc, readRecord, ofList_take_append, second, ofList_take_append]
  rfl

theorem lookup_readRecords (entries : List (DestHash × PublicKey))
    {fuel : Nat} (enough : entries.length ≤ fuel) (known : KnownIdentities) :
    (readRecords fuel
        (entries.flatMap fun entry => entry.1.val ++ entry.2.val)
        known).lookup =
      overwrite (entries.map fun entry => (entry.1, some entry.2))
        known.lookup := by
  induction entries generalizing fuel known with
  | nil =>
      cases fuel with
      | zero => rfl
      | succ fuel => rfl
  | cons entry rest ih =>
      cases fuel with
      | zero => cases enough
      | succ fuel =>
          have others : (entry.1.val ++ entry.2.val ++
              rest.flatMap fun entry =>
                entry.1.val ++ entry.2.val).drop 80 =
              rest.flatMap fun entry => entry.1.val ++ entry.2.val := by
            apply List.drop_left'
            rw [List.length_append, entry.1.property, entry.2.property]
          have inserts : (AList.insert entry.1 entry.2 known).lookup =
              Function.update known.lookup entry.1 (some entry.2) := by
            funext hash
            rw [FiniteMap.lookup_insert_ite, Function.update_apply]
          rw [List.flatMap_cons, readRecords, readRecord_append]
          dsimp only
          rw [others, ih (Nat.le_of_succ_le_succ enough), inserts]
          rfl

theorem length_le_blob (entries : List (DestHash × PublicKey)) :
    entries.length ≤
      (entries.flatMap fun entry => entry.1.val ++ entry.2.val).length := by
  induction entries with
  | nil => exact Nat.le_refl 0
  | cons entry rest ih =>
      rw [List.flatMap_cons, List.length_append, List.length_append,
        entry.1.property, List.length_cons]
      omega

/-- The file of a map holds the map. -/
theorem view_knownIdentitiesBlob (known : KnownIdentities) :
    view (knownIdentitiesBlob known) = known.lookup := by
  have enough := length_le_blob (FiniteMap.bindings known)
  have distinct : (((FiniteMap.bindings known).map fun entry =>
      (entry.1, some entry.2)).map Prod.fst).Nodup := by
    rw [List.map_map, FiniteMap.bindings, List.map_map]
    exact known.nodupKeys
  have whole : view (knownIdentitiesBlob known) = overwrite
      ((FiniteMap.bindings known).map fun entry => (entry.1, some entry.2))
      (∅ : KnownIdentities).lookup :=
    lookup_readRecords _ enough ∅
  funext hash
  rw [whole]
  cases found : known.lookup hash with
  | none =>
      rw [overwrite_of_not_mem]
      · rfl
      · rw [List.map_map]
        intro among
        obtain ⟨entry, listed, isHash⟩ := List.mem_map.mp among
        have there := (FiniteMap.mem_bindings_iff _ _ _).mp listed
        have same : entry.1 = hash := isHash
        rw [same, found] at there
        cases there
  | some key =>
      have listed := (FiniteMap.mem_bindings_iff _ _ _).mpr found
      exact overwrite_of_mem distinct
        (List.mem_map_of_mem (f := fun entry : DestHash × PublicKey =>
          (entry.1, some entry.2)) listed) _

/-! ## Changes of the map -/

/-- The number of a revision can still grow. -/
def LxmfManager.HasRoom (manager : LxmfManager) : Prop :=
  manager.knownIdentitiesRevision.toNat < 18446744073709551615

instance (manager : LxmfManager) : Decidable manager.HasRoom :=
  inferInstanceAs (Decidable (_ < _))

/-- The map is changed only together with its revision. -/
structure Revises (before after : LxmfManager) : Prop where
  identity : after.identityHash = before.identityHash
  persisted : after.knownIdentitiesPersistedRevision = before.knownIdentitiesPersistedRevision
  revision :
    after.knownIdentitiesRevision = before.knownIdentitiesRevision ∧
        after.knownIdentities.lookup = before.knownIdentities.lookup ∨
      (before.HasRoom → after.knownIdentitiesRevision.toNat =
        before.knownIdentitiesRevision.toNat + 1)

theorem revises_revised {manager : LxmfManager} {known : KnownIdentities} {changed : Bool}
    (same : changed = false → known.lookup = manager.knownIdentities.lookup) :
    Revises manager (manager.revised known changed) where
  identity := rfl
  persisted := rfl
  revision := by
    cases changed with
    | false => exact Or.inl ⟨rfl, same rfl⟩
    | true =>
        refine Or.inr fun room => ?_
        have limit : manager.knownIdentitiesRevision.toNat <
            18446744073709551615 := room
        change (manager.knownIdentitiesRevision + 1).toNat = _
        rw [UInt64.toNat_add]
        change (manager.knownIdentitiesRevision.toNat + 1) % 2 ^ 64 = _
        omega

namespace LxmfManager

variable {manager : LxmfManager}

theorem lookup_updateRemoteCrypto (manager : LxmfManager) (hash : DestHash) (key : PublicKey) :
    (manager.updateRemoteCrypto hash key).knownIdentities.lookup =
      Function.update manager.knownIdentities.lookup hash (some key) := by
  rw [updateRemoteCrypto]
  split
  · rename_i known
    rw [← known, Function.update_eq_self]
  · funext other
    rw [Function.update_apply]
    exact FiniteMap.lookup_insert_ite _ _ _ _

theorem revises_updateRemoteCrypto (manager : LxmfManager) (hash : DestHash) (key : PublicKey) :
    Revises manager (manager.updateRemoteCrypto hash key) := by
  rw [updateRemoteCrypto]
  split
  · exact ⟨rfl, rfl, Or.inl ⟨rfl, rfl⟩⟩
  · exact revises_revised nofun

theorem mem_removedIdentities {hashes : List DestHash} {hash : DestHash} {key : PublicKey} :
    (hash, key) ∈ manager.removedIdentities hashes ↔
      hash ∈ hashes ∧ manager.knownIdentities.lookup hash = some key := by
  rw [removedIdentities, List.mem_filterMap]
  constructor
  · intro ⟨other, among, found⟩
    obtain ⟨otherKey, isKey, same⟩ := Option.map_eq_some_iff.mp found
    cases same
    exact ⟨List.mem_dedup.mp among, isKey⟩
  · intro ⟨among, found⟩
    exact ⟨hash, List.mem_dedup.mpr among, by rw [found]; rfl⟩

theorem nodup_removedIdentities (manager : LxmfManager) (hashes : List DestHash) :
    ((manager.removedIdentities hashes).map Prod.fst).Nodup := by
  have listed : ((manager.removedIdentities hashes).map
      Prod.fst).Sublist hashes.dedup := by
    rw [removedIdentities]
    induction hashes.dedup with
    | nil => exact List.Sublist.refl _
    | cons hash rest ih =>
        rw [List.filterMap_cons]
        cases found : manager.knownIdentities.lookup hash with
        | none => exact ih.cons hash
        | some key => exact ih.cons_cons hash
  exact (List.nodup_dedup hashes).sublist listed

theorem lookup_removeKnownIdentities (manager : LxmfManager)
    (hashes : List DestHash) (hash : DestHash) :
    (manager.removeKnownIdentities hashes).knownIdentities.lookup hash =
      if hash ∈ hashes then none
      else manager.knownIdentities.lookup hash := by
  change (FiniteMap.retain _ _).lookup hash = _
  rw [FiniteMap.lookup_retain]
  by_cases among : hash ∈ hashes
  · simp [among]
  · cases found : manager.knownIdentities.lookup hash with
    | none => simp [among]
    | some key => simp [among]

theorem revises_removeKnownIdentities (manager : LxmfManager) (hashes : List DestHash) :
    Revises manager (manager.removeKnownIdentities hashes) := by
  apply revises_revised
  intro none
  have empty : manager.removedIdentities hashes = [] := by
    simpa using none
  funext hash
  have after := lookup_removeKnownIdentities manager hashes hash
  change (FiniteMap.retain _ _).lookup hash = _ at after
  rw [after]
  split
  · rename_i among
    cases found : manager.knownIdentities.lookup hash with
    | none => rfl
    | some key =>
        have listed : (hash, key) ∈ manager.removedIdentities hashes :=
          mem_removedIdentities.mpr ⟨among, found⟩
        rw [empty] at listed
        cases listed
  · rfl

/-- Entries are written over the map, and the map is the same if nothing was
changed. -/
theorem foldl_restoreEntry (entries : List (DestHash × PublicKey))
    (known : KnownIdentities) (changed : Bool) :
    (entries.foldl restoreEntry (known, changed)).1.lookup =
        overwrite (entries.map fun entry => (entry.1, some entry.2))
          known.lookup ∧
      ((entries.foldl restoreEntry (known, changed)).2 = false →
        changed = false ∧
          (entries.foldl restoreEntry (known, changed)).1.lookup =
            known.lookup) := by
  induction entries generalizing known changed with
  | nil => exact ⟨rfl, fun same => ⟨same, rfl⟩⟩
  | cons entry rest ih =>
      rw [List.foldl_cons, restoreEntry]
      split
      · rename_i there
        obtain ⟨whole, unchanged⟩ := ih known changed
        refine ⟨?_, unchanged⟩
        rw [whole, List.map_cons, overwrite, overwrite, List.foldl_cons]
        dsimp only
        rw [← there, Function.update_eq_self]
      · obtain ⟨whole, unchanged⟩ := ih
          (known.insert entry.1 entry.2) true
        have inserts : (AList.insert entry.1 entry.2 known).lookup =
            Function.update known.lookup entry.1 (some entry.2) := by
          funext hash
          rw [FiniteMap.lookup_insert_ite, Function.update_apply]
        refine ⟨?_, fun same => ?_⟩
        · rw [whole, inserts]
          rfl
        · cases (unchanged same).1

theorem lookup_restoreKnownIdentities (manager : LxmfManager)
    (entries : List (DestHash × PublicKey)) :
    (manager.restoreKnownIdentities entries).knownIdentities.lookup =
      overwrite (entries.map fun entry => (entry.1, some entry.2))
        manager.knownIdentities.lookup :=
  (foldl_restoreEntry entries manager.knownIdentities false).1

theorem revises_restoreKnownIdentities (manager : LxmfManager)
    (entries : List (DestHash × PublicKey)) :
    Revises manager (manager.restoreKnownIdentities entries) :=
  revises_revised fun same =>
    ((foldl_restoreEntry entries manager.knownIdentities false).2 same).2

end LxmfManager

end Ratspeak.Identities
