import Ratspeak.Identities.PruneRecovery

/-!
# The outcome of a pass

The rows are those that there would be without the pass until it commits, what
a user identity knows was once learned by it or is from its first file, and
together with the invariants of the map and of the recovery this makes a pass
all-or-nothing over every careful run.
-/

namespace Ratspeak.Identities

open Library Library.Overlay

variable {world : World} {turn : Turn}

/-! ## The rows -/

structure RowsKept (world : World) : Prop where
  expected : world.turn.uncommitted = true → world.rows = world.expectedRows
  eligible : ∀ pass eligible, world.turn.eligible = some (pass, eligible) →
    ∀ hash ∈ eligible, hash ∈ pass.victims ∧
      hash ∉ pass.protectedExtra ∧
      world.isEligible pass.cutoff hash = true

theorem RowsKept.passed (kept : RowsKept world) (uncommitted : turn.uncommitted = true →
      world.turn.uncommitted = true)
    (eligible : turn.eligible = none ∨ turn.eligible = world.turn.eligible) :
    RowsKept { world with turn := turn } where
  expected isOpen := kept.expected (uncommitted isOpen)
  eligible pass found isEligible := by
    rcases eligible with none | same
    · have impossible := isEligible.symm.trans none
      cases impossible
    · exact kept.eligible pass found (same.symm.trans isEligible)

/-- Something is eligible only inside the transaction. -/
theorem inTransaction_of_eligible {found : Pass × List DestHash}
    (isEligible : turn.eligible = some found) :
    turn.inTransaction = true := by
  cases turn with
  | validated pass eligible => rfl
  | removed pass held => rfl
  | persisted pass eligible held => rfl
  | _ => cases isEligible

/-- The rows do not depend on managers and files. -/
theorem RowsKept.managed {other : World} (kept : RowsKept world)
    (rows : other.rows = world.rows) (expected : other.expectedRows = world.expectedRows)
    (guarded : other.guarded = world.guarded)
    (turn : other.turn = world.turn) : RowsKept other where
  expected isOpen := by
    rw [rows, expected]
    exact kept.expected (turn ▸ isOpen)
  eligible pass found isEligible := by
    rw [turn] at isEligible
    have holds := kept.eligible pass found isEligible
    simp only [World.isEligible, rows, guarded] at holds ⊢
    exact holds

theorem rowsKept_afterSave (kept : RowsKept world) {rollback : Option Held}
    (isOpen : rollback.isSome = true → world.turn.uncommitted = true) :
    RowsKept { world with turn := World.afterSave rollback } := by
  cases rollback with
  | none => exact kept.passed (by rintro ⟨⟩) (Or.inl rfl)
  | some held => exact kept.passed (fun _ => isOpen rfl) (Or.inl rfl)

theorem rowsKept_snapshotFor (kept : RowsKept world) {rollback : Option Held}
    (isOpen : rollback.isSome = true → world.turn.uncommitted = true) :
    RowsKept (world.snapshotFor rollback) := by
  rw [World.snapshotFor]
  split
  · exact rowsKept_afterSave kept isOpen
  · exact kept.passed isOpen (Or.inl rfl)

theorem rowsKept_validate (kept : RowsKept world) :
    RowsKept world.validate := by
  rw [World.validate]
  split
  · rename_i pass isTurn
    dsimp only
    split
    · exact kept.passed (by rintro ⟨⟩) (Or.inl rfl)
    · refine ⟨fun _ => kept.expected (by rw [isTurn]; rfl),
        fun other found isFound hash among => ?_⟩
      cases isFound
      obtain ⟨candidate, stale⟩ := List.mem_filter.mp among
      obtain ⟨victim, unprotected⟩ := List.mem_filter.mp candidate
      exact ⟨victim, by simpa using unprotected, stale⟩
  · exact kept

theorem rowsKept_beforeDelete (kept : RowsKept world) (busy : Bool) :
    RowsKept (world.beforeDelete busy) := by
  rw [World.beforeDelete]
  split
  · rename_i pass eligible isTurn
    have isOpen : world.turn.uncommitted = true := by
      rw [isTurn]
      rfl
    split
    · refine ⟨fun _ => kept.expected isOpen,
        fun other found isFound hash among => ?_⟩
      cases isFound
      cases among
    · split
      · exact kept.passed (fun _ => isOpen) (Or.inl rfl)
      · split
        · exact kept.passed (fun _ => isOpen) (Or.inl rfl)
        · refine ⟨fun _ => kept.expected isOpen,
            fun other found isFound => ?_⟩
          cases isFound
          exact kept.eligible pass eligible (by rw [isTurn]; rfl)
  · exact kept

theorem rowsKept_write (kept : RowsKept world) (outcome : WriteOutcome) :
    RowsKept (world.write outcome) := by
  rw [World.write]
  split
  · rename_i pass held isTurn
    have turned : RowsKept
        { world with
          turn := if outcome = .written then
              .persisted pass held.eligible (some held)
            else .failed (some held) } := by
      split
      · exact kept.passed (fun _ => by rw [isTurn]; rfl)
          (Or.inr (by rw [isTurn]; rfl))
      · exact kept.passed (fun _ => by rw [isTurn]; rfl) (Or.inl rfl)
    exact turned.managed rfl rfl rfl rfl
  · rename_i rollback taken isTurn
    have isOpen (isSome : rollback.isSome = true) :
        world.turn.uncommitted = true := by
      rw [isTurn]
      exact isSome
    have turned : RowsKept
        { world with
          turn := if outcome = .written then .saved rollback taken
            else World.afterSave rollback } := by
      split
      · exact kept.passed isOpen (Or.inl rfl)
      · exact rowsKept_afterSave kept isOpen
    exact turned.managed rfl rfl rfl rfl
  · exact kept

theorem rowsKept_acknowledge (kept : RowsKept world) (busy : Bool) :
    RowsKept (world.acknowledge busy) := by
  have released : RowsKept { world with turn := .free } :=
    kept.passed (by rintro ⟨⟩) (Or.inl rfl)
  rw [World.acknowledge]
  split
  · exact released
  · exact released.managed rfl rfl rfl rfl
  · rename_i rollback taken isTurn
    have turned := @rowsKept_afterSave world kept rollback fun isSome => by
      rw [isTurn]
      exact isSome
    exact turned.managed rfl rfl rfl rfl
  · exact kept

theorem rowsKept_restore (kept : RowsKept world) :
    RowsKept world.restore := by
  rw [World.restore]
  split
  · rename_i isTurn
    exact kept.passed (fun _ => by rw [isTurn]; rfl) (Or.inl rfl)
  · rename_i held isTurn
    split
    · exact kept.passed (fun _ => by rw [isTurn]; rfl) (Or.inl rfl)
    · have turned : RowsKept { world with turn := .restored held } :=
        kept.passed (fun _ => by rw [isTurn]; rfl) (Or.inl rfl)
      exact turned.managed rfl rfl rfl rfl
  · exact kept

theorem rowsKept_fail (kept : RowsKept world) : RowsKept world.fail := by
  rw [World.fail]
  split
  · rename_i pass isTurn
    exact kept.passed (fun _ => by rw [isTurn]; rfl) (Or.inl rfl)
  · rename_i pass eligible isTurn
    exact kept.passed (fun _ => by rw [isTurn]; rfl) (Or.inl rfl)
  · rename_i pass held isTurn
    exact kept.passed (fun _ => by rw [isTurn]; rfl) (Or.inl rfl)
  · rename_i pass eligible held isTurn
    exact kept.passed (fun _ => by rw [isTurn]; rfl) (Or.inl rfl)
  · exact kept

theorem RowsKept.step (kept : RowsKept world) (event : PruneEvent) :
    RowsKept (world.step event) := by
  cases event with
  | announce hash key =>
      change RowsKept (world.announce hash key)
      rw [World.announce]
      split
      · exact kept
      · exact kept.managed rfl rfl rfl rfl
  | writeRows change guarded =>
      change RowsKept (world.writeRows change guarded)
      rw [World.writeRows]
      split
      · exact kept
      · rename_i outside
        refine ⟨fun isOpen => ?_, fun pass found isFound => ?_⟩
        · change change world.rows = change world.expectedRows
          rw [kept.expected isOpen]
        · exact (outside (inTransaction_of_eligible isFound)).elim
  | drop => exact kept.managed rfl rfl rfl rfl
  | load identityHash =>
      change RowsKept (world.load identityHash)
      rw [World.load]
      split
      · exact kept
      · exact kept.managed rfl rfl rfl rfl
  | install =>
      change RowsKept world.install
      rw [World.install]
      split
      · exact kept
      · exact kept.managed rfl rfl rfl rfl
  | begin pass =>
      rcases world.step_begin pass with begun | same
      · rw [begun]
        exact ⟨fun _ => rfl, by rintro _ _ ⟨⟩⟩
      · rw [same]
        exact kept
  | validate => exact rowsKept_validate kept
  | beforeDelete busy => exact rowsKept_beforeDelete kept busy
  | write outcome => exact rowsKept_write kept outcome
  | fail => exact rowsKept_fail kept
  | commit =>
      change RowsKept world.commit
      rw [World.commit]
      split
      · exact ⟨by rintro ⟨⟩, by rintro _ _ ⟨⟩⟩
      · exact kept
  | acknowledge busy => exact rowsKept_acknowledge kept busy
  | restore => exact rowsKept_restore kept
  | capture =>
      rcases world.step_capture with ⟨held, isTurn, captured⟩ | same
      · rw [captured]
        exact rowsKept_snapshotFor kept fun _ => by
          rw [isTurn]
          rfl
      · rw [same]
        exact kept
  | checkpoint =>
      rcases world.step_checkpoint with ⟨isTurn, captured⟩ | same
      · rw [captured]
        exact rowsKept_snapshotFor kept (by simp)
      · rw [same]
        exact kept
  | release =>
      rcases world.step_release with released | same
      · rw [released]
        exact kept.passed (by rintro ⟨⟩) (Or.inl rfl)
      · rw [same]
        exact kept

/-! ## Where keys come from -/

/-- The user identity once learned the key, or found it in its first file. -/
def Heard (original : String → List UInt8)
    (learned : List (String × DestHash × PublicKey)) (identityHash : String)
    (hash : DestHash) (key : PublicKey) : Prop :=
  view (original identityHash) hash = some key ∨ (identityHash, hash, key) ∈ learned

structure Sources (original : String → List UInt8) (world : World) :
    Prop where
  files : ∀ identityHash hash key,
    view (world.files identityHash) hash = some key →
      Heard original world.learned identityHash hash key
  managers : ∀ manager, world.lxmf = some manager ∨
      world.loading = some manager →
    ∀ hash key, manager.knownIdentities.lookup hash = some key →
      Heard original world.learned manager.identityHash hash key
  bytes : ∀ taken, world.turn.taken = some taken → ∀ hash key,
    view taken.snapshot.bytes hash = some key →
      Heard original world.learned taken.snapshot.identityHash hash key
  removed : ∀ held, world.turn.pending = some held ∨
      world.turn.back = some held →
    ∀ hash key, (hash, key) ∈ held.removed →
      Heard original world.learned held.taken.snapshot.identityHash hash key

variable {original : String → List UInt8}

theorem Sources.passed (sources : Sources original world)
    (taken : turn.taken = none ∨ turn.taken = world.turn.taken)
    (held : ∀ held, turn.pending = some held ∨ turn.back = some held →
      world.turn.pending = some held ∨ world.turn.back = some held) :
    Sources original { world with turn := turn } where
  files := sources.files
  managers := sources.managers
  bytes other isTaken := by
    rcases taken with none | same
    · have impossible := isTaken.symm.trans none
      cases impossible
    · exact sources.bytes other (same.symm.trans isTaken)
  removed other holds := sources.removed other (held other holds)

theorem Sources.rowed (sources : Sources original world)
    (rows expected : FiniteMap DestHash Int) (guarded : List DestHash) :
    Sources original
      { world with
        rows := rows, expectedRows := expected, guarded := guarded } :=
  ⟨sources.files, sources.managers, sources.bytes, sources.removed⟩

/-- Managers with the same maps. -/
theorem Sources.remapped (sources : Sources original world)
    {change : LxmfManager → LxmfManager} (same : ∀ manager,
      (change manager).knownIdentities = manager.knownIdentities ∧
        (change manager).identityHash = manager.identityHash) :
    Sources original { world with lxmf := world.lxmf.map change } where
  files := sources.files
  managers manager there hash key known := by
    rcases there with inPlace | isLoading
    · obtain ⟨before, wasThere, isAfter⟩ :=
        Option.map_eq_some_iff.mp inPlace
      rw [← isAfter, (same before).1] at known
      rw [← isAfter, (same before).2]
      exact sources.managers before (Or.inl wasThere) hash key known
    · exact sources.managers manager (Or.inr isLoading) hash key known
  bytes := sources.bytes
  removed := sources.removed

/-- The file of a snapshot. -/
theorem Sources.write (sources : Sources original world) {snapshot : Taken}
    (holds : world.turn.taken = some snapshot) :
    Sources original
      { world with
        files := Function.update world.files
          snapshot.snapshot.identityHash snapshot.snapshot.bytes } where
  files identityHash hash key known := by
    change view (Function.update world.files snapshot.snapshot.identityHash
      snapshot.snapshot.bytes identityHash) hash = _ at known
    rw [Function.update_apply] at known
    split at known
    · rename_i own
      rw [own]
      exact sources.bytes snapshot holds hash key known
    · exact sources.files identityHash hash key known
  managers := sources.managers
  bytes := sources.bytes
  removed := sources.removed

theorem sources_announce (sources : Sources original world)
    (hash : DestHash) (key : PublicKey) :
    Sources original (world.announce hash key) := by
  rw [World.announce]
  split
  · exact sources
  · rename_i manager there
    have more {identityHash : String} {other : DestHash}
        {otherKey : PublicKey}
        (heard : Heard original world.learned identityHash other otherKey) :
        Heard original
          ((manager.identityHash, hash, key) :: world.learned)
          identityHash other otherKey :=
      heard.imp_right (List.mem_cons_of_mem _)
    refine ⟨fun identityHash other otherKey known =>
        more (sources.files identityHash other otherKey known),
      fun changed isChanged other otherKey known => ?_,
      fun taken isTaken other otherKey known =>
        more (sources.bytes taken isTaken other otherKey known),
      fun held holds other otherKey among =>
        more (sources.removed held holds other otherKey among)⟩
    rcases isChanged with inPlace | isLoading
    · cases inPlace
      have identity := (manager.revises_updateRemoteCrypto hash key).identity
      have whole := congrFun (manager.lookup_updateRemoteCrypto hash key) other
      rw [whole, Function.update_apply] at known
      rw [identity]
      split at known
      · rename_i own
        cases known
        rw [own]
        exact Or.inr List.mem_cons_self
      · exact more (sources.managers manager (Or.inl there) other otherKey known)
    · exact more (sources.managers changed (Or.inr isLoading) other otherKey known)

theorem sources_load (sources : Sources original world) (identityHash : String) :
    Sources original (world.load identityHash) := by
  rw [World.load]
  split
  · exact sources
  · refine ⟨sources.files, fun manager there hash key known => ?_,
      sources.bytes, sources.removed⟩
    rcases there with inPlace | isLoading
    · exact sources.managers manager (Or.inl inPlace) hash key known
    · cases isLoading
      exact sources.files identityHash hash key known

theorem sources_install (sources : Sources original world) :
    Sources original world.install := by
  rw [World.install]
  split
  · exact sources
  · rename_i manager isLoading
    refine ⟨sources.files, fun other there hash key known => ?_,
      sources.bytes, sources.removed⟩
    rcases there with inPlace | impossible
    · cases inPlace
      exact sources.managers manager (Or.inr isLoading) hash key known
    · cases impossible

theorem sources_afterSave (sources : Sources original world) {rollback : Option Held}
    (held : rollback = none ∨ world.turn.back = rollback) :
    Sources original { world with turn := World.afterSave rollback } := by
  apply sources.passed (Or.inl (taken_afterSave rollback))
  intro other holds
  cases rollback with
  | none => rcases holds with impossible | impossible <;> cases impossible
  | some restored =>
      rcases held with impossible | same
      · cases impossible
      · rcases holds with impossible | isBack
        · cases impossible
        · exact Or.inr (same.trans isBack)

theorem sources_snapshotFor (sources : Sources original world) {rollback : Option Held}
    (held : rollback = none ∨ world.turn.back = rollback) :
    Sources original (world.snapshotFor rollback) := by
  rw [World.snapshotFor]
  split
  · exact sources_afterSave sources held
  · rename_i manager there
    refine ⟨sources.files, sources.managers,
      fun taken isTaken hash key known => ?_,
      fun other holds => ?_⟩
    · cases isTaken
      change view (knownIdentitiesBlob _) hash = _ at known
      rw [view_knownIdentitiesBlob] at known
      exact sources.managers manager (Or.inl there) hash key known
    · apply sources.removed other
      rcases holds with impossible | isBack
      · cases impossible
      · rcases held with none | same
        · have impossible := isBack.symm.trans none
          cases impossible
        · exact Or.inr (same.trans isBack)

theorem sources_beforeDelete (sources : Sources original world)
    (busy : Bool) : Sources original (world.beforeDelete busy) := by
  rw [World.beforeDelete]
  split
  · rename_i pass eligible isTurn
    split
    · exact sources.passed (Or.inl rfl) fun _ holds => by
        rcases holds with impossible | impossible <;> cases impossible
    · split
      · exact sources.passed (Or.inl rfl) fun _ holds => by
          rcases holds with impossible | impossible <;> cases impossible
      · split
        · exact sources.passed (Or.inl rfl) fun _ holds => by
            rcases holds with impossible | impossible <;> cases impossible
        · rename_i manager there
          have old := sources.managers manager (Or.inl there)
          have pruned (hash : DestHash) (key : PublicKey)
              (known : (manager.removeKnownIdentities
                eligible).knownIdentities.lookup hash = some key) :
              Heard original world.learned manager.identityHash hash
                key := by
            rw [LxmfManager.lookup_removeKnownIdentities] at known
            split at known
            · cases known
            · exact old hash key known
          refine ⟨sources.files, fun other isOther hash key known => ?_,
            fun taken isTaken hash key known => ?_,
            fun held holds hash key among => ?_⟩
          · rcases isOther with inPlace | isLoading
            · cases inPlace
              exact pruned hash key known
            · exact sources.managers other (Or.inr isLoading) hash key known
          · cases isTaken
            change view (knownIdentitiesBlob _) hash = _ at known
            rw [view_knownIdentitiesBlob] at known
            exact pruned hash key known
          · rcases holds with isPending | impossible
            · cases isPending
              exact old hash key (LxmfManager.mem_removedIdentities.mp among).2
            · cases impossible
  · exact sources

theorem sources_write (sources : Sources original world)
    (outcome : WriteOutcome) : Sources original (world.write outcome) := by
  have filed {snapshot : Taken} (holds : world.turn.taken = some snapshot) :
      Sources original
        { world with files := world.written snapshot.snapshot outcome } := by
    cases outcome with
    | failed => exact sources
    | written => exact sources.write holds
    | unsure => exact sources.write holds
  rw [World.write]
  split
  · rename_i pass held isTurn
    have stored := @filed held.taken (by rw [isTurn]; rfl)
    apply stored.passed
    · right
      change _ = world.turn.taken
      rw [isTurn]
      split <;> rfl
    · intro other holds
      left
      change world.turn.pending = _
      rw [isTurn]
      split at holds <;> rcases holds with isHeld | impossible
      · exact isHeld
      · cases impossible
      · exact isHeld
      · cases impossible
  · rename_i rollback taken isTurn
    have stored := @filed taken (by rw [isTurn]; rfl)
    have isBack : world.turn.back = rollback := by
      rw [isTurn]
      rfl
    split
    · apply stored.passed
      · right
        change _ = world.turn.taken
        rw [isTurn]
        rfl
      · intro other holds
        right
        change world.turn.back = _
        rcases holds with impossible | isHeld
        · cases impossible
        · exact isBack.trans isHeld
    · exact sources_afterSave stored (Or.inr isBack)
  · exact sources

/-- A turn that holds nothing. -/
theorem Sources.emptied (sources : Sources original world)
    (taken : turn.taken = none) (pending : turn.pending = none) (back : turn.back = none) :
    Sources original { world with turn := turn } := by
  apply sources.passed (Or.inl taken)
  intro held holds
  rcases holds with isPending | isBack
  · have impossible := isPending.symm.trans pending
    cases impossible
  · have impossible := isBack.symm.trans back
    cases impossible

/-- A turn that holds the same, though for another end. -/
theorem Sources.kept (sources : Sources original world)
    (taken : turn.taken = none ∨ turn.taken = world.turn.taken)
    (held : turn.pending = none ∧ turn.back = world.turn.pending ∨
      turn.back = none ∧ turn.pending = world.turn.pending) :
    Sources original { world with turn := turn } := by
  apply sources.passed taken
  intro other holds
  rcases held with ⟨none, same⟩ | ⟨none, same⟩
  · rcases holds with isPending | isBack
    · have impossible := isPending.symm.trans none
      cases impossible
    · exact Or.inl (same.symm.trans isBack)
  · rcases holds with isPending | isBack
    · exact Or.inl (same.symm.trans isPending)
    · have impossible := isBack.symm.trans none
      cases impossible

theorem sources_fail (sources : Sources original world) :
    Sources original world.fail := by
  rw [World.fail]
  split
  · exact sources.emptied rfl rfl rfl
  · exact sources.emptied rfl rfl rfl
  · rename_i pass held isTurn
    exact sources.kept (Or.inr (by rw [isTurn]; rfl))
      (Or.inr ⟨rfl, by rw [isTurn]; rfl⟩)
  · rename_i pass eligible held isTurn
    exact sources.kept (Or.inr (by rw [isTurn]; rfl))
      (Or.inr ⟨rfl, by rw [isTurn]; rfl⟩)
  · exact sources

theorem identity_acknowledge (manager : LxmfManager) (snapshot : KnownIdentitiesSnapshot) :
    (manager.acknowledgeKnownIdentitiesSnapshot
          snapshot).knownIdentities = manager.knownIdentities ∧
      (manager.acknowledgeKnownIdentitiesSnapshot
          snapshot).identityHash = manager.identityHash := by
  refine ⟨knownIdentities_acknowledge manager snapshot, ?_⟩
  rw [LxmfManager.acknowledgeKnownIdentitiesSnapshot]
  split
  · rfl
  · rfl

theorem sources_acknowledge (sources : Sources original world)
    (busy : Bool) : Sources original (world.acknowledge busy) := by
  rw [World.acknowledge]
  split
  · exact sources.emptied rfl rfl rfl
  · rename_i held isTurn
    have released : Sources original { world with turn := .free } :=
      sources.emptied rfl rfl rfl
    cases busy with
    | true => exact released
    | false => exact released.remapped fun manager => identity_acknowledge manager _
  · rename_i rollback taken isTurn
    have turned := @sources_afterSave world original sources rollback
      (Or.inr (by rw [isTurn]; rfl))
    exact turned.remapped fun manager => identity_acknowledge manager _
  · exact sources

/-- What comes back goes to the user identity that it was taken from. -/
theorem sources_restore (sources : Sources original world) (coherent : Coherent world)
    (allowed : careful world .restore = true) :
    Sources original world.restore := by
  rw [World.restore]
  split
  · exact sources.emptied rfl rfl rfl
  · rename_i held isTurn
    have isPending : world.turn.pending = some held := by
      rw [isTurn]
      rfl
    split
    · exact sources.kept (Or.inl rfl) (Or.inl ⟨rfl, by rw [isTurn]; rfl⟩)
    · rename_i some
      have turned : Sources original { world with turn := .restored held } :=
        sources.kept (Or.inr (by rw [isTurn]; rfl))
          (Or.inl ⟨rfl, by rw [isTurn]; rfl⟩)
      rw [careful, isTurn] at allowed
      simp only [Bool.or_eq_true, some, Bool.false_eq_true, false_or] at allowed
      refine ⟨turned.files, fun changed isChanged hash key known => ?_,
        turned.bytes, turned.removed⟩
      rcases isChanged with inPlace | isLoading
      · obtain ⟨manager, there, isAfter⟩ :=
          Option.map_eq_some_iff.mp inPlace
        rw [there, Option.any_some] at allowed
        simp only [Bool.and_eq_true, decide_eq_true_eq] at allowed
        have tracks := (coherent.tracks held.taken (by rw [isTurn]; rfl)).2 manager there
        have own := tracks.same.mpr allowed.1.2
        have restored := congrFun (manager.lookup_restoreKnownIdentities held.removed) hash
        rw [← isAfter, restored] at known
        rw [← isAfter, (manager.revises_restoreKnownIdentities held.removed).identity]
        by_cases among : hash ∈ (held.removed.map fun entry =>
            (entry.1, Option.some entry.2)).map Prod.fst
        · -- Whatever is written over a key is one of the entries.
          have written := mem_of_overwrite among known
          obtain ⟨found, isFound, isPair⟩ := List.mem_map.mp written
          have sameHash : found.1 = hash := congrArg Prod.fst isPair
          have sameKey : Option.some found.2 = Option.some key :=
            congrArg Prod.snd isPair
          have heard := sources.removed held (Or.inl isPending) found.1 found.2 isFound
          rw [sameHash, Option.some.inj sameKey] at heard
          rw [own]
          exact heard
        · rw [overwrite_of_not_mem among] at known
          exact sources.managers manager (Or.inl there) hash key known
      · exact sources.managers changed (Or.inr isLoading) hash key known
  · exact sources

theorem Sources.step (sources : Sources original world)
    (coherent : Coherent world) (event : PruneEvent) (allowed : careful world event = true) :
    Sources original (world.step event) := by
  cases event with
  | announce hash key => exact sources_announce sources hash key
  | writeRows change guarded =>
      change Sources original (world.writeRows change guarded)
      rw [World.writeRows]
      split
      · exact sources
      · exact sources.rowed _ _ _
  | drop =>
      refine ⟨sources.files, fun manager there => ?_, sources.bytes,
        sources.removed⟩
      rcases there with impossible | isLoading
      · cases impossible
      · exact sources.managers manager (Or.inr isLoading)
  | load identityHash => exact sources_load sources identityHash
  | install => exact sources_install sources
  | begin pass =>
      rcases world.step_begin pass with begun | same
      · rw [begun]
        have queued : Sources original { world with turn := .queued pass } :=
          sources.emptied rfl rfl rfl
        exact queued.rowed _ _ _
      · rw [same]
        exact sources
  | validate =>
      change Sources original world.validate
      rw [World.validate]
      split
      · dsimp only
        split
        · exact sources.emptied rfl rfl rfl
        · exact sources.emptied rfl rfl rfl
      · exact sources
  | beforeDelete busy => exact sources_beforeDelete sources busy
  | write outcome => exact sources_write sources outcome
  | fail => exact sources_fail sources
  | commit =>
      change Sources original world.commit
      rw [World.commit]
      split
      · rename_i pass eligible held isTurn
        have committed := @Sources.kept world (.committed held) original
          sources (Or.inr (by rw [isTurn]; rfl))
          (Or.inr ⟨rfl, by rw [isTurn]; rfl⟩)
        exact committed.rowed _ _ _
      · exact sources
  | acknowledge busy => exact sources_acknowledge sources busy
  | restore => exact sources_restore sources coherent allowed
  | capture =>
      rcases world.step_capture with ⟨held, isTurn, captured⟩ | same
      · rw [captured]
        apply sources_snapshotFor sources
        rw [isTurn]
        exact Or.inr rfl
      · rw [same]
        exact sources
  | checkpoint =>
      rcases world.step_checkpoint with ⟨isTurn, captured⟩ | same
      · rw [captured]
        exact sources_snapshotFor sources (Or.inl rfl)
      · rw [same]
        exact sources
  | release =>
      rcases world.step_release with released | same
      · rw [released]
        exact sources.emptied rfl rfl rfl
      · rw [same]
        exact sources

/-! ## Whole runs -/

/-- Before any manager was loaded. -/
def World.start (original : String → List UInt8)
    (rows : FiniteMap DestHash Int) (guarded : List DestHash) : World where
  lxmf := none
  session := 0
  loading := none
  files := original
  rows := rows
  guarded := guarded
  turn := .free
  expectedRows := rows
  newest := fun _ => none
  heard := []
  learned := []

structure Sound (original : String → List UInt8) (world : World) :
    Prop where
  coherent : Coherent world
  recalls : Recalls world
  rows : RowsKept world
  sources : Sources original world

theorem sound_start (original : String → List UInt8)
    (rows : FiniteMap DestHash Int) (guarded : List DestHash) :
    Sound original (.start original rows guarded) where
  coherent :=
    ⟨by rintro _ ⟨⟩,
      by rintro _ ⟨⟩,
      by rintro _ ⟨⟩,
      by rintro _ ⟨⟩,
      by rintro _ ⟨⟩⟩
  recalls :=
    ⟨(fun _ holds => by
        rcases holds with impossible | impossible <;> cases impossible),
      by rintro _ _ _ ⟨⟩,
      by rintro _ ⟨⟩,
      by rintro _ ⟨⟩⟩
  rows :=
    ⟨by rintro ⟨⟩, by rintro _ _ ⟨⟩⟩
  sources :=
    ⟨fun _ _ _ known => Or.inl known,
      (fun _ there => by
        rcases there with impossible | impossible <;> cases impossible),
      by rintro _ ⟨⟩,
      (fun _ holds => by
        rcases holds with impossible | impossible <;> cases impossible)⟩

theorem Sound.step (sound : Sound original world) (event : PruneEvent)
    (allowed : careful world event = true) :
    Sound original (world.step event) where
  coherent := sound.coherent.step event allowed
  recalls := sound.recalls.step sound.coherent event allowed
  rows := sound.rows.step event
  sources := sound.sources.step sound.coherent event allowed

/-- Over every careful run: a map that differs from its file is marked dirty;
a manager knows only what its own user identity has learned; a pass that
commits has taken the same identities out of the manager, the file and the
rows; and a pass that has failed leaves every row, and every identity that was
known, under its newest key. -/
theorem prune_run (original : String → List UInt8)
    (rows : FiniteMap DestHash Int) (guarded : List DestHash) (events : List PruneEvent)
    (along : Along World.step (fun world event => careful world event = true)
      (.start original rows guarded) events) :
    let world := runFrom World.step (.start original rows guarded) events
    (∀ manager, world.lxmf = some manager →
      view (world.files manager.identityHash) ≠ manager.knownIdentities.lookup →
      manager.knownIdentitiesDirty = true) ∧
    (∀ manager, world.lxmf = some manager → ∀ hash key,
      manager.knownIdentities.lookup hash = some key →
      Heard original world.learned manager.identityHash hash key) ∧
    (∀ pass eligible held, world.turn = .persisted pass eligible held →
      world.rows = world.expectedRows ∧
      (∀ hash ∈ eligible, hash ∈ pass.victims ∧
        hash ∉ pass.protectedExtra ∧
        world.isEligible pass.cutoff hash = true) ∧
      (∀ hash, (world.step .commit).rows.lookup hash =
        if hash ∈ eligible then none else world.rows.lookup hash) ∧
      (held = none → eligible = []) ∧
      ∀ out, held = some out →
        (∀ hash key, (hash, key) ∈ out.removed ↔
          hash ∈ eligible ∧ out.before.lookup hash = some key) ∧
        (∀ hash, view (world.files out.taken.snapshot.identityHash) hash =
          if hash ∈ eligible then none else out.before.lookup hash) ∧
        ∀ manager, world.lxmf = some manager →
          world.session = out.taken.session →
          ∀ hash ∈ eligible, hash ∉ world.heard → manager.knownIdentities.lookup hash = none) ∧
    ∀ held, world.turn = .rolledBack held →
      world.rows = world.expectedRows ∧
      ∀ out, held = some out →
        (out.removed ≠ [] → world.lxmf ≠ none ∧ world.session = out.taken.session) ∧
        ∀ manager, world.lxmf = some manager →
          world.session = out.taken.session →
          ∀ hash key, world.newest hash = some key →
            manager.knownIdentities.lookup hash = some key := by
  intro world
  have sound : Sound original world :=
    invariant_runFrom (Sound original)
      (fun _ event held allowed => held.step event allowed)
      (sound_start original rows guarded) along
  refine ⟨fun manager there differs => ?_,
    fun manager there => sound.sources.managers manager (Or.inl there),
    fun pass eligible held isTurn => ?_, fun held isTurn => ?_⟩
  · rw [LxmfManager.knownIdentitiesDirty, decide_eq_true_eq]
    intro same
    exact differs (sound.coherent.clean manager there same.symm)
  · obtain ⟨nothing, agrees⟩ := sound.recalls.agree pass eligible held isTurn
    have isOpen : world.turn.uncommitted = true := by
      rw [isTurn]
      rfl
    refine ⟨sound.rows.expected isOpen,
      sound.rows.eligible pass eligible (by rw [isTurn]; rfl),
      fun hash => ?_, nothing, fun out isHeld => ?_⟩
    · change (world.commit).rows.lookup hash = _
      rw [World.commit, isTurn]
      change (FiniteMap.retain _ world.rows).lookup hash = _
      rw [FiniteMap.lookup_retain]
      by_cases among : hash ∈ eligible
      · rw [if_pos among]
        simp [among]
      · rw [if_neg among]
        cases found : world.rows.lookup hash with
        | none => rfl
        | some seen => simp [among]
    · have isPending : world.turn.pending = some out := by
        rw [isTurn]
        exact isHeld
      have isFiled : world.turn.filed = some out.taken := by
        rw [isTurn, isHeld]
        rfl
      have isOwn := agrees out isHeld
      have entries := (sound.recalls.sound out (Or.inl isPending)).1
      refine ⟨fun hash key => ?_, fun hash => ?_,
        fun manager there session => ?_⟩
      · rw [← isOwn]
        exact entries.entries hash key
      · rw [sound.coherent.filed out.taken isFiled, ← isOwn]
        exact entries.bytes hash
      · rw [← isOwn]
        exact (sound.recalls.pending out isPending manager there session).gone
  · have isOpen : world.turn.uncommitted = true := by
      rw [isTurn]
      rfl
    refine ⟨sound.rows.expected isOpen, fun out isHeld => ?_⟩
    exact sound.recalls.back out (by rw [isTurn]; exact isHeld)

/-! ## Runs in which a pass does damage -/

private def staleHash : DestHash :=
  Bytes.replicate 16 1

private def emptyFiles : String → List UInt8 :=
  fun _ => []

private def removing : List PruneEvent :=
  [.load "a", .install, .announce staleHash (Bytes.replicate 64 1),
    .writeRows (fun rows => rows.insert staleHash 5) [],
    .begin { victims := [staleHash], cutoff := 10, protectedExtra := [] },
    .validate, .beforeDelete false]

private def reached (events : List PruneEvent) : World :=
  runFrom World.step (.start emptyFiles ∅ []) events

instance (original : String → List UInt8)
    (learned : List (String × DestHash × PublicKey))
    (identityHash : String) (hash : DestHash) (key : PublicKey) :
    Decidable (Heard original learned identityHash hash key) :=
  inferInstanceAs (Decidable (_ ∨ _))

private def rollingBack : List PruneEvent :=
  removing ++ [.write .written, .fail, .restore, .capture, .write .written, .acknowledge false]

/-- A pass fails after it has written the file, and gives back what it took
out. -/
theorem prune_run_rollback :
    ((reached rollingBack).lxmf.any fun manager =>
      manager.knownIdentities.lookup staleHash = some (Bytes.replicate 64 1)) = true ∧
    ∀ manager, (reached rollingBack).lxmf = some manager →
      ∀ hash key, manager.knownIdentities.lookup hash = some key →
        Heard emptyFiles (reached rollingBack).learned manager.identityHash hash key :=
  ⟨by decide +kernel,
    (prune_run emptyFiles ∅ [] rollingBack (by decide +kernel)).2.1⟩

/-- A failed pass gives an identity to the manager of a user identity that has
never heard of it. -/
theorem prune_damages :
    ((reached (removing ++ [.fail, .drop, .load "b", .install,
        .restore])).lxmf.any fun manager =>
      manager.identityHash = "b" &&
        manager.knownIdentities.lookup staleHash = some (Bytes.replicate 64 1) &&
        !decide (Heard emptyFiles (reached (removing ++ [.fail, .drop,
          .load "b", .install, .restore])).learned "b" staleHash
            (Bytes.replicate 64 1))) = true := by
  decide +kernel

end Ratspeak.Identities
