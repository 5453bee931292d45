import Ratspeak.Identities.KnownIdentities

/-!
# Pruning over whole runs

A manager whose revision is the persisted one holds what its file holds.  The
invariant behind this follows the snapshot that the owner of the turn has
taken: as long as the manager in place is the one it was taken of, its
revision is at least that of the snapshot, and where they are equal, so are
the maps.

What a pass took out comes back under the newest keys if the manager is still
in place when it does, and if none of the identities has been learned under
another key since.
-/

namespace Ratspeak.Identities

open Library Library.Overlay

/-! ## What the owner of the turn holds -/

namespace Turn

def taken : Turn → Option Taken
  | .removed _ held => some held.taken
  | .persisted _ _ held => held.map Held.taken
  | .committed held => held.map Held.taken
  | .failed held => held.map Held.taken
  | .restored held => some held.taken
  | .saving _ taken => some taken
  | .saved _ taken => some taken
  | _ => none

/-- The snapshot that is in its file. -/
def filed : Turn → Option Taken
  | .persisted _ _ held => held.map Held.taken
  | .committed held => held.map Held.taken
  | .saved _ taken => some taken
  | _ => none

/-- What was taken out and has not been put back. -/
def pending : Turn → Option Held
  | .removed _ held => some held
  | .persisted _ _ held => held
  | .committed held => held
  | .failed held => held
  | _ => none

/-- What a failed pass has put back. -/
def back : Turn → Option Held
  | .restored held => some held
  | .saving rollback _ => rollback
  | .saved rollback _ => rollback
  | .rolledBack held => held
  | _ => none

/-- The identities that a pass is about to delete. -/
def eligible : Turn → Option (Pass × List DestHash)
  | .validated pass eligible => some (pass, eligible)
  | .removed pass held => some (pass, held.eligible)
  | .persisted pass eligible _ => some (pass, eligible)
  | _ => none

/-- A pass has begun and not committed. -/
def uncommitted : Turn → Bool
  | .queued _ => true
  | .validated _ _ => true
  | .removed _ _ => true
  | .persisted _ _ _ => true
  | .failed _ => true
  | .restored _ => true
  | .saving rollback _ => rollback.isSome
  | .saved rollback _ => rollback.isSome
  | .rolledBack _ => true
  | _ => false

end Turn

/-- No removed identity has been learned under another key. -/
def Held.isUnchanged (held : Held) (manager : LxmfManager) : Bool :=
  held.removed.all fun entry =>
    (manager.knownIdentities.lookup entry.1).all fun key => key = entry.2

/-- The steps under which pruning is all-or-nothing.  Revisions do not run
out; an identity is not loaded again while a pass over it or a save of it is
under way; a failed pass finds the manager in place and the removed
identities unchanged; and the manager is not dropped until what was put back
has been saved.  The step that would go wrong after a load is the
acknowledgement of a save that began before it; no load at all under way is
more than that needs. -/
def careful (world : World) : PruneEvent → Bool
  | .announce _ _ => world.lxmf.all fun manager => decide manager.HasRoom
  | .beforeDelete _ => world.lxmf.all fun manager => decide manager.HasRoom
  | .load identityHash =>
      world.turn.taken.all fun taken =>
        taken.snapshot.identityHash ≠ identityHash
  | .drop => world.turn.back.all fun held => held.removed.isEmpty
  | .restore =>
      match world.turn with
      | .failed (some held) =>
          held.removed.isEmpty ||
            world.lxmf.any fun manager =>
              decide manager.HasRoom &&
                decide (world.session = held.taken.session) &&
                held.isUnchanged manager
      | _ => true
  | _ => true

/-! ## Steps that wait for their turn -/

theorem World.step_begin (world : World) (pass : Pass) :
    world.step (.begin pass) =
        { world with turn := .queued pass, expectedRows := world.rows } ∨
      world.step (.begin pass) = world := by
  unfold World.step
  dsimp only
  split
  · exact Or.inl rfl
  · exact Or.inr rfl

theorem World.step_capture (world : World) :
    (∃ held, world.turn = .restored held ∧
      world.step .capture = world.snapshotFor (some held)) ∨
    world.step .capture = world := by
  unfold World.step
  dsimp only
  split
  · rename_i held isTurn
    exact Or.inl ⟨held, isTurn, rfl⟩
  · exact Or.inr rfl

theorem World.step_checkpoint (world : World) :
    (world.turn = .free ∧ world.step .checkpoint = world.snapshotFor none) ∨
      world.step .checkpoint = world := by
  unfold World.step
  dsimp only
  split
  · rename_i isTurn
    exact Or.inl ⟨isTurn, rfl⟩
  · exact Or.inr rfl

theorem World.step_release (world : World) :
    world.step .release = { world with turn := .free } ∨
      world.step .release = world := by
  unfold World.step
  dsimp only
  split
  · exact Or.inl rfl
  · exact Or.inr rfl

/-! ## Managers, files and snapshots -/

/-- The manager in place and a snapshot. -/
structure Tracks (taken : Taken) (session : Nat) (manager : LxmfManager) :
    Prop where
  same : manager.identityHash = taken.snapshot.identityHash ↔ session = taken.session
  order : session = taken.session →
    taken.snapshot.revision.toNat ≤
        manager.knownIdentitiesRevision.toNat ∧
      manager.knownIdentitiesPersistedRevision.toNat ≤ taken.snapshot.revision.toNat
  bytes : session = taken.session →
    manager.knownIdentitiesRevision = taken.snapshot.revision →
    view taken.snapshot.bytes = manager.knownIdentities.lookup

structure Coherent (world : World) : Prop where
  ordered : ∀ manager, world.lxmf = some manager →
    manager.knownIdentitiesPersistedRevision.toNat ≤ manager.knownIdentitiesRevision.toNat
  clean : ∀ manager, world.lxmf = some manager →
    manager.knownIdentitiesPersistedRevision = manager.knownIdentitiesRevision →
    view (world.files manager.identityHash) = manager.knownIdentities.lookup
  loaded : ∀ manager, world.loading = some manager →
    world.lxmf = none ∧ manager.knownIdentitiesRevision = 0 ∧
      manager.knownIdentitiesPersistedRevision = 0 ∧
      view (world.files manager.identityHash) = manager.knownIdentities.lookup ∧
      ∀ taken, world.turn.taken = some taken →
        taken.snapshot.identityHash ≠ manager.identityHash
  tracks : ∀ taken, world.turn.taken = some taken →
    taken.session ≤ world.session ∧
      ∀ manager, world.lxmf = some manager → Tracks taken world.session manager
  filed : ∀ taken, world.turn.filed = some taken →
    world.files taken.snapshot.identityHash = taken.snapshot.bytes

section Coherence

variable {world : World} {manager changed : LxmfManager} {turn : Turn}

/-- A change of the map. -/
theorem Coherent.revise (coherent : Coherent world)
    (there : world.lxmf = some manager) (room : manager.HasRoom)
    (revises : Revises manager changed) :
    Coherent { world with lxmf := some changed } where
  ordered other isOther := by
    cases isOther
    have below := coherent.ordered manager there
    rw [revises.persisted]
    rcases revises.revision with ⟨same, -⟩ | grown
    · rw [same]
      exact below
    · rw [grown room]
      omega
  clean other isOther isClean := by
    cases isOther
    have below := coherent.ordered manager there
    rw [revises.persisted] at isClean
    rcases revises.revision with ⟨same, sameMap⟩ | grown
    · rw [same] at isClean
      rw [revises.identity, sameMap]
      exact coherent.clean manager there isClean
    · have more := grown room
      rw [← isClean] at more
      omega
  loaded other isOther := by
    have absent := (coherent.loaded other isOther).1
    rw [there] at absent
    cases absent
  tracks taken isTaken := by
    obtain ⟨earlier, tracks⟩ := coherent.tracks taken isTaken
    refine ⟨earlier, fun other isOther => ?_⟩
    cases isOther
    have old := tracks manager there
    refine ⟨?_, fun same => ?_, fun same sameRevision => ?_⟩
    · rw [revises.identity]
      exact old.same
    · obtain ⟨since, persisted⟩ := old.order same
      rw [revises.persisted]
      rcases revises.revision with ⟨sameRevision, -⟩ | grown
      · rw [sameRevision]
        exact ⟨since, persisted⟩
      · rw [grown room]
        exact ⟨by omega, persisted⟩
    · rcases revises.revision with ⟨unchanged, sameMap⟩ | grown
      · rw [unchanged] at sameRevision
        rw [sameMap]
        exact old.bytes same sameRevision
      · have more := grown room
        have since := (old.order same).1
        rw [sameRevision] at more
        omega
  filed := coherent.filed

/-- A turn that holds no more than before. -/
theorem Coherent.turned (coherent : Coherent world)
    (taken : ∀ taken, turn.taken = some taken → world.turn.taken = some taken)
    (filed : ∀ taken, turn.filed = some taken → world.turn.filed = some taken) :
    Coherent { world with turn := turn } where
  ordered := coherent.ordered
  clean := coherent.clean
  loaded manager isLoading := by
    obtain ⟨absent, revision, persisted, same, apart⟩ :=
      coherent.loaded manager isLoading
    exact ⟨absent, revision, persisted, same, fun other isTaken =>
      apart other (taken other isTaken)⟩
  tracks other isTaken := coherent.tracks other (taken other isTaken)
  filed other isFiled := coherent.filed other (filed other isFiled)

/-- A snapshot of the manager in place. -/
theorem Coherent.take (coherent : Coherent world) (there : world.lxmf = some manager)
    (taken : turn.taken = some
      { snapshot := manager.knownIdentitiesSnapshot
        session := world.session })
    (filed : turn.filed = none) :
    Coherent { world with turn := turn } where
  ordered := coherent.ordered
  clean := coherent.clean
  loaded other isLoading := by
    have absent := (coherent.loaded other isLoading).1
    rw [there] at absent
    cases absent
  tracks other isTaken := by
    have same := isTaken.symm.trans taken
    cases same
    refine ⟨Nat.le_refl _, fun other isOther => ?_⟩
    have isManager := isOther.symm.trans there
    cases isManager
    refine ⟨⟨fun _ => rfl, fun _ => rfl⟩, fun _ => ?_, fun _ _ => ?_⟩
    · exact ⟨Nat.le_refl _, coherent.ordered manager there⟩
    · exact view_knownIdentitiesBlob manager.knownIdentities
  filed other isFiled := by
    have impossible := isFiled.symm.trans filed
    cases impossible

/-- The snapshot is written. -/
theorem Coherent.write (coherent : Coherent world) {snapshot : Taken}
    (holds : world.turn.taken = some snapshot) (taken : ∀ taken, turn.taken = some taken →
      world.turn.taken = some taken)
    (filed : ∀ taken, turn.filed = some taken → taken = snapshot) :
    Coherent
      { world with
        files := Function.update world.files
          snapshot.snapshot.identityHash snapshot.snapshot.bytes
        turn := turn } where
  ordered := coherent.ordered
  clean manager there isClean := by
    have before := coherent.clean manager there isClean
    have tracks := (coherent.tracks snapshot holds).2 manager there
    change view (Function.update world.files snapshot.snapshot.identityHash
      snapshot.snapshot.bytes manager.identityHash) = _
    rw [Function.update_apply]
    split
    · rename_i own
      have same := tracks.same.mp own
      obtain ⟨since, persisted⟩ := tracks.order same
      apply tracks.bytes same
      apply UInt64.toNat_inj.mp
      rw [isClean] at persisted
      omega
    · exact before
  loaded manager isLoading := by
    obtain ⟨absent, revision, persisted, same, apart⟩ :=
      coherent.loaded manager isLoading
    refine ⟨absent, revision, persisted, ?_, fun other isTaken =>
      apart other (taken other isTaken)⟩
    change view (Function.update world.files snapshot.snapshot.identityHash
      snapshot.snapshot.bytes manager.identityHash) = _
    rw [Function.update_of_ne (apart snapshot holds).symm]
    exact same
  tracks other isTaken := coherent.tracks other (taken other isTaken)
  filed other isFiled := by
    rw [filed other isFiled]
    exact Function.update_self _ _ _

/-- A snapshot that is in its file is acknowledged. -/
theorem Coherent.acknowledge (coherent : Coherent world) {snapshot : Taken}
    (holds : world.turn.taken = some snapshot) (inFile : world.turn.filed = some snapshot)
    (released : turn.taken = none) (unfiled : turn.filed = none) :
    Coherent
      { world with
        lxmf := world.lxmf.map fun manager =>
          manager.acknowledgeKnownIdentitiesSnapshot snapshot.snapshot
        turn := turn } where
  ordered manager isManager := by
    obtain ⟨before, there, isAfter⟩ := Option.map_eq_some_iff.mp isManager
    rw [← isAfter, LxmfManager.acknowledgeKnownIdentitiesSnapshot]
    split
    · rename_i agrees
      change snapshot.snapshot.revision.toNat ≤ _
      rw [← agrees.2]
    · exact coherent.ordered before there
  clean manager isManager isClean := by
    obtain ⟨before, there, isAfter⟩ := Option.map_eq_some_iff.mp isManager
    rw [← isAfter, LxmfManager.acknowledgeKnownIdentitiesSnapshot]
    rw [← isAfter, LxmfManager.acknowledgeKnownIdentitiesSnapshot] at isClean
    split
    · rename_i agrees
      have tracks := (coherent.tracks snapshot holds).2 before there
      have same := tracks.same.mp agrees.1
      have inPlace := coherent.filed snapshot inFile
      change view (world.files before.identityHash) = before.knownIdentities.lookup
      rw [agrees.1, inPlace]
      exact tracks.bytes same agrees.2
    · rename_i differs
      rw [if_neg differs] at isClean
      exact coherent.clean before there isClean
  loaded manager isLoading := by
    obtain ⟨absent, revision, persisted, same, -⟩ :=
      coherent.loaded manager isLoading
    refine ⟨?_, revision, persisted, same, fun other isTaken => ?_⟩
    · change world.lxmf.map _ = none
      rw [absent]
      rfl
    · have impossible := isTaken.symm.trans released
      cases impossible
  tracks other isTaken := by
    have impossible := isTaken.symm.trans released
    cases impossible
  filed other isFiled := by
    have impossible := isFiled.symm.trans unfiled
    cases impossible

theorem Coherent.writeRows (coherent : Coherent world)
    (rows expected : FiniteMap DestHash Int) (guarded : List DestHash) :
    Coherent
      { world with
        rows := rows, expectedRows := expected, guarded := guarded } :=
  ⟨coherent.ordered, coherent.clean, coherent.loaded, coherent.tracks, coherent.filed⟩

theorem Coherent.drop (coherent : Coherent world) :
    Coherent { world with lxmf := none } where
  ordered manager impossible := by cases impossible
  clean manager impossible := by cases impossible
  loaded manager isLoading :=
    ⟨rfl, (coherent.loaded manager isLoading).2⟩
  tracks taken isTaken :=
    ⟨(coherent.tracks taken isTaken).1, nofun⟩
  filed := coherent.filed

theorem Coherent.load (coherent : Coherent world) {identityHash : String}
    (allowed : world.turn.taken.all (fun taken =>
      taken.snapshot.identityHash ≠ identityHash) = true) :
    Coherent (world.load identityHash) := by
  rw [World.load]
  split
  · exact coherent
  · rename_i absent
    refine ⟨coherent.ordered, coherent.clean, fun manager isLoading => ?_,
      coherent.tracks, coherent.filed⟩
    cases isLoading
    refine ⟨by simpa using absent, rfl, rfl, rfl, fun taken isTaken => ?_⟩
    rw [isTaken] at allowed
    have apart : taken.snapshot.identityHash ≠ identityHash := by
      simpa using allowed
    exact apart

theorem Coherent.install (coherent : Coherent world) :
    Coherent world.install := by
  rw [World.install]
  split
  · exact coherent
  · rename_i manager isLoading
    obtain ⟨-, revision, persisted, same, apart⟩ :=
      coherent.loaded manager isLoading
    refine ⟨fun other isOther => ?_, fun other isOther _ => ?_,
      nofun,
      fun taken isTaken => ?_, coherent.filed⟩
    · cases isOther
      rw [revision, persisted]
    · cases isOther
      exact same
    · have earlier := (coherent.tracks taken isTaken).1
      refine ⟨Nat.le_succ_of_le earlier, fun other isOther => ?_⟩
      cases isOther
      have later : world.session + 1 ≠ taken.session := by
        omega
      exact ⟨⟨fun own => (apart taken isTaken own.symm).elim,
          fun same => (later same).elim⟩,
        fun same => (later same).elim, fun same => (later same).elim⟩

theorem Coherent.snapshotFor (coherent : Coherent world)
    (rollback : Option Held) : Coherent (world.snapshotFor rollback) := by
  rw [World.snapshotFor]
  split
  · apply coherent.turned
    · intro taken isTaken
      cases rollback <;> cases isTaken
    · intro taken isFiled
      cases rollback <;> cases isFiled
  · rename_i manager there
    exact coherent.take there rfl rfl

theorem taken_afterSave (rollback : Option Held) :
    (World.afterSave rollback).taken = none := by
  cases rollback <;> rfl

theorem filed_afterSave (rollback : Option Held) :
    (World.afterSave rollback).filed = none := by
  cases rollback <;> rfl

theorem coherent_beforeDelete (coherent : Coherent world) (busy : Bool)
    (room : world.lxmf.all (fun manager => decide manager.HasRoom) =
      true) : Coherent (world.beforeDelete busy) := by
  rw [World.beforeDelete]
  split
  · rename_i pass eligible isTurn
    split
    · apply coherent.turned <;> intro taken impossible <;> cases impossible
    · split
      · apply coherent.turned <;> intro taken impossible <;>
          cases impossible
      · split
        · apply coherent.turned <;> intro taken impossible <;>
            cases impossible
        · rename_i manager there
          have roomy : manager.HasRoom := by
            rw [there] at room
            simpa using room
          have pruned := coherent.revise there roomy
            (manager.revises_removeKnownIdentities eligible)
          have held := @Coherent.take
            { world with lxmf := some (manager.removeKnownIdentities eligible) }
            (manager.removeKnownIdentities eligible)
            (.removed pass
              { eligible := eligible
                removed := manager.removedIdentities eligible
                taken :=
                  { snapshot := (manager.removeKnownIdentities
                      eligible).knownIdentitiesSnapshot
                    session := world.session }
                before := manager.knownIdentities })
            pruned rfl rfl rfl
          exact ⟨held.ordered, held.clean, held.loaded, held.tracks, held.filed⟩
  · exact coherent

theorem coherent_write (coherent : Coherent world)
    (outcome : WriteOutcome) : Coherent (world.write outcome) := by
  rw [World.write]
  split
  · rename_i pass held isTurn
    have holds : world.turn.taken = some held.taken := by
      rw [isTurn]
      rfl
    cases outcome with
    | written =>
        exact @Coherent.write world
          (.persisted pass held.eligible (some held)) coherent held.taken
          holds
          (fun taken isTaken => by
            cases isTaken
            exact holds)
          (fun taken isFiled => by
            cases isFiled
            rfl)
    | failed =>
        exact @Coherent.turned world (.failed (some held)) coherent
          (fun taken isTaken => by
            cases isTaken
            exact holds)
          (fun taken isFiled => by
            cases isFiled)
    | unsure =>
        exact @Coherent.write world (.failed (some held)) coherent
          held.taken holds
          (fun taken isTaken => by
            cases isTaken
            exact holds)
          (fun taken isFiled => by
            cases isFiled)
  · rename_i rollback snapshot isTurn
    have holds : world.turn.taken = some snapshot := by
      rw [isTurn]
      rfl
    have noneTaken (taken : Taken)
        (isTaken : (World.afterSave rollback).taken = some taken) :
        world.turn.taken = some taken := by
      rw [taken_afterSave] at isTaken
      cases isTaken
    cases outcome with
    | written =>
        exact @Coherent.write world (.saved rollback snapshot) coherent
          snapshot holds
          (fun taken isTaken => by
            cases isTaken
            exact holds)
          (fun taken isFiled => by
            cases isFiled
            rfl)
    | failed =>
        refine coherent.turned noneTaken fun taken isFiled => ?_
        rw [if_neg (by decide), filed_afterSave] at isFiled
        cases isFiled
    | unsure =>
        refine coherent.write holds noneTaken fun taken isFiled => ?_
        rw [if_neg (by decide), filed_afterSave] at isFiled
        cases isFiled
  · exact coherent

/-- A turn of another kind that holds the same snapshot, or none. -/
theorem Coherent.passed (coherent : Coherent world)
    (taken : turn.taken = none ∨ turn.taken = world.turn.taken)
    (filed : turn.filed = none ∨ turn.filed = world.turn.filed) :
    Coherent { world with turn := turn } := by
  apply coherent.turned
  · intro other isTaken
    rcases taken with none | same
    · rw [none] at isTaken
      cases isTaken
    · rw [← same]
      exact isTaken
  · intro other isFiled
    rcases filed with none | same
    · rw [none] at isFiled
      cases isFiled
    · rw [← same]
      exact isFiled

theorem coherent_fail (coherent : Coherent world) : Coherent world.fail := by
  rw [World.fail]
  split
  · exact coherent.passed (Or.inl rfl) (Or.inl rfl)
  · exact coherent.passed (Or.inl rfl) (Or.inl rfl)
  · rename_i pass held isTurn
    exact coherent.passed (Or.inr (by rw [isTurn]; rfl)) (Or.inl rfl)
  · rename_i pass eligible held isTurn
    exact coherent.passed (Or.inr (by rw [isTurn]; rfl)) (Or.inl rfl)
  · exact coherent

theorem coherent_commit (coherent : Coherent world) :
    Coherent world.commit := by
  rw [World.commit]
  split
  · rename_i pass eligible held isTurn
    have committed := @Coherent.passed world (.committed held) coherent
      (Or.inr (by rw [isTurn]; rfl)) (Or.inr (by rw [isTurn]; rfl))
    exact committed.writeRows _ _ _
  · exact coherent

theorem coherent_acknowledge (coherent : Coherent world) (busy : Bool) :
    Coherent (world.acknowledge busy) := by
  rw [World.acknowledge]
  split
  · exact coherent.passed (Or.inl rfl) (Or.inl rfl)
  · rename_i held isTurn
    cases busy with
    | true => exact coherent.passed (Or.inl rfl) (Or.inl rfl)
    | false =>
        exact coherent.acknowledge (by rw [isTurn]; rfl)
          (by rw [isTurn]; rfl) rfl rfl
  · rename_i rollback snapshot isTurn
    exact coherent.acknowledge (by rw [isTurn]; rfl) (by rw [isTurn]; rfl)
      (taken_afterSave rollback) (filed_afterSave rollback)
  · exact coherent

theorem coherent_restore (coherent : Coherent world)
    (allowed : careful world .restore = true) : Coherent world.restore := by
  rw [World.restore]
  split
  · exact coherent.passed (Or.inl rfl) (Or.inl rfl)
  · rename_i held isTurn
    split
    · exact coherent.passed (Or.inl rfl) (Or.inl rfl)
    · rename_i some
      have passed := @Coherent.passed world (.restored held) coherent
        (Or.inr (by rw [isTurn]; rfl)) (Or.inl rfl)
      cases there : world.lxmf with
      | none =>
          rw [Option.map_none, ← there]
          exact passed
      | some manager =>
          rw [careful, isTurn, there] at allowed
          have room : manager.HasRoom := by
            simp only [Bool.or_eq_true, some, Bool.false_eq_true, false_or,
              Option.any_some, Bool.and_eq_true, decide_eq_true_eq]
              at allowed
            exact allowed.1.1
          exact passed.revise there room (manager.revises_restoreKnownIdentities held.removed)
  · exact coherent

theorem Coherent.step (coherent : Coherent world) (event : PruneEvent)
    (allowed : careful world event = true) :
    Coherent (world.step event) := by
  cases event with
  | announce hash key =>
      change Coherent (world.announce hash key)
      rw [World.announce]
      split
      · exact coherent
      · rename_i manager there
        rw [careful, there] at allowed
        have revised := coherent.revise there (by simpa using allowed)
          (manager.revises_updateRemoteCrypto hash key)
        exact ⟨revised.ordered, revised.clean, revised.loaded, revised.tracks, revised.filed⟩
  | writeRows change guarded =>
      change Coherent (world.writeRows change guarded)
      rw [World.writeRows]
      split
      · exact coherent
      · exact coherent.writeRows _ _ _
  | drop => exact coherent.drop
  | load identityHash => exact coherent.load allowed
  | install => exact coherent.install
  | begin pass =>
      rcases world.step_begin pass with begun | same
      · rw [begun]
        have queued := @Coherent.passed world (.queued pass) coherent (Or.inl rfl) (Or.inl rfl)
        exact queued.writeRows _ _ _
      · rw [same]
        exact coherent
  | validate =>
      change Coherent world.validate
      rw [World.validate]
      split
      · dsimp only
        split
        · exact coherent.passed (Or.inl rfl) (Or.inl rfl)
        · exact coherent.passed (Or.inl rfl) (Or.inl rfl)
      · exact coherent
  | beforeDelete busy => exact coherent_beforeDelete coherent busy allowed
  | write outcome => exact coherent_write coherent outcome
  | fail => exact coherent_fail coherent
  | commit => exact coherent_commit coherent
  | acknowledge busy => exact coherent_acknowledge coherent busy
  | restore => exact coherent_restore coherent allowed
  | capture =>
      rcases world.step_capture with ⟨held, isTurn, captured⟩ | same
      · rw [captured]
        exact coherent.snapshotFor _
      · rw [same]
        exact coherent
  | checkpoint =>
      rcases world.step_checkpoint with ⟨isTurn, captured⟩ | same
      · rw [captured]
        exact coherent.snapshotFor _
      · rw [same]
        exact coherent
  | release =>
      rcases world.step_release with released | same
      · rw [released]
        exact coherent.passed (Or.inl rfl) (Or.inl rfl)
      · rw [same]
        exact coherent

end Coherence

end Ratspeak.Identities
