import Ratspeak.Identities.PruneRuns

/-!
# What a failed pass gives back

Between the removal and the restoring, each identity is in the manager under
its newest key, or it is among those that were taken out and not in the
manager.  Putting back what was taken out makes the manager whole.
-/

namespace Ratspeak.Identities

open Library Library.Overlay

/-- What a pass holds is what it took out. -/
structure Held.Sound (held : Held) : Prop where
  entries : ∀ hash key, (hash, key) ∈ held.removed ↔
    hash ∈ held.eligible ∧ held.before.lookup hash = some key
  distinct : (held.removed.map Prod.fst).Nodup
  bytes : ∀ hash, view held.taken.snapshot.bytes hash =
    if hash ∈ held.eligible then none else held.before.lookup hash

/-- The identities that were taken out are missing, and no others. -/
structure Lacks (held : Held) (world : World) (manager : LxmfManager) :
    Prop where
  rest : ∀ hash key, world.newest hash = some key →
    manager.knownIdentities.lookup hash = some key ∨
      manager.knownIdentities.lookup hash = none ∧ (hash, key) ∈ held.removed
  gone : ∀ hash ∈ held.eligible, hash ∉ world.heard → manager.knownIdentities.lookup hash = none

/-- Every identity is there under its newest key. -/
def Whole (world : World) (manager : LxmfManager) : Prop :=
  ∀ hash key, world.newest hash = some key → manager.knownIdentities.lookup hash = some key

structure Recalls (world : World) : Prop where
  sound : ∀ held, world.turn.pending = some held ∨
      world.turn.back = some held →
    held.Sound ∧ held.taken.session ≤ world.session
  agree : ∀ pass eligible held,
    world.turn = .persisted pass eligible held →
      (held = none → eligible = []) ∧ ∀ other, held = some other → other.eligible = eligible
  pending : ∀ held, world.turn.pending = some held →
    ∀ manager, world.lxmf = some manager →
      world.session = held.taken.session → Lacks held world manager
  back : ∀ held, world.turn.back = some held →
    (held.removed ≠ [] → world.lxmf ≠ none ∧ world.session = held.taken.session) ∧
    ∀ manager, world.lxmf = some manager →
      world.session = held.taken.session → Whole world manager

variable {world : World} {turn : Turn}

/-- A turn of another kind that holds the same, or nothing. -/
theorem Recalls.passed (recalls : Recalls world)
    (pending : turn.pending = none ∨ turn.pending = world.turn.pending)
    (back : turn.back = none ∨ turn.back = world.turn.back) (agree : ∀ pass eligible held,
      turn = .persisted pass eligible held →
        (held = none → eligible = []) ∧
          ∀ other, held = some other → other.eligible = eligible) :
    Recalls { world with turn := turn } where
  sound held holds := by
    apply recalls.sound held
    rcases holds with isPending | isBack
    · rcases pending with none | same
      · have impossible := isPending.symm.trans none
        cases impossible
      · exact Or.inl (same.symm.trans isPending)
    · rcases back with none | same
      · have impossible := isBack.symm.trans none
        cases impossible
      · exact Or.inr (same.symm.trans isBack)
  agree := agree
  pending held isPending manager there same := by
    rcases pending with none | kept
    · have impossible := isPending.symm.trans none
      cases impossible
    · have lacks := recalls.pending held (kept.symm.trans isPending) manager
        there same
      exact ⟨lacks.rest, lacks.gone⟩
  back held isBack := by
    rcases back with none | kept
    · have impossible := isBack.symm.trans none
      cases impossible
    · exact recalls.back held (kept.symm.trans isBack)

/-- A turn that is not before a commit agrees with itself. -/
theorem agrees_of_not_persisted
    (other : ∀ pass eligible held, turn ≠ .persisted pass eligible held) :
    ∀ pass eligible held, turn = .persisted pass eligible held →
      (held = none → eligible = []) ∧ ∀ other, held = some other → other.eligible = eligible :=
  fun pass eligible held same => (other pass eligible held same).elim

/-- Other managers with the same maps. -/
theorem Recalls.remapped (recalls : Recalls world) {change : LxmfManager → LxmfManager}
    (same : ∀ manager, (change manager).knownIdentities = manager.knownIdentities) :
    Recalls { world with lxmf := world.lxmf.map change } where
  sound := recalls.sound
  agree := recalls.agree
  pending held isPending manager there session := by
    obtain ⟨before, wasThere, isAfter⟩ := Option.map_eq_some_iff.mp there
    have lacks := recalls.pending held isPending before wasThere session
    rw [← isAfter]
    refine ⟨fun hash key known => ?_, fun hash among unheard => ?_⟩
    · rw [same]
      exact lacks.rest hash key known
    · rw [same]
      exact lacks.gone hash among unheard
  back held isBack := by
    obtain ⟨inPlace, whole⟩ := recalls.back held isBack
    refine ⟨fun some => ?_, fun manager there session hash key known => ?_⟩
    · obtain ⟨present, session⟩ := inPlace some
      exact ⟨fun none => present (Option.map_eq_none_iff.mp none), session⟩
    · obtain ⟨before, wasThere, isAfter⟩ := Option.map_eq_some_iff.mp there
      rw [← isAfter, same]
      exact whole before wasThere session hash key known

theorem knownIdentities_acknowledge (manager : LxmfManager)
    (snapshot : KnownIdentitiesSnapshot) :
    (manager.acknowledgeKnownIdentitiesSnapshot
      snapshot).knownIdentities = manager.knownIdentities := by
  rw [LxmfManager.acknowledgeKnownIdentitiesSnapshot]
  split
  · rfl
  · rfl

/-! ## Events -/

theorem recalls_announce (recalls : Recalls world) (hash : DestHash)
    (key : PublicKey) : Recalls (world.announce hash key) := by
  rw [World.announce]
  split
  · exact recalls
  · rename_i manager there
    have known (other : DestHash) :
        (manager.updateRemoteCrypto hash key).knownIdentities.lookup other =
          if other = hash then some key
          else manager.knownIdentities.lookup other := by
      have whole := congrFun (manager.lookup_updateRemoteCrypto hash key) other
      rw [whole, Function.update_apply]
    refine ⟨recalls.sound, recalls.agree,
      fun held isPending changed isChanged session => ?_,
      fun held isBack => ?_⟩
    · cases isChanged
      have lacks := recalls.pending held isPending manager there session
      refine ⟨fun other otherKey newest => ?_,
        fun other among unheard => ?_⟩
      · change Function.update world.newest hash (some key) other = _
          at newest
        rw [Function.update_apply] at newest
        rw [known]
        by_cases own : other = hash
        · rw [if_pos own] at newest
          rw [if_pos own]
          exact Or.inl newest
        · rw [if_neg own] at newest
          rw [if_neg own]
          exact lacks.rest other otherKey newest
      · change other ∉ hash :: world.heard at unheard
        rw [List.mem_cons, not_or] at unheard
        rw [known, if_neg unheard.1]
        exact lacks.gone other among unheard.2
    · obtain ⟨inPlace, whole⟩ := recalls.back held isBack
      refine ⟨fun some => ⟨by simp, (inPlace some).2⟩,
        fun changed isChanged session other otherKey newest => ?_⟩
      cases isChanged
      change Function.update world.newest hash (some key) other = _ at newest
      rw [Function.update_apply] at newest
      rw [known]
      by_cases own : other = hash
      · rw [if_pos own] at newest
        rw [if_pos own]
        exact newest
      · rw [if_neg own] at newest
        rw [if_neg own]
        exact whole manager there session other otherKey newest

theorem recalls_drop (recalls : Recalls world) (allowed : careful world .drop = true) :
    Recalls { world with lxmf := none } where
  sound := recalls.sound
  agree := recalls.agree
  pending held isPending manager impossible := by cases impossible
  back held isBack := by
    rw [careful, isBack] at allowed
    refine ⟨fun some => ?_, by simp⟩
    exact (some (by simpa using allowed)).elim

theorem recalls_install (recalls : Recalls world)
    (coherent : Coherent world) : Recalls world.install := by
  rw [World.install]
  split
  · exact recalls
  · rename_i manager isLoading
    have absent := (coherent.loaded manager isLoading).1
    refine ⟨fun held holds => ?_, recalls.agree,
      fun held isPending other isOther session => ?_,
      fun held isBack => ?_⟩
    · obtain ⟨sound, earlier⟩ := recalls.sound held holds
      exact ⟨sound, Nat.le_succ_of_le earlier⟩
    · have earlier := (recalls.sound held (Or.inl isPending)).2
      change world.session + 1 = _ at session
      omega
    · have earlier := (recalls.sound held (Or.inr isBack)).2
      refine ⟨fun some => ?_, fun other isOther session => ?_⟩
      · exact (((recalls.back held isBack).1 some).1 absent).elim
      · change world.session + 1 = _ at session
        omega

theorem recalls_beforeDelete (recalls : Recalls world) (busy : Bool) :
    Recalls (world.beforeDelete busy) := by
  rw [World.beforeDelete]
  split
  · rename_i pass eligible isTurn
    split
    · refine recalls.passed (Or.inl rfl) (Or.inl rfl) ?_
      intro _ _ _ same
      cases same
      exact ⟨fun _ => rfl, by simp⟩
    · split
      · exact recalls.passed (Or.inl rfl) (Or.inl rfl) (agrees_of_not_persisted (by simp))
      · split
        · exact recalls.passed (Or.inl rfl) (Or.inl rfl) (agrees_of_not_persisted (by simp))
        · rename_i manager there
          have known := manager.lookup_removeKnownIdentities eligible
          have sound : Held.Sound
              { eligible := eligible
                removed := manager.removedIdentities eligible
                taken :=
                  { snapshot := (manager.removeKnownIdentities
                      eligible).knownIdentitiesSnapshot
                    session := world.session }
                before := manager.knownIdentities } := by
            refine ⟨fun hash key => LxmfManager.mem_removedIdentities,
              manager.nodup_removedIdentities eligible, fun hash => ?_⟩
            change view (knownIdentitiesBlob _) hash = _
            rw [view_knownIdentitiesBlob]
            exact known hash
          refine ⟨fun held holds => ?_,
            (agrees_of_not_persisted (by simp)),
            fun held isPending changed isChanged session => ?_,
            (fun held isBack => by cases isBack)⟩
          · rcases holds with isPending | isBack
            · cases isPending
              exact ⟨sound, Nat.le_refl _⟩
            · cases isBack
          · cases isPending
            cases isChanged
            refine ⟨fun hash key newest => ?_, fun hash among _ => ?_⟩
            · rw [known]
              by_cases among : hash ∈ eligible
              · rw [if_pos among]
                exact Or.inr ⟨rfl, (sound.entries hash key).mpr ⟨among, newest⟩⟩
              · rw [if_neg among]
                exact Or.inl newest
            · rw [known, if_pos among]
  · exact recalls

theorem recalls_write (recalls : Recalls world) (outcome : WriteOutcome) :
    Recalls (world.write outcome) := by
  -- The files do not matter here.
  have refiled {turn : Turn} (files : String → List UInt8)
      (recalls : Recalls { world with turn := turn }) :
      Recalls { world with files := files, turn := turn } :=
    ⟨recalls.sound, recalls.agree, fun held isPending manager there same =>
      ⟨(recalls.pending held isPending manager there same).rest,
        (recalls.pending held isPending manager there same).gone⟩,
      recalls.back⟩
  rw [World.write]
  split
  · rename_i pass held isTurn
    apply refiled
    split
    · refine @Recalls.passed world _ recalls (Or.inr ?_) (Or.inl rfl) ?_
      · rw [isTurn]
        rfl
      · intro _ _ _ same
        cases same
        refine ⟨by simp, fun _ same => ?_⟩
        cases same
        rfl
    · refine @Recalls.passed world _ recalls (Or.inr ?_) (Or.inl rfl)
        (agrees_of_not_persisted (by simp))
      rw [isTurn]
      rfl
  · rename_i rollback taken isTurn
    apply refiled
    split
    · refine @Recalls.passed world _ recalls (Or.inl rfl) (Or.inr ?_)
        (agrees_of_not_persisted (by simp))
      rw [isTurn]
      rfl
    · cases rollback with
      | none =>
          exact @Recalls.passed world _ recalls (Or.inl rfl) (Or.inl rfl)
            (agrees_of_not_persisted (by rintro _ _ _ ⟨⟩))
      | some held =>
          refine @Recalls.passed world _ recalls (Or.inl rfl) (Or.inr ?_)
            (agrees_of_not_persisted (by rintro _ _ _ ⟨⟩))
          rw [isTurn]
          rfl
  · exact recalls

theorem recalls_fail (recalls : Recalls world) : Recalls world.fail := by
  rw [World.fail]
  split
  · exact recalls.passed (Or.inl rfl) (Or.inl rfl) (agrees_of_not_persisted (by simp))
  · exact recalls.passed (Or.inl rfl) (Or.inl rfl) (agrees_of_not_persisted (by simp))
  · rename_i pass held isTurn
    refine recalls.passed (Or.inr ?_) (Or.inl rfl) (agrees_of_not_persisted (by simp))
    rw [isTurn]
    rfl
  · rename_i pass eligible held isTurn
    refine recalls.passed (Or.inr ?_) (Or.inl rfl) (agrees_of_not_persisted (by simp))
    rw [isTurn]
    rfl
  · exact recalls

theorem recalls_commit (recalls : Recalls world) :
    Recalls world.commit := by
  rw [World.commit]
  split
  · rename_i pass eligible held isTurn
    have committed : Recalls { world with turn := .committed held } := by
      refine recalls.passed (Or.inr ?_) (Or.inl rfl) (agrees_of_not_persisted (by simp))
      rw [isTurn]
      rfl
    exact ⟨committed.sound, committed.agree,
      fun held isPending manager there same =>
        ⟨(committed.pending held isPending manager there same).rest,
          (committed.pending held isPending manager there same).gone⟩,
      committed.back⟩
  · exact recalls

theorem recalls_acknowledge (recalls : Recalls world) (busy : Bool) :
    Recalls (world.acknowledge busy) := by
  rw [World.acknowledge]
  split
  · exact recalls.passed (Or.inl rfl) (Or.inl rfl) (agrees_of_not_persisted (by simp))
  · rename_i held isTurn
    have released : Recalls { world with turn := .free } :=
      recalls.passed (Or.inl rfl) (Or.inl rfl) (agrees_of_not_persisted (by simp))
    cases busy with
    | true => exact released
    | false =>
        exact released.remapped fun manager =>
          knownIdentities_acknowledge manager _
  · rename_i rollback taken isTurn
    have released : Recalls { world with
        turn := World.afterSave rollback } := by
      cases rollback with
      | none =>
          exact recalls.passed (Or.inl rfl) (Or.inl rfl) (agrees_of_not_persisted (by rintro _ _ _ ⟨⟩))
      | some held =>
          refine recalls.passed (Or.inl rfl) (Or.inr ?_) (agrees_of_not_persisted (by rintro _ _ _ ⟨⟩))
          rw [isTurn]
          rfl
    exact released.remapped fun manager =>
      knownIdentities_acknowledge manager _
  · exact recalls

/-- Putting back what was taken out makes the manager whole. -/
theorem whole_restore {held : Held} {manager : LxmfManager}
    (sound : held.Sound) (lacks : Lacks held world manager)
    (unchanged : held.isUnchanged manager = true) :
    Whole world (manager.restoreKnownIdentities held.removed) := by
  have distinct : ((held.removed.map fun entry =>
      (entry.1, some entry.2)).map Prod.fst).Nodup := by
    rw [List.map_map]
    exact sound.distinct
  intro hash key newest
  have restored := congrFun (manager.lookup_restoreKnownIdentities held.removed) hash
  rw [restored]
  by_cases among : hash ∈ held.removed.map Prod.fst
  · obtain ⟨entry, isEntry, isHash⟩ := List.mem_map.mp among
    have written := overwrite_of_mem distinct
      (List.mem_map_of_mem (f := fun entry : DestHash × PublicKey =>
        (entry.1, some entry.2)) isEntry)
      manager.knownIdentities.lookup
    rw [isHash] at written
    rw [written]
    -- It was known under the key that comes back, or not at all.
    have allowed := List.all_eq_true.mp unchanged entry isEntry
    rw [isHash] at allowed
    rcases lacks.rest hash key newest with known | ⟨-, removed⟩
    · rw [known, Option.all_some, decide_eq_true_eq] at allowed
      rw [allowed]
    · have sameEntry := List.inj_on_of_nodup_map sound.distinct isEntry
        removed isHash
      rw [sameEntry]
  · have spared : hash ∉ (held.removed.map fun entry =>
        (entry.1, some entry.2)).map Prod.fst := by
      rw [List.map_map]
      exact among
    rw [overwrite_of_not_mem spared]
    rcases lacks.rest hash key newest with known | ⟨-, removed⟩
    · exact known
    · exact (among (List.mem_map_of_mem (f := Prod.fst) removed)).elim

theorem recalls_restore (recalls : Recalls world)
    (allowed : careful world .restore = true) : Recalls world.restore := by
  rw [World.restore]
  split
  · exact recalls.passed (Or.inl rfl) (Or.inl rfl) (agrees_of_not_persisted (by simp))
  · rename_i held isTurn
    have isPending : world.turn.pending = some held := by
      rw [isTurn]
      rfl
    obtain ⟨sound, earlier⟩ := recalls.sound held (Or.inl isPending)
    split
    · rename_i empty
      have nothing : held.removed = [] := List.isEmpty_iff.mp empty
      refine ⟨fun other holds => ?_,
        (agrees_of_not_persisted (by simp)),
        by rintro _ ⟨⟩,
        fun other isBack => ?_⟩
      · rcases holds with impossible | isBack
        · cases impossible
        · cases isBack
          exact ⟨sound, earlier⟩
      · cases isBack
        refine ⟨fun some => (some nothing).elim,
          fun manager there session hash key newest => ?_⟩
        rcases (recalls.pending held isPending manager there session).rest
            hash key newest with known | ⟨-, removed⟩
        · exact known
        · rw [nothing] at removed
          cases removed
    · rename_i some
      rw [careful, isTurn] at allowed
      simp only [Bool.or_eq_true, some, Bool.false_eq_true, false_or] at allowed
      obtain ⟨manager, there⟩ : ∃ manager, world.lxmf = .some manager := by
        cases there : world.lxmf with
        | none =>
            rw [there] at allowed
            cases allowed
        | some manager => exact ⟨manager, rfl⟩
      rw [there, Option.any_some] at allowed
      simp only [Bool.and_eq_true, decide_eq_true_eq] at allowed
      obtain ⟨⟨-, session⟩, unchanged⟩ := allowed
      have whole := whole_restore sound
        (recalls.pending held isPending manager there session) unchanged
      refine ⟨fun other holds => ?_,
        (agrees_of_not_persisted (by simp)),
        by rintro _ ⟨⟩,
        fun other isBack => ?_⟩
      · rcases holds with impossible | isBack
        · cases impossible
        · cases isBack
          exact ⟨sound, earlier⟩
      · cases isBack
        refine ⟨fun _ => ⟨?_, session⟩,
          fun changed isChanged _ hash key newest => ?_⟩
        · change world.lxmf.map _ ≠ none
          rw [there]
          simp
        · change world.lxmf.map _ = Option.some changed at isChanged
          rw [there] at isChanged
          cases isChanged
          exact whole hash key newest
  · exact recalls

theorem recalls_snapshotFor (recalls : Recalls world) {rollback : Option Held}
    (isBack : rollback = none ∨ world.turn.back = rollback) :
    Recalls (world.snapshotFor rollback) := by
  rw [World.snapshotFor]
  split
  · cases rollback with
    | none =>
        exact recalls.passed (Or.inl rfl) (Or.inl rfl) (agrees_of_not_persisted (by rintro _ _ _ ⟨⟩))
    | some held =>
        refine recalls.passed (Or.inl rfl) (Or.inr ?_) (agrees_of_not_persisted (by rintro _ _ _ ⟨⟩))
        rcases isBack with impossible | same
        · cases impossible
        · exact same.symm
  · refine recalls.passed (Or.inl rfl) ?_
      (agrees_of_not_persisted (by simp))
    rcases isBack with none | same
    · exact Or.inl none
    · exact Or.inr same.symm

theorem Recalls.step (recalls : Recalls world) (coherent : Coherent world)
    (event : PruneEvent) (allowed : careful world event = true) :
    Recalls (world.step event) := by
  cases event with
  | announce hash key => exact recalls_announce recalls hash key
  | writeRows change guarded =>
      change Recalls (world.writeRows change guarded)
      rw [World.writeRows]
      split
      · exact recalls
      · exact ⟨recalls.sound, recalls.agree,
          fun held isPending manager there same =>
            ⟨(recalls.pending held isPending manager there same).rest,
              (recalls.pending held isPending manager there same).gone⟩,
          recalls.back⟩
  | drop => exact recalls_drop recalls allowed
  | load identityHash =>
      change Recalls (world.load identityHash)
      rw [World.load]
      split
      · exact recalls
      · exact ⟨recalls.sound, recalls.agree,
          fun held isPending manager there same =>
            ⟨(recalls.pending held isPending manager there same).rest,
              (recalls.pending held isPending manager there same).gone⟩,
          recalls.back⟩
  | install => exact recalls_install recalls coherent
  | begin pass =>
      rcases world.step_begin pass with begun | same
      · rw [begun]
        have queued : Recalls { world with turn := .queued pass } :=
          recalls.passed (Or.inl rfl) (Or.inl rfl) (agrees_of_not_persisted (by simp))
        exact ⟨queued.sound, queued.agree,
          fun held isPending manager there same =>
            ⟨(queued.pending held isPending manager there same).rest,
              (queued.pending held isPending manager there same).gone⟩,
          queued.back⟩
      · rw [same]
        exact recalls
  | validate =>
      change Recalls world.validate
      rw [World.validate]
      split
      · dsimp only
        split
        · exact recalls.passed (Or.inl rfl) (Or.inl rfl) (agrees_of_not_persisted (by simp))
        · exact recalls.passed (Or.inl rfl) (Or.inl rfl) (agrees_of_not_persisted (by simp))
      · exact recalls
  | beforeDelete busy => exact recalls_beforeDelete recalls busy
  | write outcome => exact recalls_write recalls outcome
  | fail => exact recalls_fail recalls
  | commit => exact recalls_commit recalls
  | acknowledge busy => exact recalls_acknowledge recalls busy
  | restore => exact recalls_restore recalls allowed
  | capture =>
      rcases world.step_capture with ⟨held, isTurn, captured⟩ | same
      · rw [captured]
        apply recalls_snapshotFor recalls
        rw [isTurn]
        exact Or.inr rfl
      · rw [same]
        exact recalls
  | checkpoint =>
      rcases world.step_checkpoint with ⟨isTurn, captured⟩ | same
      · rw [captured]
        exact recalls_snapshotFor recalls (Or.inl rfl)
      · rw [same]
        exact recalls
  | release =>
      rcases world.step_release with released | same
      · rw [released]
        exact recalls.passed (Or.inl rfl) (Or.inl rfl) (agrees_of_not_persisted (by simp))
      · rw [same]
        exact recalls

end Ratspeak.Identities
