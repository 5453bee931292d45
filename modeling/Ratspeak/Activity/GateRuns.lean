import Mathlib.Data.List.Induction
import Ratspeak.Activity.GateBarrier

/-!
# Runs of the capture gate

What the invariant of the gate says about every run: about the state that is
reached, about the marks of the steps that led to it, and about the step that
comes next.
-/

namespace Ratspeak.Activity

open Library

/-! ## What the sections under the mutex do -/

namespace AdmissionGate

theorem openIfGeneration_cases (gate : AdmissionGate) (expected : Nat)
    (published : PublishedAdmission) :
    (∃ error, gate.openIfGeneration expected published =
        (gate, .error error)) ∨
      (wordClosed gate.state = true ∧ wordReaders gate.state = 0 ∧
        gate.generation ≠ lastGeneration ∧ gate.generation = expected ∧
        gate.openIfGeneration expected published =
          ({ gate with state := 0, published := published }, .ok ())) := by
  unfold openIfGeneration
  split
  · exact Or.inl ⟨_, rfl⟩
  · split
    · exact Or.inl ⟨_, rfl⟩
    · split
      · exact Or.inl ⟨_, rfl⟩
      · rename_i closed
        split
        · exact Or.inl ⟨_, rfl⟩
        · rename_i empty
          split
          · exact Or.inl ⟨_, rfl⟩
          · rename_i room
            split
            · exact Or.inl ⟨_, rfl⟩
            · rename_i current
              exact Or.inr ⟨by simpa using closed, not_not.mp empty, room,
                not_not.mp current, rfl⟩

/-- A look at the gate changes only who waits. -/
theorem recheckQuiescent_cases (gate : AdmissionGate) :
    ∃ waiters, gate.recheckQuiescent.1 =
        { gate with quiescenceWaiters := waiters } ∧
      (gate.recheckQuiescent.2 = true → gate.state = closedBit) := by
  unfold recheckQuiescent
  split
  · rename_i empty
    exact ⟨gate.quiescenceWaiters - 1, rfl, fun _ => empty⟩
  · exact ⟨gate.quiescenceWaiters, rfl, nofun⟩

theorem waitQuiescent_cases (gate : AdmissionGate) :
    ∃ waiters, gate.waitQuiescent.1 =
        { gate with quiescenceWaiters := waiters } ∧
      (gate.waitQuiescent.2 = .ok true → gate.state = closedBit) := by
  unfold waitQuiescent
  split
  · exact ⟨gate.quiescenceWaiters, rfl, nofun⟩
  · split
    · exact ⟨gate.quiescenceWaiters, rfl, nofun⟩
    · obtain ⟨waiters, same, looked⟩ := recheckQuiescent_cases
        { gate with quiescenceWaiters := gate.quiescenceWaiters + 1 }
      refine ⟨waiters, same, fun quiescent => looked ?_⟩
      exact Except.ok.inj quiescent

/-- The generation advances, unless there is none left. -/
theorem advanceGenerationLocked_cases (gate : AdmissionGate) :
    (gate.generation = lastGeneration ∧
        gate.advanceGenerationLocked.1 = gate.closeAtomic) ∨
      (gate.generation ≠ lastGeneration ∧
        gate.advanceGenerationLocked.1 =
          { gate with generation := gate.generation + 1 }) := by
  unfold advanceGenerationLocked
  by_cases exhausted : gate.generation = lastGeneration
  · exact Or.inl ⟨exhausted, by rw [if_pos exhausted]⟩
  · exact Or.inr ⟨exhausted, by rw [if_neg exhausted]⟩

end AdmissionGate

/-! ## The invariant, step by step -/

theorem GateHolds.waiting {gate : AdmissionGate} {readers : Nat}
    {log : List GateMark} {closed : Bool}
    (holds : GateHolds gate readers log closed) (waiters : Nat) :
    GateHolds { gate with quiescenceWaiters := waiters } readers log closed :=
  ⟨holds.word, holds.bounded, holds.opening, holds.limited, holds.exhausted⟩

/-- A word that only says closed counts nobody. -/
theorem GateHolds.empty {gate : AdmissionGate} {readers : Nat}
    {log : List GateMark} {closed : Bool} (holds : GateHolds gate readers log closed)
    (word : gate.state = closedBit) : closed = true ∧ readers = 0 := by
  have alone : closedBit = stateWord true 0 := rfl
  have isClosed : closed = true := by
    rw [← holds.isClosed_iff, word, alone]
    exact wordClosed_stateWord true (Nat.zero_le _)
  have none : readers = 0 := by
    rw [← holds.readers_eq, word, alone]
    exact wordReaders_stateWord true (Nat.zero_le _)
  exact ⟨isClosed, none⟩

theorem GateHolds.advanceLocked {gate : AdmissionGate} {readers : Nat}
    {log : List GateMark} (holds : GateHolds gate readers log true) :
    GateHolds gate.advanceGenerationLocked.1 readers log true := by
  rcases gate.advanceGenerationLocked_cases with ⟨_, same⟩ | ⟨room, same⟩
  · rw [same]
    refine ⟨?_, holds.bounded, holds.opening, holds.limited, fun _ => rfl⟩
    change gate.state ||| closedBit = stateWord true readers
    rw [holds.word, stateWord_close true holds.bounded]
  · rw [same]
    exact holds.advance room

private theorem advanceLocked_later (gate : AdmissionGate) :
    gate.generation ≤ gate.advanceGenerationLocked.1.generation ∧
      gate.advanceGenerationLocked.1.published = gate.published := by
  rcases gate.advanceGenerationLocked_cases with ⟨_, same⟩ | ⟨_, same⟩
  · rw [same]
    exact ⟨Nat.le_refl _, rfl⟩
  · rw [same]
    exact ⟨Nat.le_succ _, rfl⟩

/-- Somebody who waits looks, and nothing else happens. -/
theorem BarrierHolds.waiting {system : GateSystem} {log : List GateMark}
    (holds : BarrierHolds (system, log)) (waiters : Nat) :
    BarrierHolds ({ system with
      gate := { system.gate with quiescenceWaiters := waiters } }, log) := by
  obtain ⟨closed, gate⟩ := holds.gate
  exact ⟨⟨closed, gate.waiting waiters⟩, holds.stages, holds.log⟩

/-- A producer begins. -/
theorem BarrierHolds.begin {system : GateSystem} {log : List GateMark}
    (holds : BarrierHolds (system, log)) :
    BarrierHolds ({ system with
      admissions := system.admissions ++ [.reading] }, log) := by
  obtain ⟨closed, gate⟩ := holds.gate
  have same : (system.admissions ++ [Admission.reading]).countP
      Admission.counted = system.readers := by
    rw [List.countP_append]
    rfl
  refine ⟨⟨closed, ?_⟩, fun call admission found => ?_, holds.log⟩
  · change GateHolds system.gate
      ((system.admissions ++ [Admission.reading]).countP Admission.counted)
      log closed
    rw [same]
    exact gate
  · dsimp only at found
    by_cases old : call < system.admissions.length
    · rw [List.getElem?_append_left old] at found
      exact holds.stages call admission found
    · rw [List.getElem?_append_right (Nat.le_of_not_lt old)] at found
      have fresh : admission = .reading := by
        have member := List.mem_of_getElem? found
        exact List.mem_singleton.mp member
      subst fresh
      trivial

/-- The generation of a closed gate advances. -/
theorem BarrierHolds.advance {system : GateSystem} {log : List GateMark}
    (holds : BarrierHolds (system, log)) (closed : wordClosed system.gate.state = true) :
    BarrierHolds ({ system with
      gate := system.gate.advanceGenerationLocked.1 }, log) := by
  obtain ⟨stands, gate⟩ := holds.gate
  have isClosed : stands = true := gate.isClosed_iff.symm.trans closed
  subst isClosed
  obtain ⟨later, same⟩ := advanceLocked_later system.gate
  have after := gate.advanceLocked
  have kept : LogHolds (log ++ []) := by
    rw [List.append_nil]
    exact holds.log
  dsimp only at after
  rw [← List.append_nil log] at after ⊢
  exact holds.gate_step after later (fun _ => same) notAdmitting_nil kept

/-- A closed gate without readers opens again. -/
theorem BarrierHolds.reopen {system : GateSystem} {log : List GateMark}
    (holds : BarrierHolds (system, log)) (closed : wordClosed system.gate.state = true)
    (empty : wordReaders system.gate.state = 0)
    (room : system.gate.generation ≠ lastGeneration) (published : PublishedAdmission) :
    BarrierHolds
      ({ system with gate :=
          { system.gate with state := 0, published := published } },
        log ++ [.opened system.gate.generation published]) := by
  obtain ⟨stands, gate⟩ := holds.gate
  have isClosed : stands = true := gate.isClosed_iff.symm.trans closed
  have none : system.readers = 0 := gate.readers_eq.symm.trans empty
  subst isClosed
  have alone : GateHolds system.gate 0 log true := none ▸ gate
  have after : GateHolds
      { system.gate with state := 0, published := published } system.readers
      (log ++ [.opened system.gate.generation published]) false := by
    rw [none]
    exact alone.reopen room published
  exact holds.gate_step after (Nat.le_refl _)
    (fun inside => absurd none inside)
    (fun _ => notAdmitting_singleton fun _ => GateMark.noConfusion)
    (holds.log.plain trivial)

private theorem closeAtomic_closed {system : GateSystem}
    {log : List GateMark} (holds : BarrierHolds (system, log)) :
    wordClosed system.gate.closeAtomic.state = true := by
  obtain ⟨_, gate⟩ := holds.close.gate
  obtain ⟨_, before⟩ := holds.gate
  rw [before.close.isClosed_iff]

theorem barrierHolds_step (recorded : GateSystem × List GateMark)
    (action : GateAction) (holds : BarrierHolds recorded) :
    BarrierHolds (recording GateSystem.step recorded action) := by
  obtain ⟨system, log⟩ := recorded
  cases action with
  | tryAdmit =>
      simp only [recording, GateSystem.step, List.append_nil]
      exact holds.begin
  | proceed call spurious =>
      simp only [recording, GateSystem.step]
      cases found : system.admissions[call]? with
      | none =>
          simp only [List.append_nil]
          exact holds
      | some admission => exact barrierHolds_tryAdmitStep holds spurious found
  | dropLease call =>
      simp only [recording, GateSystem.step]
      split
      · rename_i lease found
        rw [List.append_nil]
        exact holds.leave found rfl rfl trivial
      · rw [List.append_nil]
        exact holds
  | close => exact holds.close
  | waitQuiescent =>
      obtain ⟨waiters, same, _⟩ := system.gate.waitQuiescent_cases
      have looked := holds.waiting waiters
      rw [← same] at looked
      simp only [recording, GateSystem.step]
      split
      · rename_i gate result
        rw [result] at looked
        exact looked.mark rfl (fun _ _ => GateMark.noConfusion)
          (looked.log.plain trivial)
      · rename_i gate other _ result
        rw [result] at looked
        rw [List.append_nil]
        exact looked
  | recheck =>
      obtain ⟨waiters, same, _⟩ := system.gate.recheckQuiescent_cases
      have looked := holds.waiting waiters
      rw [← same] at looked
      simp only [recording, GateSystem.step]
      split
      · rw [List.append_nil]
        exact holds
      · split
        · rename_i gate result
          rw [result] at looked
          exact looked.mark rfl (fun _ _ => GateMark.noConfusion)
            (looked.log.plain trivial)
        · rename_i gate result
          rw [result] at looked
          rw [List.append_nil]
          exact looked
  | advanceGeneration =>
      simp only [recording, GateSystem.step, List.append_nil, AdmissionGate.advanceGeneration]
      split
      · exact holds
      · rename_i closed
        refine holds.advance ?_
        simpa [AdmissionGate.isClosed] using closed
  | hardReset => exact holds.close.advance (closeAtomic_closed holds)
  | openIfGeneration expected published =>
      simp only [recording, GateSystem.step]
      rcases system.gate.openIfGeneration_cases expected published with
        ⟨error, result⟩ | ⟨closed, empty, room, current, result⟩
      · rw [result]
        simp only [List.append_nil]
        exact holds
      · rw [result, ← current]
        exact holds.reopen closed empty room published

private theorem barrierHolds_new : BarrierHolds (GateSystem.new, []) where
  gate := ⟨true, rfl, Nat.zero_le _, rfl, Nat.zero_le _, fun _ => rfl⟩
  stages := fun call admission found => nomatch found
  log := by
    refine ⟨?_, ?_⟩
    · intro earlier later call generation split
      exact absurd split.symm (by simp)
    · intro earlier later call lease split
      exact absurd split.symm (by simp)

theorem barrierHolds_run (actions : List GateAction) :
    BarrierHolds (GateSystem.run actions) :=
  invariant_of_forall_step barrierHolds_step actions barrierHolds_new

/-! ## What a step can do -/

/-- The mark tells of no lifecycle step that somebody relies on, and of nobody
who is counted in. -/
def GateMark.Routine (mark : GateMark) : Prop :=
  match mark with
  | .granted _ _ => True
  | .refused _ => True
  | .closed => True
  | _ => False

/-- What a step may do to the gate, and what its marks say about the gate
before it. -/
structure StepDoes (system : GateSystem)
    (taken : GateSystem × List GateMark) : Prop where
  later : system.gate.generation ≤ taken.1.gate.generation
  written : taken.1.gate.published ≠ system.gate.published →
    ∃ generation published, .opened generation published ∈ taken.2
  opened : ∀ generation published, .opened generation published ∈ taken.2 →
    wordClosed system.gate.state = true ∧ wordReaders system.gate.state = 0 ∧
      system.gate.generation ≠ lastGeneration ∧
      system.gate.generation = generation
  admitted : ∀ call generation, .admitted call generation ∈ taken.2 →
    wordClosed system.gate.state = false ∧ generation = system.gate.generation
  quiesced : .quiesced ∈ taken.2 →
    system.gate.state = closedBit ∧ taken.1.admissions = system.admissions

namespace StepDoes

variable {system next : GateSystem} {marks : List GateMark}

theorem routine (later : system.gate.generation ≤ next.gate.generation)
    (same : next.gate.published = system.gate.published)
    (routine : ∀ mark ∈ marks, GateMark.Routine mark) :
    StepDoes system (next, marks) where
  later := later
  written := fun other => absurd same other
  opened := fun _ _ inside => (routine _ inside).elim
  admitted := fun _ _ inside => (routine _ inside).elim
  quiesced := fun inside => (routine _ inside).elim

theorem silent (later : system.gate.generation ≤ next.gate.generation)
    (same : next.gate.published = system.gate.published) :
    StepDoes system (next, []) :=
  routine later same fun _ never => absurd never List.not_mem_nil

/-- Somebody who waits looks at the gate. -/
theorem looks {waiters : Nat} (quiescent : system.gate.state = closedBit) :
    StepDoes system ({ system with
      gate := { system.gate with quiescenceWaiters := waiters } },
      [.quiesced]) where
  later := Nat.le_refl _
  written := fun other => absurd rfl other
  opened := fun _ _ inside => nomatch List.mem_singleton.mp inside
  admitted := fun _ _ inside => nomatch List.mem_singleton.mp inside
  quiesced := fun _ => ⟨quiescent, rfl⟩

end StepDoes

/-- What the step of one call does. -/
theorem stepDoes_admit (system : GateSystem) (call : Nat) (spurious : Bool)
    (admission : Admission) (admissions : List Admission) :
    StepDoes system
      (⟨(system.gate.tryAdmitStep call spurious admission).1, admissions⟩,
        (system.gate.tryAdmitStep call spurious admission).2.2) := by
  cases admission with
  | reading =>
      simp only [AdmissionGate.tryAdmitStep]
      split
      · exact .routine (Nat.le_refl _) rfl (by simp [GateMark.Routine])
      · exact .silent (Nat.le_refl _) rfl
  | found state =>
      simp only [AdmissionGate.tryAdmitStep]
      split
      · exact .silent (Nat.le_refl _) rfl
      · exact .silent (Nat.le_refl _) rfl
  | counting state generation =>
      simp only [AdmissionGate.tryAdmitStep]
      split
      · exact .routine (Nat.le_refl _) rfl (by simp [GateMark.Routine])
      · rename_i unclosed
        split
        · exact .silent (Nat.le_refl _) rfl
        · rename_i current
          split
          · exact .routine (Nat.le_refl _) rfl (by simp [GateMark.Routine])
          · have same : system.gate.state = state := by
              by_contra other
              exact current (Or.inr other)
            refine ⟨Nat.le_refl _, fun other => absurd rfl other, ?_, ?_, ?_⟩
            · intro _ _ inside
              cases List.mem_singleton.mp inside
            · intro _ _ inside
              cases List.mem_singleton.mp inside
              exact ⟨same ▸ Bool.eq_false_iff.mpr unclosed, rfl⟩
            · intro inside
              cases List.mem_singleton.mp inside
  | confirming generation =>
      simp only [AdmissionGate.tryAdmitStep]
      split
      · exact .silent (Nat.le_refl _) rfl
      · exact .silent (Nat.le_refl _) rfl
  | copying generation =>
      exact .routine (Nat.le_refl _) rfl
        (by simp [AdmissionGate.tryAdmitStep, GateMark.Routine])
  | retreating confirmed =>
      exact .silent (by simp [AdmissionGate.tryAdmitStep])
        (by simp [AdmissionGate.tryAdmitStep])
  | failing =>
      exact .routine (Nat.le_refl _) rfl
        (by simp [AdmissionGate.tryAdmitStep, GateMark.Routine])
  | leased lease => exact .silent (Nat.le_refl _) rfl
  | ended => exact .silent (Nat.le_refl _) rfl

theorem stepDoes_step (system : GateSystem) (action : GateAction) :
    StepDoes system (system.step action) := by
  cases action with
  | tryAdmit => exact .silent (Nat.le_refl _) rfl
  | proceed call spurious =>
      simp only [GateSystem.step]
      split
      · exact .silent (Nat.le_refl _) rfl
      · exact stepDoes_admit system call spurious _ _
  | dropLease call =>
      simp only [GateSystem.step]
      split
      · exact .silent (by simp) (by simp)
      · exact .silent (Nat.le_refl _) rfl
  | close => exact .routine (Nat.le_refl _) rfl (by simp [GateMark.Routine])
  | waitQuiescent =>
      obtain ⟨waiters, same, quiescent⟩ := system.gate.waitQuiescent_cases
      simp only [GateSystem.step]
      split
      · rename_i gate result
        rw [result] at same quiescent
        dsimp only at same
        rw [same]
        exact .looks (quiescent rfl)
      · rename_i gate other _ result
        rw [result] at same
        dsimp only at same
        rw [same]
        exact .silent (Nat.le_refl _) rfl
  | recheck =>
      obtain ⟨waiters, same, quiescent⟩ := system.gate.recheckQuiescent_cases
      simp only [GateSystem.step]
      split
      · exact .silent (Nat.le_refl _) rfl
      · split
        · rename_i gate result
          rw [result] at same quiescent
          dsimp only at same
          rw [same]
          exact .looks (quiescent rfl)
        · rename_i gate result
          rw [result] at same
          dsimp only at same
          rw [same]
          exact .silent (Nat.le_refl _) rfl
  | advanceGeneration =>
      obtain ⟨later, same⟩ := advanceLocked_later system.gate
      simp only [GateSystem.step, AdmissionGate.advanceGeneration]
      split
      · exact .silent (Nat.le_refl _) rfl
      · exact .silent later same
  | hardReset =>
      obtain ⟨later, same⟩ := advanceLocked_later system.gate.closeAtomic
      exact .routine later same (by simp [GateMark.Routine])
  | openIfGeneration expected published =>
      simp only [GateSystem.step]
      rcases system.gate.openIfGeneration_cases expected published with
        ⟨error, result⟩ | ⟨closed, empty, room, current, result⟩
      · rw [result]
        exact .silent (Nat.le_refl _) rfl
      · rw [result]
        refine ⟨Nat.le_refl _, fun _ => ⟨expected, published, by simp⟩,
          ?_, ?_, ?_⟩
        · intro _ _ inside
          cases List.mem_singleton.mp inside
          exact ⟨closed, empty, room, current⟩
        · intro _ _ inside
          cases List.mem_singleton.mp inside
        · intro inside
          cases List.mem_singleton.mp inside

/-! ## What the marks say -/

/-- The gate is open under the last opening that no closing followed. -/
theorem openSince_eq_some {log : List GateMark} {generation : Nat}
    {published : PublishedAdmission} (opening : openSince log = some (generation, published)) :
    ∃ earlier later, log = earlier ++ .opened generation published :: later ∧
      GateMark.closed ∉ later ∧
      ∀ other content, GateMark.opened other content ∉ later := by
  induction log using List.reverseRecOn with
  | nil => cases opening
  | append_singleton log mark ih =>
      rw [openSince_concat] at opening
      have goesOn (before : openSince log = some (generation, published))
          (still : mark ≠ .closed)
          (unopened : ∀ other content, mark ≠ .opened other content) :
          ∃ earlier later, log ++ [mark] =
              earlier ++ .opened generation published :: later ∧
            GateMark.closed ∉ later ∧
            ∀ other content, GateMark.opened other content ∉ later := by
        obtain ⟨earlier, later, split, shut, last⟩ :=
          ih before
        refine ⟨earlier, later ++ [mark], by simp [split], ?_, ?_⟩
        · simp only [List.mem_append, List.mem_singleton, not_or]
          exact ⟨shut, still.symm⟩
        · intro other content
          simp only [List.mem_append, List.mem_singleton, not_or]
          exact ⟨last other content, (unopened other content).symm⟩
      cases mark with
      | opened other content =>
          cases opening
          exact ⟨log, [], rfl, List.not_mem_nil, fun _ _ => List.not_mem_nil⟩
      | closed => cases opening
      | admitted call counted => exact goesOn opening nofun nofun
      | granted call lease => exact goesOn opening nofun nofun
      | refused call => exact goesOn opening nofun nofun
      | quiesced => exact goesOn opening nofun nofun

/-- Between a closing and a later admission the gate was opened. -/
theorem LogHolds.opened_between {earlier middle later : List GateMark}
    {call generation : Nat} (holds : LogHolds (earlier ++ .closed :: middle ++
      .admitted call generation :: later)) :
    ∃ opening published, .opened opening published ∈ middle := by
  obtain ⟨published, opening⟩ := holds.admitted
    (earlier ++ .closed :: middle) later call generation rfl
  obtain ⟨before, after, split, shut, _⟩ := openSince_eq_some opening
  rcases List.append_eq_append_iff.mp split.symm with
    ⟨rest, _, tail⟩ | ⟨rest, _, tail⟩
  · cases rest with
    | nil => cases tail
    | cons first rest =>
        have member : GateMark.closed ∈ after := by
          have pieces := (List.cons.inj tail).2
          rw [pieces]
          simp
        exact absurd member shut
  · cases rest with
    | nil => cases tail
    | cons first rest =>
        have pieces := (List.cons.inj tail).2
        exact ⟨generation, published, by rw [pieces]; simp⟩

/-! ## The barrier -/

/-- Nobody was counted in and the gate did not open. -/
def StaysShut (marks : List GateMark) : Prop :=
  (∀ call, NotAdmitting marks call) ∧
    ∀ generation published, .opened generation published ∉ marks

/-- What holds of a system and of the marks that led to it. -/
structure Barrier (system : GateSystem) (log : List GateMark) : Prop where
  /-- The state counts the calls that are inside. -/
  counts : wordReaders system.gate.state = system.readers ∧ system.readers ≤ readerMask
  /-- A lease is what the opening that let its call in published. -/
  leases : ∀ call lease, system.admissions[call]? = some (.leased lease) →
    CountedUnder log call lease.generation lease.published
  grants : ∀ earlier later call lease,
    log = earlier ++ .granted call lease :: later →
      CountedUnder earlier call lease.generation lease.published
  /-- A call is counted in under the generation of its step. -/
  admits : ∀ action call generation,
    .admitted call generation ∈ (system.step action).2 → generation = system.gate.generation
  /-- After a closing nobody is counted in before the next opening. -/
  closes : ∀ earlier middle later call generation,
    log = earlier ++ .closed :: middle ++ .admitted call generation :: later →
      ∃ opening published, .opened opening published ∈ middle
  closings : (system.step .close).2 = [.closed] ∧ (system.step .hardReset).2 = [.closed]
  /-- The gate publishes while it is closed and empty. -/
  publishes : ∀ action,
    (system.step action).1.gate.published ≠ system.gate.published ∨
        (∃ generation published, .opened generation published ∈ (system.step action).2) →
      system.gate.isClosed = true ∧ system.readers = 0
  /-- The generation only grows, and only the current one opens the gate. -/
  grows : ∀ action, system.gate.generation ≤ (system.step action).1.gate.generation
  stale : ∀ expected published, expected ≠ system.gate.generation →
    ∃ error, system.gate.openIfGeneration expected published = (system.gate, .error error)
  /-- Whoever waited for the gate to be empty finds nobody inside. -/
  waits : ∀ action, .quiesced ∈ (system.step action).2 →
    ∀ admission ∈ (system.step action).1.admissions, admission.counted = false
  /-- Once the generations are used up the gate stays closed. -/
  exhausts : system.gate.generation = lastGeneration →
    ∀ more, ∃ later,
      (runFrom (recording GateSystem.step) (system, log) more).2 =
        log ++ later ∧ StaysShut later ∧
      (runFrom (recording GateSystem.step) (system, log) more).1.gate.isClosed = true

/-- A system whose generations are used up, with what it did since. -/
private structure Spent (log : List GateMark)
    (recorded : GateSystem × List GateMark) : Prop where
  holds : BarrierHolds recorded
  last : recorded.1.gate.generation = lastGeneration
  since : ∃ later, recorded.2 = log ++ later ∧ StaysShut later

private theorem BarrierHolds.shut {recorded : GateSystem × List GateMark}
    (holds : BarrierHolds recorded) (last : recorded.1.gate.generation = lastGeneration) :
    wordClosed recorded.1.gate.state = true := by
  obtain ⟨closed, gate⟩ := holds.gate
  rw [gate.isClosed_iff]
  exact gate.exhausted last

private theorem spent_step (log : List GateMark)
    (recorded : GateSystem × List GateMark) (action : GateAction) (spent : Spent log recorded) :
    Spent log (recording GateSystem.step recorded action) := by
  have after : BarrierHolds (recording GateSystem.step recorded action) :=
    barrierHolds_step recorded action spent.holds
  have does := stepDoes_step recorded.1 action
  have shut := spent.holds.shut spent.last
  obtain ⟨later, split, quiet, unopened⟩ := spent.since
  refine ⟨after, ?_, later ++ (recorded.1.step action).2, ?_, ?_, ?_⟩
  · obtain ⟨_, gate⟩ := after.gate
    have high := gate.limited
    have low := does.later
    rw [spent.last] at low
    exact Nat.le_antisymm high low
  · change recorded.2 ++ (recorded.1.step action).2 = _
    rw [split, List.append_assoc]
  · intro call generation inside
    rcases List.mem_append.mp inside with before | now
    · exact quiet call generation before
    · have isOpen := (does.admitted call generation now).1
      rw [shut] at isOpen
      cases isOpen
  · intro generation published inside
    rcases List.mem_append.mp inside with before | now
    · exact unopened generation published before
    · exact (does.opened generation published now).2.2.1 spent.last

/-- The barrier follows from the invariant. -/
theorem BarrierHolds.barrier {system : GateSystem} {log : List GateMark}
    (holds : BarrierHolds (system, log)) : Barrier system log := by
  obtain ⟨closed, gate⟩ := holds.gate
  refine
    { counts := ⟨gate.readers_eq, gate.bounded⟩
      leases := fun call lease found => holds.stages call _ found
      grants := holds.log.granted
      admits := fun action call generation inside =>
        ((stepDoes_step system action).admitted call generation inside).2
      closes := ?_
      closings := ⟨rfl, rfl⟩
      publishes := ?_
      grows := fun action => (stepDoes_step system action).later
      stale := ?_
      waits := ?_
      exhausts := ?_ }
  · intro earlier middle later call generation split
    have whole : LogHolds log := holds.log
    rw [split] at whole
    exact whole.opened_between
  · intro action change
    have does := stepDoes_step system action
    have opens : ∃ generation published,
        .opened generation published ∈ (system.step action).2 := by
      rcases change with written | opens
      · exact does.written written
      · exact opens
    obtain ⟨generation, published, inside⟩ := opens
    obtain ⟨isClosed, empty, _⟩ := does.opened generation published inside
    exact ⟨isClosed, gate.readers_eq.symm.trans empty⟩
  · intro expected published other
    rcases system.gate.openIfGeneration_cases expected published with
      failed | ⟨_, _, _, current, _⟩
    · exact failed
    · exact absurd current.symm other
  · intro action inside admission member
    obtain ⟨word, same⟩ := (stepDoes_step system action).quiesced inside
    have none : system.readers = 0 := (gate.empty word).2
    rw [same] at member
    have outside := List.countP_eq_zero.mp none admission member
    exact Bool.eq_false_iff.mpr outside
  · intro last more
    have spent : Spent log (system, log) :=
      ⟨holds, last, [], (List.append_nil log).symm,
        notAdmitting_nil, fun _ _ => List.not_mem_nil⟩
    have final := invariant_of_forall_step (spent_step log) more spent
    obtain ⟨later, split, shut⟩ := final.since
    exact ⟨later, split, shut, final.holds.shut final.last⟩

/-- In every interleaving the gate is a barrier. -/
theorem barrier_run (actions : List GateAction) :
    Barrier (GateSystem.run actions).1 (GateSystem.run actions).2 :=
  (barrierHolds_run actions).barrier

end Ratspeak.Activity
