import Mathlib.Data.Nat.Bitwise
import Ratspeak.Activity.Gate

/-!
# The capture gate as a barrier

In every interleaving of producers and lifecycle callers, the state word
counts the calls that are inside, what is published changes only while nobody
is, and every lease goes back to the opening of the gate under which its call
was counted.  While the gate is closed nobody is counted in, and once the
generations are used up it stays closed.
-/

namespace Ratspeak.Activity

open Library

/-! ## The state word -/

/-- The state word of a gate. -/
def stateWord (closed : Bool) (readers : Nat) : Nat :=
  if closed then closedBit + readers else readers

section Words

variable {readers : Nat}

private theorem closedBit_pos : readerMask + 1 = closedBit := rfl

theorem wordClosed_stateWord (closed : Bool) (bounded : readers ≤ readerMask) :
    wordClosed (stateWord closed readers) = closed := by
  have small : readers < 2 ^ 63 := by
    have := closedBit_pos
    simp only [closedBit] at this
    omega
  rw [wordClosed, closedBit, Nat.and_two_pow]
  cases closed with
  | false =>
      have bit : readers.testBit 63 = false := Nat.testBit_lt_two_pow small
      simp [stateWord, bit]
  | true =>
      have bit : (closedBit + readers).testBit 63 = true := by
        rw [Nat.testBit_eq_decide_div_mod_eq, closedBit]
        simp only [decide_eq_true_eq]
        omega
      simp [stateWord, bit]

theorem wordReaders_stateWord (closed : Bool) (bounded : readers ≤ readerMask) :
    wordReaders (stateWord closed readers) = readers := by
  have small : readers < 2 ^ 63 := by
    have := closedBit_pos
    simp only [closedBit] at this
    omega
  rw [wordReaders, readerMask, closedBit, Nat.and_two_pow_sub_one_eq_mod]
  cases closed with
  | false => exact Nat.mod_eq_of_lt small
  | true =>
      rw [stateWord, if_pos rfl, closedBit, Nat.add_mod_left]
      exact Nat.mod_eq_of_lt small

theorem stateWord_close (closed : Bool) (bounded : readers ≤ readerMask) :
    stateWord closed readers ||| closedBit = stateWord true readers := by
  have small : readers < 2 ^ 63 := by
    have := closedBit_pos
    simp only [closedBit] at this
    omega
  have joined : closedBit + readers = closedBit ||| readers := by
    have spread := Nat.two_pow_add_eq_or_of_lt small 1
    rw [Nat.mul_one] at spread
    exact spread
  cases closed with
  | false =>
      simp only [stateWord, Bool.false_eq_true, if_false, if_true]
      rw [joined, Nat.or_comm]
  | true =>
      simp only [stateWord, if_true]
      rw [joined, Nat.or_comm closedBit readers, Nat.or_assoc, Nat.or_self]

theorem stateWord_release {closed : Bool} (bounded : readers + 1 ≤ readerMask) :
    (stateWord closed (readers + 1) + (2 ^ 64 - 1)) % 2 ^ 64 =
      stateWord closed readers := by
  have known : readerMask = 2 ^ 63 - 1 := rfl
  cases closed with
  | false =>
      simp only [stateWord, Bool.false_eq_true, if_false]
      omega
  | true =>
      simp only [stateWord, if_true, closedBit]
      omega

end Words

/-! ## What the marks say -/

/-- What a mark changes about the opening since which the gate is open. -/
def openingAfter (opening : Option (Nat × PublishedAdmission)) :
    GateMark → Option (Nat × PublishedAdmission)
  | .opened generation published => some (generation, published)
  | .closed => none
  | _ => opening

/-- The opening since which the gate is open, if it is. -/
def openSince (log : List GateMark) : Option (Nat × PublishedAdmission) :=
  log.foldl openingAfter none

theorem openSince_concat (log : List GateMark) (mark : GateMark) :
    openSince (log ++ [mark]) = openingAfter (openSince log) mark := by
  rw [openSince, List.foldl_append]
  rfl

/-- The call is not counted in by any of the marks. -/
def NotAdmitting (marks : List GateMark) (call : Nat) : Prop :=
  ∀ generation, GateMark.admitted call generation ∉ marks

/-- The call was last counted in under the generation, while the gate was open
under the generation with this publication. -/
def CountedUnder (log : List GateMark) (call generation : Nat)
    (published : PublishedAdmission) : Prop :=
  ∃ earlier later, log = earlier ++ .admitted call generation :: later ∧
    NotAdmitting later call ∧
    openSince earlier = some (generation, published)

theorem notAdmitting_nil (call : Nat) : NotAdmitting [] call :=
  fun _ inside => List.not_mem_nil inside

theorem notAdmitting_singleton {mark : GateMark} {call : Nat}
    (other : ∀ generation, mark ≠ .admitted call generation) :
    NotAdmitting [mark] call := by
  intro generation inside
  exact other generation (List.mem_singleton.mp inside).symm

theorem CountedUnder.append {log : List GateMark} {call generation : Nat}
    {published : PublishedAdmission} (counted : CountedUnder log call generation published)
    {marks : List GateMark} (quiet : NotAdmitting marks call) :
    CountedUnder (log ++ marks) call generation published := by
  obtain ⟨earlier, later, split, last, opening⟩ := counted
  refine ⟨earlier, later ++ marks, by simp [split], ?_, opening⟩
  intro other inside
  rcases List.mem_append.mp inside with before | after
  · exact last other before
  · exact quiet other after

/-- A call was counted in at a time when the gate was open, and a lease was
granted to a call that was counted in before. -/
structure LogHolds (log : List GateMark) : Prop where
  admitted : ∀ earlier later call generation,
    log = earlier ++ .admitted call generation :: later →
      ∃ published, openSince earlier = some (generation, published)
  granted : ∀ earlier later call lease,
    log = earlier ++ .granted call lease :: later →
      CountedUnder earlier call lease.generation lease.published

/-- The log goes on with a mark that fits. -/
theorem LogHolds.concat {log : List GateMark} (holds : LogHolds log) {mark : GateMark}
    (admits : ∀ call generation, mark = .admitted call generation →
      ∃ published, openSince log = some (generation, published))
    (grants : ∀ call lease, mark = .granted call lease →
      CountedUnder log call lease.generation lease.published) :
    LogHolds (log ++ [mark]) := by
  have splits {earlier later : List GateMark} {other : GateMark}
      (split : log ++ [mark] = earlier ++ other :: later) :
      (log = earlier ∧ mark = other) ∨
        ∃ rest, log = earlier ++ other :: rest := by
    rcases List.eq_nil_or_concat later with rfl | ⟨rest, last, rfl⟩
    · obtain ⟨same, equal⟩ := List.append_inj' split rfl
      exact Or.inl ⟨same, List.head_eq_of_cons_eq equal⟩
    · have regrouped : log ++ [mark] =
          (earlier ++ other :: rest) ++ [last] := by
        rw [split, List.concat_eq_append, List.append_assoc, List.cons_append]
      exact Or.inr ⟨rest, (List.append_inj' regrouped rfl).1⟩
  refine ⟨fun earlier later call generation split => ?_,
    fun earlier later call lease split => ?_⟩
  · rcases splits split with ⟨rfl, equal⟩ | ⟨rest, before⟩
    · exact admits call generation equal
    · exact holds.admitted earlier rest call generation before
  · rcases splits split with ⟨rfl, equal⟩ | ⟨rest, before⟩
    · exact grants call lease equal
    · exact holds.granted earlier rest call lease before

/-- The mark neither counts a call in nor grants a lease. -/
def GateMark.Plain (mark : GateMark) : Prop :=
  match mark with
  | .admitted _ _ => False
  | .granted _ _ => False
  | _ => True

theorem LogHolds.plain {log : List GateMark} (holds : LogHolds log)
    {mark : GateMark} (plain : mark.Plain) : LogHolds (log ++ [mark]) := by
  refine holds.concat (fun call generation equal => ?_)
    fun call lease equal => ?_
  · subst equal
    exact plain.elim
  · subst equal
    exact plain.elim

/-! ## The invariant -/

/-- What a call remembers of the gate is right. -/
def StageHolds (gate : AdmissionGate) (log : List GateMark) (call : Nat) :
    Admission → Prop
  | .counting _ generation => generation ≤ gate.generation
  | .confirming generation => ∃ counted,
      CountedUnder log call counted gate.published ∧
        generation ≤ counted ∧ counted ≤ gate.generation
  | .copying generation => CountedUnder log call generation gate.published
  | .leased lease => CountedUnder log call lease.generation lease.published
  | _ => True

/-- The gate of a system in which the calls inside number `readers`. -/
structure GateHolds (gate : AdmissionGate) (readers : Nat)
    (log : List GateMark) (closed : Bool) : Prop where
  word : gate.state = stateWord closed readers
  bounded : readers ≤ readerMask
  opening : openSince log =
    if closed then none else some (gate.generation, gate.published)
  limited : gate.generation ≤ lastGeneration
  exhausted : gate.generation = lastGeneration → closed = true

/-- The readers of a system: the calls that are inside. -/
def GateSystem.readers (system : GateSystem) : Nat :=
  system.admissions.countP Admission.counted

structure BarrierHolds (recorded : GateSystem × List GateMark) : Prop where
  gate : ∃ closed, GateHolds recorded.1.gate recorded.1.readers recorded.2 closed
  stages : ∀ call admission, recorded.1.admissions[call]? = some admission →
    StageHolds recorded.1.gate recorded.2 call admission
  log : LogHolds recorded.2

/-! ## Steps of the gate -/

@[simp]
theorem AdmissionGate.releaseReader_generation (gate : AdmissionGate) :
    gate.releaseReader.generation = gate.generation := by
  unfold releaseReader
  rfl

@[simp]
theorem AdmissionGate.releaseReader_published (gate : AdmissionGate) :
    gate.releaseReader.published = gate.published := by
  unfold releaseReader
  rfl

/-- What a call remembers stays right while the gate goes on, and what is
published stays for those inside. -/
theorem StageHolds.mono {before after : AdmissionGate}
    {log marks : List GateMark} {call : Nat} {admission : Admission}
    (holds : StageHolds before log call admission)
    (later : before.generation ≤ after.generation)
    (same : admission.counted = true → after.published = before.published)
    (quiet : NotAdmitting marks call) :
    StageHolds after (log ++ marks) call admission := by
  cases admission with
  | counting state generation => exact Nat.le_trans holds later
  | confirming generation =>
      obtain ⟨counted, under, low, high⟩ := holds
      refine ⟨counted, ?_, low, Nat.le_trans high later⟩
      rw [same rfl]
      exact under.append quiet
  | copying generation =>
      have under : CountedUnder log call generation before.published := holds
      change CountedUnder (log ++ marks) call generation after.published
      rw [same rfl]
      exact under.append quiet
  | leased lease => exact CountedUnder.append holds quiet
  | reading => trivial
  | found state => trivial
  | retreating confirmed => trivial
  | failing => trivial
  | ended => trivial

namespace GateHolds

variable {gate : AdmissionGate} {readers : Nat} {log : List GateMark}
  {closed : Bool}

theorem isClosed_iff (holds : GateHolds gate readers log closed) :
    wordClosed gate.state = closed := by
  rw [holds.word]
  exact wordClosed_stateWord closed holds.bounded

theorem readers_eq (holds : GateHolds gate readers log closed) :
    wordReaders gate.state = readers := by
  rw [holds.word]
  exact wordReaders_stateWord closed holds.bounded

/-- A mark that is about no opening changes nothing. -/
theorem mark (holds : GateHolds gate readers log closed) {mark : GateMark}
    (neutral : openingAfter (openSince log) mark = openSince log) :
    GateHolds gate readers (log ++ [mark]) closed :=
  ⟨holds.word, holds.bounded,
    by rw [openSince_concat, neutral, holds.opening], holds.limited,
    holds.exhausted⟩

theorem close (holds : GateHolds gate readers log closed) :
    GateHolds gate.closeAtomic readers (log ++ [.closed]) true := by
  refine ⟨?_, holds.bounded, ?_, holds.limited, fun _ => rfl⟩
  · change gate.state ||| closedBit = stateWord true readers
    rw [holds.word, stateWord_close closed holds.bounded]
  · rw [openSince_concat]
    rfl

theorem release (holds : GateHolds gate (readers + 1) log closed) :
    GateHolds gate.releaseReader readers log closed := by
  have bounded : readers + 1 ≤ readerMask := holds.bounded
  refine ⟨?_, by omega, by simpa using holds.opening,
    by simpa using holds.limited, by simpa using holds.exhausted⟩
  change (gate.state + (2 ^ 64 - 1)) % 2 ^ 64 = stateWord closed readers
  rw [holds.word, stateWord_release bounded]

/-- A closed gate stays as it is while the generation advances. -/
theorem advance (holds : GateHolds gate readers log true)
    (room : gate.generation ≠ lastGeneration) :
    GateHolds { gate with generation := gate.generation + 1 } readers log true :=
  ⟨holds.word, holds.bounded, holds.opening,
    Nat.lt_of_le_of_ne holds.limited room, fun _ => rfl⟩

theorem enter (holds : GateHolds gate readers log false)
    (room : readers ≠ readerMask) (call : Nat) :
    GateHolds { gate with state := gate.state + 1 } (readers + 1)
      (log ++ [.admitted call gate.generation]) false := by
  have fits : readers < readerMask :=
    lt_of_le_of_ne holds.bounded room
  refine ⟨?_, Nat.succ_le_of_lt fits, ?_, holds.limited, holds.exhausted⟩
  · rw [holds.word]
    rfl
  · rw [openSince_concat, holds.opening]
    rfl

theorem reopen (holds : GateHolds gate 0 log true)
    (room : gate.generation ≠ lastGeneration) (published : PublishedAdmission) :
    GateHolds { gate with state := 0, published := published } 0
      (log ++ [.opened gate.generation published]) false := by
  refine ⟨rfl, Nat.zero_le _, ?_, holds.limited, fun exhausted => absurd exhausted room⟩
  rw [openSince_concat]
  rfl

end GateHolds

/-! ## Steps of the system -/

/-- A step that changes the gate only. -/
theorem BarrierHolds.gate_step {system : GateSystem}
    {log marks : List GateMark} (holds : BarrierHolds (system, log))
    {gate : AdmissionGate} {closed : Bool}
    (after : GateHolds gate system.readers (log ++ marks) closed)
    (later : system.gate.generation ≤ gate.generation)
    (same : system.readers ≠ 0 → gate.published = system.gate.published)
    (quiet : ∀ call, NotAdmitting marks call) (kept : LogHolds (log ++ marks)) :
    BarrierHolds ({ system with gate := gate }, log ++ marks) := by
  refine ⟨⟨closed, after⟩, fun call admission found => ?_, kept⟩
  refine (holds.stages call admission found).mono later
    (fun counted => same fun none => ?_) (quiet call)
  have inside : 0 < system.readers :=
    List.countP_pos_iff.mpr ⟨admission, List.mem_of_getElem? found, counted⟩
  omega

/-- A step of one call. -/
theorem BarrierHolds.call_step {system : GateSystem}
    {log marks : List GateMark} (holds : BarrierHolds (system, log))
    {call : Nat} {admission next : Admission}
    (found : system.admissions[call]? = some admission)
    {gate : AdmissionGate} {closed : Bool} (after : GateHolds gate
      ((system.admissions.set call next).countP Admission.counted)
      (log ++ marks) closed)
    (later : system.gate.generation ≤ gate.generation)
    (same : gate.published = system.gate.published)
    (stage : StageHolds gate (log ++ marks) call next)
    (quiet : ∀ other, other ≠ call → NotAdmitting marks other)
    (kept : LogHolds (log ++ marks)) :
    BarrierHolds (⟨gate, system.admissions.set call next⟩, log ++ marks) := by
  refine ⟨⟨closed, after⟩, fun other stands known => ?_, kept⟩
  dsimp only at known
  by_cases equal : other = call
  · subst equal
    have inside : other < system.admissions.length :=
      (List.getElem?_eq_some_iff.mp found).1
    rw [List.getElem?_set_self inside] at known
    cases known
    exact stage
  · rw [List.getElem?_set_ne fun swapped => equal swapped.symm] at known
    exact (holds.stages other stands known).mono later (fun _ => same)
      (quiet other equal)

/-- The calls inside, after one of them stands elsewhere. -/
theorem countP_call {system : GateSystem} {call : Nat} {admission : Admission}
    (found : system.admissions[call]? = some admission) (next : Admission) :
    (system.admissions.set call next).countP Admission.counted =
      system.readers - (if admission.counted then 1 else 0) +
        (if next.counted then 1 else 0) := by
  obtain ⟨inside, same⟩ := List.getElem?_eq_some_iff.mp found
  rw [List.countP_set inside, same]
  rfl

theorem readers_pos {system : GateSystem} {call : Nat} {admission : Admission}
    (found : system.admissions[call]? = some admission)
    (counted : admission.counted = true) : 0 < system.readers :=
  List.countP_pos_iff.mpr ⟨admission, List.mem_of_getElem? found, counted⟩

/-- A call leaves, and goes on elsewhere. -/
theorem BarrierHolds.leave {system : GateSystem} {log : List GateMark}
    (holds : BarrierHolds (system, log)) {call : Nat} {admission next : Admission}
    (found : system.admissions[call]? = some admission)
    (counted : admission.counted = true) (out : next.counted = false)
    (stage : StageHolds system.gate.releaseReader log call next) :
    BarrierHolds
      (⟨system.gate.releaseReader, system.admissions.set call next⟩, log) := by
  obtain ⟨closed, gate⟩ := holds.gate
  have inside : 0 < system.readers := readers_pos found counted
  obtain ⟨rest, readers⟩ : ∃ rest, system.readers = rest + 1 :=
    ⟨system.readers - 1, by omega⟩
  have known : GateHolds system.gate (rest + 1) log closed := readers ▸ gate
  have left : (system.admissions.set call next).countP Admission.counted =
      rest := by
    rw [countP_call found, counted, out, readers]
    rfl
  have released := known.release
  rw [← left, ← List.append_nil log] at released
  rw [← List.append_nil log] at stage ⊢
  exact holds.call_step found released (by simp) (by simp) stage
    (fun other _ => notAdmitting_nil other) (by rw [List.append_nil]; exact holds.log)

/-- A call goes on without touching the gate. -/
theorem BarrierHolds.stand {system : GateSystem} {log : List GateMark}
    (holds : BarrierHolds (system, log)) {call : Nat} {admission next : Admission}
    (found : system.admissions[call]? = some admission)
    (same : next.counted = admission.counted) (stage : StageHolds system.gate log call next) :
    BarrierHolds (⟨system.gate, system.admissions.set call next⟩, log) := by
  obtain ⟨closed, gate⟩ := holds.gate
  have kept : (system.admissions.set call next).countP Admission.counted =
      system.readers := by
    rw [countP_call found, same]
    by_cases counted : admission.counted = true
    · have inside : 0 < system.readers := readers_pos found counted
      simp only [counted, if_true]
      omega
    · simp [counted]
  have after : GateHolds system.gate
      ((system.admissions.set call next).countP Admission.counted)
      (log ++ []) closed := by
    rw [kept, List.append_nil]
    exact gate
  rw [← List.append_nil log] at stage ⊢
  exact holds.call_step found after (Nat.le_refl _) rfl stage
    (fun other _ => notAdmitting_nil other) (by rw [List.append_nil]; exact holds.log)

/-- A mark about no opening. -/
theorem BarrierHolds.mark {system : GateSystem} {log : List GateMark}
    (holds : BarrierHolds (system, log)) {mark : GateMark}
    (neutral : openingAfter (openSince log) mark = openSince log)
    (quiet : ∀ call generation, mark ≠ .admitted call generation)
    (kept : LogHolds (log ++ [mark])) :
    BarrierHolds (system, log ++ [mark]) := by
  obtain ⟨closed, gate⟩ := holds.gate
  exact holds.gate_step (gate.mark neutral) (Nat.le_refl _) (fun _ => rfl)
    (fun call => notAdmitting_singleton (quiet call)) kept

theorem BarrierHolds.close {system : GateSystem} {log : List GateMark}
    (holds : BarrierHolds (system, log)) :
    BarrierHolds
      ({ system with gate := system.gate.closeAtomic },
        log ++ [.closed]) := by
  obtain ⟨closed, gate⟩ := holds.gate
  exact holds.gate_step gate.close (Nat.le_refl _) (fun _ => rfl)
    (fun _ => notAdmitting_singleton fun _ => GateMark.noConfusion)
    (holds.log.plain trivial)

/-- A call is refused. -/
theorem BarrierHolds.refuse {system : GateSystem} {log : List GateMark}
    (holds : BarrierHolds (system, log)) {call : Nat} {admission : Admission}
    (found : system.admissions[call]? = some admission) (outside : admission.counted = false) :
    BarrierHolds (⟨system.gate, system.admissions.set call .ended⟩,
      log ++ [.refused call]) := by
  have standing : BarrierHolds
      (⟨system.gate, system.admissions.set call .ended⟩, log) :=
    holds.stand found outside.symm trivial
  exact standing.mark rfl (fun _ _ => GateMark.noConfusion)
    (holds.log.plain trivial)

/-- A call counts itself in. -/
theorem BarrierHolds.enter {system : GateSystem} {log : List GateMark}
    (holds : BarrierHolds (system, log)) {call state generation : Nat}
    (found : system.admissions[call]? = some (.counting state generation))
    (unclosed : wordClosed system.gate.state = false)
    (room : wordReaders system.gate.state ≠ readerMask) :
    BarrierHolds
      (⟨{ system.gate with state := system.gate.state + 1 },
        system.admissions.set call (.confirming generation)⟩,
        log ++ [.admitted call system.gate.generation]) := by
  obtain ⟨closed, gate⟩ := holds.gate
  have isOpen : closed = false := gate.isClosed_iff.symm.trans unclosed
  subst isOpen
  rw [gate.readers_eq] at room
  have opening : openSince log =
      some (system.gate.generation, system.gate.published) := gate.opening
  have under : CountedUnder (log ++ [.admitted call system.gate.generation])
      call system.gate.generation system.gate.published :=
    ⟨log, [], rfl, notAdmitting_nil call, opening⟩
  have early : generation ≤ system.gate.generation :=
    holds.stages call _ found
  have after : GateHolds { system.gate with state := system.gate.state + 1 }
      ((system.admissions.set call (.confirming generation)).countP Admission.counted)
      (log ++ [.admitted call system.gate.generation]) false := by
    have more : (system.admissions.set call
        (.confirming generation)).countP Admission.counted =
        system.readers + 1 := by
      rw [countP_call found]
      rfl
    rw [more]
    exact gate.enter room call
  refine holds.call_step found after (Nat.le_refl _) rfl
    ⟨system.gate.generation, under, early, Nat.le_refl _⟩
    (fun other differs => notAdmitting_singleton fun known equal => ?_)
    (holds.log.concat (fun other known equal => ?_) fun _ _ equal => ?_)
  · cases equal
    exact differs rfl
  · cases equal
    exact ⟨system.gate.published, opening⟩
  · cases equal

/-- The next step of a call. -/
theorem barrierHolds_tryAdmitStep {system : GateSystem} {log : List GateMark}
    (holds : BarrierHolds (system, log)) {call : Nat} (spurious : Bool)
    {admission : Admission} (found : system.admissions[call]? = some admission) :
    BarrierHolds
      (⟨(system.gate.tryAdmitStep call spurious admission).1,
        system.admissions.set call (system.gate.tryAdmitStep call spurious admission).2.1⟩,
        log ++ (system.gate.tryAdmitStep call spurious admission).2.2) := by
  cases admission with
  | reading =>
      simp only [AdmissionGate.tryAdmitStep]
      split
      · exact holds.refuse found rfl
      · rw [List.append_nil]
        exact holds.stand found rfl trivial
  | found state =>
      simp only [AdmissionGate.tryAdmitStep]
      split
      · rw [List.append_nil]
        exact holds.stand found rfl trivial
      · rw [List.append_nil]
        exact holds.stand found rfl (Nat.le_refl system.gate.generation)
  | counting state generation =>
      simp only [AdmissionGate.tryAdmitStep]
      split
      · exact holds.refuse found rfl
      · rename_i unclosed
        split
        · have early : generation ≤ system.gate.generation :=
            holds.stages call _ found
          rw [List.append_nil]
          exact holds.stand found rfl early
        · rename_i current
          have same : system.gate.state = state := by
            by_contra other
            exact current (Or.inr other)
          subst same
          split
          · have closing := holds.close.refuse found rfl
            rw [List.append_assoc] at closing
            exact closing
          · rename_i room
            exact holds.enter found (Bool.eq_false_iff.mpr unclosed) room
  | confirming generation =>
      obtain ⟨counted, under, low, high⟩ := holds.stages call _ found
      simp only [AdmissionGate.tryAdmitStep]
      split
      · rename_i same
        have late : counted ≤ system.gate.generation := high
        have confirmed : counted = generation := by omega
        rw [List.append_nil]
        exact holds.stand found rfl (confirmed ▸ under)
      · rw [List.append_nil]
        exact holds.stand found rfl trivial
  | copying generation =>
      have under : CountedUnder log call generation system.gate.published :=
        holds.stages call _ found
      have standing : BarrierHolds (⟨system.gate, system.admissions.set call
          (.leased ⟨generation, system.gate.published⟩)⟩, log) :=
        holds.stand found rfl under
      refine standing.mark rfl (fun _ _ => GateMark.noConfusion)
        (holds.log.concat (fun _ _ equal => ?_) fun other lease equal => ?_)
      · cases equal
      · cases equal
        exact under
  | retreating confirmed =>
      simp only [AdmissionGate.tryAdmitStep]
      rw [List.append_nil]
      split
      · exact holds.leave found rfl rfl trivial
      · exact holds.leave found rfl rfl trivial
  | failing =>
      have closing := holds.close.refuse found rfl
      rw [List.append_assoc] at closing
      exact closing
  | leased lease =>
      simp only [AdmissionGate.tryAdmitStep]
      rw [List.append_nil]
      exact holds.stand found rfl (holds.stages call _ found)
  | ended =>
      simp only [AdmissionGate.tryAdmitStep]
      rw [List.append_nil]
      exact holds.stand found rfl trivial

end Ratspeak.Activity
