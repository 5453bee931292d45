import Ratspeak.Update.Status

/-!
# The verdict on an update

After the image was sent, the node reboots into it on trial.  The observer
decides from the statuses that it is shown afterwards what became of the
update: it compares them with the target, and with the status from before the
update, in order not to take an old boot or an older record for this one.

The verification polls the node, asks the observer about every status that it
gets, and ends with the first verdict that is not to wait on.
-/

namespace Ratspeak

open Library

structure OtaManifest where
  target : BoardTarget
  sequence : UInt32
  imageLen : UInt32
  firmwareVersion : FirmwareVersion
  imageSha256 : Bytes 32
  signature : Bytes 64
deriving DecidableEq

structure Observer where
  before : ManageStatus
  observedRestart : Bool
deriving DecidableEq

inductive Verdict where
  | pending
  | confirmed
  | rolledBack
  | superseded
deriving DecidableEq, Repr

/-- The status shows that the node restarted since. -/
def showsRestart (before : ManageStatus) (manifest : OtaManifest)
    (status : ManageStatus) : Bool :=
  status.uptimeS < before.uptimeS ||
    status.otaPendingSequence == some manifest.sequence ||
    status.otaTrialPending

def imageMatches (manifest : OtaManifest) (status : ManageStatus) : Bool :=
  status.image.any fun image =>
    image.len == manifest.imageLen && image.sha256 == manifest.imageSha256

namespace Observer

/-- The status says that this very update was rolled back. -/
def recordsRollback (observer : Observer) (manifest : OtaManifest)
    (status : ManageStatus) : Bool :=
  status.lastUpdate.any fun update =>
    update.sequence == manifest.sequence && !update.running &&
      (observer.observedRestart || observer.before.lastUpdate != some update)

def observe (observer : Observer) (status : ManageStatus)
    (manifest : OtaManifest) : Verdict × Observer :=
  let observer :=
    { observer with
      observedRestart := observer.observedRestart ||
        showsRestart observer.before manifest status }
  let verdict :=
    if status.otaPendingSequence.isSome || status.otaTrialPending then
      Verdict.pending
    else if status.otaAcceptedSequence > manifest.sequence then .superseded
    else if status.otaAcceptedSequence == manifest.sequence &&
        imageMatches manifest status then .confirmed
    else if observer.recordsRollback manifest status then .rolledBack
    else .pending
  (verdict, observer)

/-- The observer that an update starts with. -/
def new (before : ManageStatus) : Observer :=
  { before, observedRestart := false }

/-- The verdicts on statuses that are shown one after the other. -/
def verdicts (manifest : OtaManifest) :
    Observer → List ManageStatus → List Verdict
  | _, [] => []
  | observer, status :: rest =>
      let answer := observer.observe status manifest
      answer.1 :: verdicts manifest answer.2 rest

end Observer

/-! ## The verification -/

inductive Outcome where
  | installed (release : String)
  | rolledBack (release : String)
  | failed (reason : String)
  | cancelled
  | suspended
  | unconfirmed
deriving DecidableEq, Repr

def FirmwareVersion.text (version : FirmwareVersion) : String :=
  toString version.major.toNat ++ "." ++ toString version.minor.toNat ++
    "." ++ toString version.patch.toNat

def ReleaseVersion.text (release : ReleaseVersion) : String :=
  String.ofList (release.bytes.map fun byte => Char.ofNat byte.toNat)

def runningRelease (status : ManageStatus) : Option String :=
  (status.release.map ReleaseVersion.text).or (status.firmware.map FirmwareVersion.text)

/-- What asking the node for its status came to. -/
inductive Poll where
  | status (status : ManageStatus)
  | suspended
  | failed

inductive Control where
  | run
  | cancel
  | suspend
deriving DecidableEq, Repr

def Control.stopped : Control → Option Outcome
  | .run => none
  | .cancel => some .cancelled
  | .suspend => some .suspended

/-- A poll, and how the run is controlled after the pause behind it. -/
structure Visit where
  poll : Poll
  control : Control

def Visit.status? (visit : Visit) : Option ManageStatus :=
  match visit.poll with
  | .status status => some status
  | .suspended => none
  | .failed => none

/-- What a verdict ends the verification with. -/
def verdictOutcome (manifest : OtaManifest) (status : ManageStatus) :
    Verdict → Option Outcome
  | .confirmed =>
      some (.installed ((runningRelease status).getD manifest.firmwareVersion.text))
  | .rolledBack =>
      some (.rolledBack ((runningRelease status).getD "the previous release"))
  | .superseded => some (.failed "The node took a newer update meanwhile.")
  | .pending => none

/-- The loop of the verification; it gives up when the deadline passes
without an end. -/
def verifyFrom (manifest : OtaManifest) :
    Observer → List Visit → Outcome
  | _, [] => .unconfirmed
  | observer, visit :: rest =>
      match visit.poll with
      | .suspended => .suspended
      | .failed => visit.control.stopped.getD (verifyFrom manifest observer rest)
      | .status status =>
          let answer := observer.observe status manifest
          match verdictOutcome manifest status answer.1 with
          | some outcome => outcome
          | none => visit.control.stopped.getD (verifyFrom manifest answer.2 rest)

/-- The verification waits for the reboot first, where it may be stopped. -/
def verify (manifest : OtaManifest) (before : ManageStatus)
    (control : Control) (visits : List Visit) : Outcome :=
  control.stopped.getD (verifyFrom manifest (Observer.new before) visits)

/-! ## What a verdict rests on -/

/-- The node runs the target's image and has accepted its sequence, with
nothing pending or on trial. -/
structure RunsTarget (manifest : OtaManifest) (status : ManageStatus) :
    Prop where
  settled : status.otaPendingSequence = none
  tried : status.otaTrialPending = false
  accepted : status.otaAcceptedSequence = manifest.sequence
  image : ∃ image, status.image = some image ∧
    image.len = manifest.imageLen ∧ image.sha256 = manifest.imageSha256

/-- The node records that the target was rolled back, and this record is not
the one from before the update unless a restart was seen since. -/
structure RolledTarget (manifest : OtaManifest) (before : ManageStatus)
    (restarted : Prop) (status : ManageStatus) : Prop where
  settled : status.otaPendingSequence = none
  tried : status.otaTrialPending = false
  record : ∃ update, status.lastUpdate = some update ∧
    update.sequence = manifest.sequence ∧ update.running = false ∧
      (before.lastUpdate ≠ some update ∨ restarted)

namespace Observer

variable {manifest : OtaManifest} {observer : Observer}
  {status : ManageStatus}

/-- No verdict but to wait on while something is pending or on trial. -/
theorem settled_of_observe (decided : (observer.observe status manifest).1 ≠ .pending) :
    status.otaPendingSequence = none ∧ status.otaTrialPending = false := by
  by_cases busy : (status.otaPendingSequence.isSome || status.otaTrialPending) = true
  · exact absurd (by simp only [observe, if_pos busy]) decided
  · rw [Bool.or_eq_true, not_or, Bool.not_eq_true, Bool.not_eq_true] at busy
    refine ⟨?_, busy.2⟩
    exact Option.isNone_iff_eq_none.mp (Option.isSome_eq_false_iff.mp busy.1)

/-- What is left of the decision once nothing is pending or on trial. -/
private theorem observe_of_settled (settled : status.otaPendingSequence = none)
    (tried : status.otaTrialPending = false) :
    (observer.observe status manifest).1 =
      if status.otaAcceptedSequence > manifest.sequence then .superseded
      else if status.otaAcceptedSequence == manifest.sequence &&
          imageMatches manifest status then .confirmed
      else if (observer.observe status manifest).2.recordsRollback
          manifest status then .rolledBack
      else .pending := by
  simp only [observe, settled, tried, Option.isSome_none, Bool.or_self,
    Bool.false_eq_true, if_false]

theorem runsTarget_of_observe (decided : (observer.observe status manifest).1 = .confirmed) :
    RunsTarget manifest status := by
  obtain ⟨settled, tried⟩ := settled_of_observe (by
    rw [decided]
    decide)
  rw [observe_of_settled settled tried] at decided
  split at decided
  next =>
    cases decided
  split at decided
  next accepted =>
    rw [Bool.and_eq_true, beq_iff_eq] at accepted
    obtain ⟨image, held, same⟩ := (Option.any_eq_true _ _).mp accepted.2
    rw [Bool.and_eq_true, beq_iff_eq, beq_iff_eq] at same
    exact ⟨settled, tried, accepted.1, image, held, same⟩
  split at decided
  next =>
    cases decided
  next =>
    cases decided

theorem observe_snd :
    (observer.observe status manifest).2 =
      { observer with
        observedRestart := observer.observedRestart ||
          showsRestart observer.before manifest status } := rfl

theorem rolledTarget_of_observe (decided : (observer.observe status manifest).1 = .rolledBack) :
    RolledTarget manifest observer.before
      (observer.observedRestart = true ∨
        showsRestart observer.before manifest status = true) status := by
  obtain ⟨settled, tried⟩ := settled_of_observe (by
    rw [decided]
    decide)
  rw [observe_of_settled settled tried] at decided
  split at decided
  next =>
    cases decided
  split at decided
  next =>
    cases decided
  split at decided
  next recorded =>
    obtain ⟨update, held, whole⟩ := (Option.any_eq_true _ _).mp recorded
    rw [observe_snd, Bool.and_eq_true, Bool.and_eq_true, beq_iff_eq,
      Bool.not_eq_true', Bool.or_eq_true, Bool.or_eq_true,
      bne_iff_ne] at whole
    obtain ⟨⟨same, stopped⟩, restarted | fresh⟩ := whole
    · exact ⟨settled, tried, update, held, same, stopped, .inr restarted⟩
    · exact ⟨settled, tried, update, held, same, stopped, .inl fresh⟩
  next =>
    cases decided

/-- The observer after it was shown statuses. -/
def after (manifest : OtaManifest) (observer : Observer)
    (statuses : List ManageStatus) : Observer :=
  statuses.foldl (fun observer status => (observer.observe status manifest).2)
    observer

theorem after_eq (statuses : List ManageStatus) :
    observer.after manifest statuses =
      { observer with
        observedRestart := observer.observedRestart ||
          statuses.any (showsRestart observer.before manifest) } := by
  induction statuses generalizing observer with
  | nil => simp [after]
  | cons status rest ih =>
      have later := @ih (observer.observe status manifest).2
      rw [observe_snd] at later
      rw [after, List.foldl_cons, ← after, observe_snd, later, List.any_cons, Bool.or_assoc]

theorem verdicts_append (front back : List ManageStatus) :
    verdicts manifest observer (front ++ back) =
      verdicts manifest observer front ++
        verdicts manifest (observer.after manifest front) back := by
  induction front generalizing observer with
  | nil => rfl
  | cons status rest ih =>
      rw [List.cons_append, verdicts, verdicts, ih]
      rfl

theorem length_verdicts (statuses : List ManageStatus) :
    (verdicts manifest observer statuses).length = statuses.length := by
  induction statuses generalizing observer with
  | nil => rfl
  | cons status rest ih => rw [verdicts, List.length_cons, List.length_cons, ih]

/-- Each verdict is the one on its status, by an observer that was shown the
statuses before it. -/
theorem status_of_verdict {statuses : List ManageStatus} {index : Nat} {verdict : Verdict}
    (found : (verdicts manifest observer statuses)[index]? = some verdict) :
    ∃ status, statuses[index]? = some status ∧
      ((observer.after manifest (statuses.take index)).observe status
        manifest).1 = verdict := by
  have inside : index < statuses.length := by
    have bound := (List.getElem?_eq_some_iff.mp found).1
    rw [length_verdicts] at bound
    exact bound
  have split := List.take_append_drop index statuses
  have next : statuses.drop index =
      statuses[index] :: statuses.drop (index + 1) :=
    List.drop_eq_getElem_cons inside
  refine ⟨statuses[index], List.getElem?_eq_getElem inside, ?_⟩
  have taken : (verdicts manifest observer
      (statuses.take index)).length = index := by
    rw [length_verdicts, List.length_take_of_le (Nat.le_of_lt inside)]
  rw [← split, verdicts_append, List.getElem?_append_right
    (Nat.le_of_eq taken), taken, Nat.sub_self, next, verdicts] at found
  exact Option.some.inj found

end Observer

/-! ## The end of the verification -/

/-- The observer has reported to wait on for all but the last of the statuses
polled, and the verdict on that one ends the verification. -/
structure EndsWith (manifest : OtaManifest) (observer : Observer)
    (statuses : List ManageStatus) (verdict : Verdict) (outcome : Outcome) : Prop where
  split : ∃ front status back, statuses = front ++ status :: back ∧
    observer.verdicts manifest (front ++ [status]) =
      List.replicate front.length .pending ++ [verdict] ∧
    verdictOutcome manifest status verdict = some outcome

/-- The ends that no verdict brings about. -/
def Outcome.isOpen (outcome : Outcome) : Prop :=
  outcome = .cancelled ∨ outcome = .suspended ∨ outcome = .unconfirmed

theorem isOpen_of_stopped {control : Control} {outcome : Outcome}
    (stopped : control.stopped = some outcome) : outcome.isOpen := by
  cases control with
  | run => cases stopped
  | cancel =>
      cases stopped
      exact .inl rfl
  | suspend =>
      cases stopped
      exact .inr (.inl rfl)

theorem verdictOutcome_eq_none_iff {manifest : OtaManifest}
    {status : ManageStatus} {verdict : Verdict} :
    verdictOutcome manifest status verdict = none ↔
      verdict = .pending := by
  cases verdict with
  | pending => simp [verdictOutcome]
  | confirmed => simp [verdictOutcome]
  | rolledBack => simp [verdictOutcome]
  | superseded => simp [verdictOutcome]

/-- A pending verdict on one more status delays the end. -/
private theorem EndsWith.later {manifest : OtaManifest}
    {observer : Observer} {status : ManageStatus}
    {statuses : List ManageStatus} {verdict : Verdict} {outcome : Outcome}
    (waits : (observer.observe status manifest).1 = .pending)
    (ends : EndsWith manifest (observer.observe status manifest).2 statuses verdict outcome) :
    EndsWith manifest observer (status :: statuses) verdict outcome := by
  obtain ⟨front, last, back, rfl, reported, decided⟩ := ends.split
  refine ⟨status :: front, last, back, rfl, ?_, decided⟩
  rw [List.cons_append, Observer.verdicts, waits, reported,
    List.length_cons, List.replicate_succ, List.cons_append]

theorem verifyFrom_cases (manifest : OtaManifest) (observer : Observer) (visits : List Visit) :
    (verifyFrom manifest observer visits).isOpen ∨
      ∃ verdict, EndsWith manifest observer
        (visits.filterMap Visit.status?) verdict
          (verifyFrom manifest observer visits) := by
  induction visits generalizing observer with
  | nil => exact .inl (.inr (.inr rfl))
  | cons visit rest ih =>
      obtain ⟨poll, control⟩ := visit
      cases poll with
      | suspended => exact .inl (.inr (.inl rfl))
      | failed =>
          cases stopped : control.stopped with
          | some outcome =>
              left
              rw [verifyFrom]
              dsimp only
              rw [stopped]
              exact isOpen_of_stopped stopped
          | none =>
              have same : verifyFrom manifest observer
                  (⟨.failed, control⟩ :: rest) =
                    verifyFrom manifest observer rest := by
                rw [verifyFrom]
                dsimp only
                rw [stopped, Option.getD_none]
              rw [same]
              exact ih observer
      | status status =>
          have statuses : (⟨.status status, control⟩ ::
              rest).filterMap Visit.status? = status :: rest.filterMap Visit.status? := rfl
          rw [statuses, verifyFrom]
          dsimp only
          cases decided : verdictOutcome manifest status
              (observer.observe status manifest).1 with
          | some outcome =>
              right
              exact ⟨_, [], status, _, rfl, rfl, decided⟩
          | none =>
              have waits := verdictOutcome_eq_none_iff.mp decided
              cases stopped : control.stopped with
              | some outcome => exact .inl (isOpen_of_stopped stopped)
              | none =>
                  dsimp only
                  rw [Option.getD_none]
                  rcases ih
                      (observer.observe status manifest).2 with
                    unended | ⟨verdict, ends⟩
                  · exact .inl unended
                  · exact .inr ⟨verdict, ends.later waits⟩

/-- The visit neither stops the verification nor ends it by itself. -/
def Visit.goesOn (visit : Visit) : Prop :=
  visit.control = .run ∧ visit.poll ≠ .suspended

/-- While nothing stops the verification, the first verdict that is not to
wait on ends it. -/
theorem verifyFrom_decided {manifest : OtaManifest} {observer : Observer}
    {front : List Visit} {visit : Visit} {status : ManageStatus}
    {outcome : Outcome} (polled : visit.poll = .status status)
    (goesOn : ∀ earlier ∈ front, earlier.goesOn) (waits : ∀ verdict ∈ observer.verdicts manifest
      (front.filterMap Visit.status?), verdict = .pending)
    (decides : verdictOutcome manifest status ((observer.after manifest
      (front.filterMap Visit.status?)).observe status manifest).1 =
        some outcome) (back : List Visit) :
    verifyFrom manifest observer (front ++ visit :: back) = outcome := by
  induction front generalizing observer with
  | nil =>
      have first : verdictOutcome manifest status
          (observer.observe status manifest).1 = some outcome := decides
      rw [List.nil_append, verifyFrom, polled]
      dsimp only
      rw [first]
  | cons earlier front ih =>
      obtain ⟨poll, control⟩ := earlier
      have here : Visit.goesOn ⟨poll, control⟩ :=
        goesOn _ List.mem_cons_self
      have later : ∀ earlier ∈ front, earlier.goesOn :=
        fun earlier member => goesOn earlier (List.mem_cons_of_mem _ member)
      have runs : control.stopped = none := by
        rw [show control = .run from here.1]
        rfl
      rw [List.cons_append, verifyFrom]
      cases poll with
      | suspended => exact absurd rfl here.2
      | failed =>
          dsimp only
          rw [runs, Option.getD_none]
          exact ih later waits decides
      | status shown =>
          have pending := waits _ List.mem_cons_self
          dsimp only
          rw [verdictOutcome_eq_none_iff.mpr pending, runs]
          exact ih later
            (fun verdict member => waits verdict
              (List.mem_cons_of_mem _ member)) decides

/-- Once the verification has ended, nothing that the node reports later
changes how. -/
theorem verifyFrom_append (manifest : OtaManifest) (observer : Observer)
    (visits more : List Visit) (ended : verifyFrom manifest observer visits ≠ .unconfirmed) :
    verifyFrom manifest observer (visits ++ more) =
      verifyFrom manifest observer visits := by
  induction visits generalizing observer with
  | nil => exact absurd rfl ended
  | cons visit rest ih =>
      obtain ⟨poll, control⟩ := visit
      cases poll with
      | suspended => rfl
      | failed =>
          rw [List.cons_append, verifyFrom, verifyFrom] at *
          dsimp only at *
          cases stopped : control.stopped with
          | some outcome => rfl
          | none =>
              rw [stopped, Option.getD_none] at ended
              exact ih observer ended
      | status status =>
          rw [List.cons_append, verifyFrom, verifyFrom] at *
          dsimp only at *
          cases decided : verdictOutcome manifest status
              (observer.observe status manifest).1 with
          | some outcome => rfl
          | none =>
              rw [decided] at ended
              dsimp only at *
              cases stopped : control.stopped with
              | some outcome => rfl
              | none =>
                  rw [stopped, Option.getD_none] at ended
                  exact ih _ ended

/-- Over any statuses that an observer is shown: the update is confirmed only
on a status that runs the target, and rolled back only on one that records it
with a record other than the one from before, unless a restart was seen by
then.  The verification ends with the first verdict that is not to wait on
unless it was stopped before, and no later status changes its end. -/
theorem verdict_sound (manifest : OtaManifest) (before : ManageStatus) :
    (∀ (statuses : List ManageStatus) (index : Nat),
      ((Observer.new before).verdicts manifest statuses)[index]? =
          some Verdict.confirmed →
        ∃ status, statuses[index]? = some status ∧ RunsTarget manifest status) ∧
    (∀ (statuses : List ManageStatus) (index : Nat),
      ((Observer.new before).verdicts manifest statuses)[index]? =
          some Verdict.rolledBack →
        ∃ status, statuses[index]? = some status ∧
          RolledTarget manifest before
            (∃ seen ∈ statuses.take (index + 1),
              showsRestart before manifest seen = true) status) ∧
    (∀ control visits,
      (verify manifest before control visits).isOpen ∨
        ∃ verdict, EndsWith manifest (Observer.new before)
          (visits.filterMap Visit.status?) verdict (verify manifest before control visits)) ∧
    (∀ front visit status outcome back, visit.poll = .status status →
      (∀ earlier ∈ front, earlier.goesOn) →
      (∀ verdict ∈ (Observer.new before).verdicts manifest
        (front.filterMap Visit.status?), verdict = .pending) →
      verdictOutcome manifest status (((Observer.new before).after manifest
        (front.filterMap Visit.status?)).observe status manifest).1 = some outcome →
        verify manifest before .run (front ++ visit :: back) = outcome) ∧
    ∀ control visits more,
      verify manifest before control visits ≠ .unconfirmed →
        verify manifest before control (visits ++ more) =
          verify manifest before control visits := by
  refine ⟨?_, ?_, ?_, ?_, ?_⟩
  · intro statuses index found
    obtain ⟨status, shown, decided⟩ := Observer.status_of_verdict found
    exact ⟨status, shown, Observer.runsTarget_of_observe decided⟩
  · intro statuses index found
    obtain ⟨status, shown, decided⟩ := Observer.status_of_verdict found
    have rolled := Observer.rolledTarget_of_observe decided
    have taken : statuses.take (index + 1) =
        statuses.take index ++ [status] := by
      rw [List.take_add_one, shown]
      rfl
    obtain ⟨update, held, same, stopped, evidence⟩ := rolled.record
    rw [Observer.after_eq] at evidence
    refine ⟨status, shown, rolled.settled, rolled.tried, update, held, same, stopped, ?_⟩
    rcases evidence with fresh | earlier | now
    · exact .inl fresh
    · right
      obtain ⟨seen, among, restarted⟩ := List.any_eq_true.mp earlier
      refine ⟨seen, ?_, restarted⟩
      rw [taken]
      exact List.mem_append_left _ among
    · right
      refine ⟨status, ?_, now⟩
      rw [taken]
      exact List.mem_append_right _ (.head _)
  · intro control visits
    cases stopped : control.stopped with
    | some outcome =>
        rw [verify, stopped]
        exact .inl (isOpen_of_stopped stopped)
    | none =>
        rw [verify, stopped, Option.getD_none]
        exact verifyFrom_cases manifest (Observer.new before) visits
  · intro front visit status outcome back polled goesOn waits decides
    rw [verify]
    exact verifyFrom_decided polled goesOn waits decides back
  · intro control visits more ended
    cases stopped : control.stopped with
    | some outcome =>
        rw [verify, verify, stopped]
        rfl
    | none =>
        rw [verify, stopped, Option.getD_none] at ended
        rw [verify, verify, stopped, Option.getD_none, Option.getD_none]
        exact verifyFrom_append manifest _ visits more ended

/-- An observer that is shown more statuses after a verdict may report
another one, and a record that counts as a rollback may have a lower sequence
than the one from before the update. -/
theorem verdict_changes :
    let manifest : OtaManifest :=
      { target := ⟨0, 0, 0⟩
        sequence := 5
        imageLen := 0
        firmwareVersion := ⟨0, 0, 0⟩
        imageSha256 := Bytes.replicate 32 0
        signature := Bytes.replicate 64 0 }
    let record : UInt32 → LastUpdateStatus := fun sequence =>
      { sequence
        source := .link
        owner := Bytes.replicate 16 0
        running := false }
    (Observer.new {}).verdicts manifest
        [{ otaAcceptedSequence := 5
           image := some ⟨0, Bytes.replicate 32 0⟩ },
          { otaPendingSequence := some 5 }] =
        [.confirmed, .pending] ∧
      (Observer.new { lastUpdate := some (record 9) }).verdicts manifest
          [{ lastUpdate := some (record 5) }] =
        [.rolledBack] := by
  decide +kernel

end Ratspeak
