import Ratspeak.Client.HistoryLedger

/-!
# Counts and barriers of a writer

The counts of the status are those of the log of marks, a barrier is answered
after all that was accepted before it, and the worker goes only after it was
told to.
-/

namespace Ratspeak

open Library

namespace HistoryLedger

open HistoryLog

variable {ledger after : HistoryLedger} {log marks : HistoryLog}

/-! ## The counts are those of the log -/

/-- A mark that is not among the last ones splits the log before them. -/
theorem split_of_not_mem {mark : HistoryMark}
    {earlier later : HistoryLog} (absent : mark ∉ marks)
    (split : log ++ marks = earlier ++ mark :: later) :
    ∃ middle, log = earlier ++ mark :: middle ∧ later = middle ++ marks := by
  rcases List.append_eq_append_iff.mp split with
    ⟨more, isEarlier, isMarks⟩ | ⟨more, isLog, rest⟩
  · exact (absent (isMarks ▸ List.mem_append_right more List.mem_cons_self)).elim
  · cases more with
    | nil =>
        have isMarks : marks = mark :: later := by
          simpa using rest.symm
        exact (absent (isMarks ▸ List.mem_cons_self)).elim
    | cons first middle =>
        obtain ⟨isMark, isLater⟩ := List.cons.inj rest
        exact ⟨middle, isMark ▸ isLog, isLater⟩

/-- How many were dropped is counted up to the end of the last call. -/
structure CountedTo (ledger : HistoryLedger) (log : HistoryLog)
    (counted now : Nat) : Prop where
  all : counted + now = log.dropped.length
  dropped : ledger.dropped = min counted (2 ^ 64 - 1)
  refused : ledger.refused = min now (2 ^ 64 - 1)
  free : ledger.busy = false → now = 0
  earlier : ∀ earlier later : HistoryLog,
    log = earlier ++ .counted :: later →
    earlier.dropped.length ≤ counted

structure Counted (ledger : HistoryLedger) (log : HistoryLog) : Prop where
  pending : (accepted log).length = (recorded log).length + ledger.pending + ledger.entering
  small : ledger.pending + ledger.entering ≤ 512
  free : ledger.busy = false → ledger.entering = 0
  countedTo : ∃ counted now, ledger.CountedTo log counted now

/-- What can be pending is bounded. -/
def Sized (ledger : HistoryLedger) : Prop :=
  (appends ledger.ahead).length + ledger.unrecorded.length ≤ 512

theorem u64SaturatingAdd_min (first second : Nat) :
    u64SaturatingAdd (min first (2 ^ 64 - 1)) (min second (2 ^ 64 - 1)) =
      min (first + second) (2 ^ 64 - 1) := by
  rw [u64SaturatingAdd]
  omega

theorem u64SaturatingAdd_one (count : Nat) :
    u64SaturatingAdd (min count (2 ^ 64 - 1)) 1 =
      min (count + 1) (2 ^ 64 - 1) := by
  rw [u64SaturatingAdd]
  omega

theorem CountedTo.extend {counted now : Nat} (countedTo : ledger.CountedTo log counted now)
    (none : marks.dropped = []) (absent : .counted ∉ marks)
    (dropped : after.dropped = ledger.dropped) (refused : after.refused = ledger.refused)
    (free : after.busy = false → now = 0) :
    after.CountedTo (log ++ marks) counted now where
  all := by
    rw [dropped_append, none, List.append_nil]
    exact countedTo.all
  dropped := dropped.trans countedTo.dropped
  refused := refused.trans countedTo.refused
  free := free
  earlier earlier later split := by
    obtain ⟨middle, before, -⟩ := split_of_not_mem absent split
    exact countedTo.earlier earlier middle before

theorem Counted.silent (counted : ledger.Counted log)
    (silent : Silent marks) (absent : .counted ∉ marks)
    (pending : after.pending = ledger.pending) (entering : after.entering = ledger.entering)
    (dropped : after.dropped = ledger.dropped) (refused : after.refused = ledger.refused)
    (busy : after.busy = ledger.busy) : after.Counted (log ++ marks) where
  pending := by
    rw [accepted_append, recorded_append, silent.accepted, silent.recorded,
      List.append_nil, List.append_nil, pending, entering]
    exact counted.pending
  small := by
    rw [pending, entering]
    exact counted.small
  free free := entering.trans (counted.free (busy ▸ free))
  countedTo := by
    obtain ⟨before, now, countedTo⟩ := counted.countedTo
    exact ⟨before, now, countedTo.extend silent.dropped absent dropped
      refused fun free => countedTo.free (busy ▸ free)⟩

theorem Counted.offers (counted : ledger.Counted log)
    (events : List NewChannelHistoryEvent) (free : ledger.busy = false) :
    Counted
      { ledger with
        busy := true, remaining := events, entering := 0, refused := 0 }
      (log ++ [.offered events]) where
  pending := by
    have before := counted.pending
    rw [counted.free free] at before
    simpa using before
  small := (Nat.le_add_right _ _).trans counted.small
  free busy := nomatch busy
  countedTo := by
    obtain ⟨before, now, countedTo⟩ := counted.countedTo
    have isNone : now = 0 :=
      countedTo.free free
    have refused : ledger.refused = 0 := by
      rw [countedTo.refused, isNone]
      rfl
    exact ⟨before, now, countedTo.extend rfl (by simp) rfl refused.symm
      fun busy => nomatch busy⟩

theorem Counted.drops (counted : ledger.Counted log) {event : NewChannelHistoryEvent}
    (rest : List NewChannelHistoryEvent) (busy : ledger.busy = true) :
    Counted
      { ledger with
        remaining := rest, refused := u64SaturatingAdd ledger.refused 1 }
      (log ++ [.dropped event]) where
  pending := by
    simpa using counted.pending
  small := counted.small
  free := counted.free
  countedTo := by
    obtain ⟨before, now, countedTo⟩ := counted.countedTo
    refine ⟨before, now + 1, ?_, countedTo.dropped, ?_, ?_, ?_⟩
    · simp [← countedTo.all, Nat.add_assoc]
    · dsimp only
      rw [countedTo.refused, u64SaturatingAdd_one]
    · intro free
      rw [busy] at free
      cases free
    · intro earlier later split
      obtain ⟨middle, isLog, -⟩ := split_of_not_mem (by simp) split
      exact countedTo.earlier earlier middle isLog

/-- One more is pending, and the counter is far from its end. -/
theorem Counted.accepts (counted : ledger.Counted log)
    (conserved : ledger.Conserved log) (event : NewChannelHistoryEvent)
    (rest : List NewChannelHistoryEvent) (running : ledger.stopped = false)
    (busy : ledger.busy = true)
    (room : (appends ledger.ahead).length + ledger.unrecorded.length < 512) :
    Counted
      { ledger with
        ahead := ledger.ahead ++ [.append event]
        remaining := rest
        entering := u64SaturatingAdd ledger.entering 1 }
      (log ++ [.accepted event]) := by
  have owed : ledger.pending + ledger.entering =
      (appends ledger.ahead).length + ledger.unrecorded.length := by
    have total := congrArg List.length (conserved.order running)
    have split := congrArg List.length conserved.recorded
    rw [List.length_append] at total split
    have pending := counted.pending
    omega
  have exact : u64SaturatingAdd ledger.entering 1 = ledger.entering + 1 := by
    rw [u64SaturatingAdd]
    omega
  constructor
  · have pending := counted.pending
    dsimp only
    rw [exact, accepted_append, recorded_append, List.length_append,
      List.length_append, pending]
    rfl
  · dsimp only
    omega
  · intro free
    dsimp only at free
    rw [busy] at free
    cases free
  · obtain ⟨before, now, countedTo⟩ := counted.countedTo
    exact ⟨before, now, countedTo.extend rfl (by simp) rfl rfl
      countedTo.free⟩

theorem Counted.counts (counted : ledger.Counted log) :
    Counted
      { ledger with
        busy := false
        entering := 0
        refused := 0
        pending := u64SaturatingAdd ledger.pending ledger.entering
        dropped :=
          if ledger.refused = 0 then ledger.dropped
          else u64SaturatingAdd ledger.dropped ledger.refused }
      (log ++ [.counted]) := by
  have small := counted.small
  have exact : u64SaturatingAdd ledger.pending ledger.entering =
      ledger.pending + ledger.entering := by
    rw [u64SaturatingAdd]
    omega
  constructor
  · have pending := counted.pending
    dsimp only
    rw [exact]
    simp [pending, Nat.add_assoc]
  · dsimp only
    omega
  · intro _
    rfl
  · obtain ⟨before, now, countedTo⟩ := counted.countedTo
    refine ⟨before + now, 0, ?_, ?_, rfl, fun _ => rfl, ?_⟩
    · simp [countedTo.all]
    · dsimp only
      rw [countedTo.dropped, countedTo.refused, u64SaturatingAdd_min]
      split
      · omega
      · rfl
    · intro earlier later split
      -- No split speaks of more than the whole log.
      have within : earlier.dropped.length ≤ log.dropped.length := by
        have lengths := congrArg (fun log : HistoryLog => log.dropped.length) split
        simp at lengths
        omega
      rwa [← countedTo.all] at within

theorem Counted.records (counted : ledger.Counted log)
    (conserved : ledger.Conserved log) (free : ledger.busy = false) :
    Counted
      { ledger with
        unrecorded := []
        pending := ledger.pending - ledger.unrecorded.length }
      (log ++ [.recorded ledger.unrecorded]) := by
  have isNone := counted.free free
  have pending := counted.pending
  have small := counted.small
  have covered : ledger.unrecorded.length ≤ ledger.pending := by
    have within := conserved.kept.length_le
    rw [conserved.recorded, List.length_append] at within
    omega
  constructor
  · simp
    omega
  · dsimp only
    omega
  · exact counted.free
  · obtain ⟨before, now, countedTo⟩ := counted.countedTo
    exact ⟨before, now, countedTo.extend rfl (by simp) rfl rfl
      countedTo.free⟩

theorem absent_landed {batch : List NewChannelHistoryEvent}
    {landed : HistoryLog} {mark : HistoryMark}
    (onlyLands : landed = [] ∨ landed = [.landed batch])
    (other : ∀ batch, mark ≠ .landed batch) : mark ∉ landed := by
  intro member
  rcases onlyLands with none | once
  · rw [none] at member
    cases member
  · rw [once] at member
    exact other batch (List.mem_singleton.mp member)

theorem Counted.flow (counted : ledger.Counted log) (conserved : ledger.Conserved log)
    (flow : HistoryFlow ledger after marks) (sized : after.Sized) :
    after.Counted (log ++ marks) := by
  have busy : ledger.remaining ≠ [] → ledger.busy = true := by
    intro more
    by_contra free
    exact more (conserved.idle (Bool.eq_false_of_not_eq_true free))
  cases flow with
  | rests => exact counted.silent silent_nil List.not_mem_nil rfl rfl rfl rfl rfl
  | lands batch =>
      exact counted.silent (silent_landed (Or.inr rfl)) (by simp) rfl rfl
        rfl rfl rfl
  | offers events free => exact counted.offers events free
  | drops event rest next => exact counted.drops rest (busy (by simp [next]))
  | accepts event rest next running =>
      apply counted.accepts conserved event rest running (busy (by simp [next]))
      simp only [Sized, appends_append, appends_cons, appends_nil, List.length_append] at sized
      simp only [List.length_cons, List.length_nil] at sized
      omega
  | counts done => exact counted.counts
  | joins observation running =>
      exact counted.silent silent_nil List.not_mem_nil rfl rfl rfl rfl rfl
  | asks =>
      exact counted.silent ⟨rfl, rfl, rfl, rfl, rfl, rfl⟩ (by simp) rfl rfl
        rfl rfl rfl
  | closes => exact counted.silent silent_nil List.not_mem_nil rfl rfl rfl rfl rfl
  | closesLate => exact counted.silent silent_nil List.not_mem_nil rfl rfl rfl rfl rfl
  | enters command others waited fewer running =>
      exact counted.silent silent_nil List.not_mem_nil rfl rfl rfl rfl rfl
  | leaves others fewer =>
      exact counted.silent silent_nil List.not_mem_nil rfl rfl rfl rfl rfl
  | acknowledges batch rest landed running first settled onlyLands =>
      have silent := silent_landed onlyLands
      have absent : .counted ∉ landed ++ [.acknowledged batch] := by
        have before : .counted ∉ landed :=
          absent_landed onlyLands fun _ => HistoryMark.noConfusion
        simp [before]
      obtain ⟨before, now, countedTo⟩ := counted.countedTo
      refine ⟨?_, counted.small, counted.free, before, now,
        countedTo.extend ?_ absent rfl rfl countedTo.free⟩
      · simpa [silent.accepted, silent.recorded] using counted.pending
      · simp [silent.dropped]
  | remembers batch rest first =>
      exact counted.silent silent_nil List.not_mem_nil rfl rfl rfl rfl rfl
  | records free => exact counted.records conserved free
  | answers resultTx rest first =>
      exact counted.silent ⟨rfl, rfl, rfl, rfl, rfl, rfl⟩ (by simp) rfl rfl
        rfl rfl rfl
  | stops allowed =>
      exact counted.silent silent_nil List.not_mem_nil rfl rfl rfl rfl rfl

/-! ## Barriers wait for what was accepted before -/

/-- The number of a barrier is never given again, and before a barrier in the
line stands all that was accepted before it was asked for. -/
structure Cleared (ledger : HistoryLedger) (log : HistoryLog) : Prop where
  ahead : ∀ resultTx, .barrier resultTx ∈ ledger.ahead → resultTx < ledger.oneshots
  waiting : ∀ resultTx, .barrier resultTx ∈ ledger.waiting → resultTx < ledger.oneshots
  answered : ∀ (earlier later : HistoryLog) (resultTx : Nat),
    log = earlier ++ .asked resultTx :: later → .answered resultTx ∈ later →
      earlier.accepted.length ≤ log.acknowledged.length
  inLine : ∀ (earlier later : HistoryLog) (resultTx : Nat),
    log = earlier ++ .asked resultTx :: later → ∀ front back,
      ledger.ahead = front ++ .barrier resultTx :: back →
        earlier.accepted.length ≤ log.acknowledged.length + (appends front).length

/-- A line in which every barrier stood before, and before it as much as
now. -/
def Advances (ledger after : HistoryLedger) (log marks : HistoryLog) :
    Prop :=
  ∀ resultTx front back,
    after.ahead = front ++ .barrier resultTx :: back →
      ∃ before behind,
        ledger.ahead = before ++ .barrier resultTx :: behind ∧
          log.acknowledged.length + (appends before).length ≤
            (log ++ marks).acknowledged.length + (appends front).length

theorem advances_same (same : after.ahead = ledger.ahead) :
    Advances ledger after log marks := by
  intro resultTx front back split
  refine ⟨front, back, same ▸ split, ?_⟩
  rw [acknowledged_append, List.length_append]
  omega

/-- A command in a line with a last one is the last, or stands before it. -/
theorem split_concat {line front back : List ChannelHistoryCommand}
    {last command : ChannelHistoryCommand} (split : line ++ [last] = front ++ command :: back) :
    (front = line ∧ last = command) ∨
      ∃ behind, line = front ++ command :: behind := by
  rcases List.eq_nil_or_concat back with isNil | ⟨behind, other, isBack⟩
  · rw [isNil] at split
    obtain ⟨same, isLast⟩ := List.append_inj' split rfl
    exact Or.inl ⟨same.symm, List.singleton_inj.mp isLast⟩
  · rw [isBack, List.concat_eq_append, ← List.cons_append,
      ← List.append_assoc] at split
    exact Or.inr ⟨behind, (List.append_inj' split rfl).1⟩

/-- What enters at the end and is no barrier moves nobody. -/
theorem advances_concat {command : ChannelHistoryCommand}
    (noBarrier : ∀ resultTx, command ≠ .barrier resultTx)
    (entered : after.ahead = ledger.ahead ++ [command]) :
    Advances ledger after log marks := by
  intro resultTx front back split
  rw [entered] at split
  rcases split_concat split with ⟨-, isLast⟩ | ⟨behind, stood⟩
  · exact (noBarrier resultTx isLast).elim
  · refine ⟨front, behind, stood, ?_⟩
    rw [acknowledged_append, List.length_append]
    omega

/-- What leaves at the front was acknowledged if it was an event. -/
theorem advances_drop {gone : List ChannelHistoryCommand}
    (first : ledger.ahead = gone ++ after.ahead)
    (acknowledged : (appends gone).length ≤ marks.acknowledged.length) :
    Advances ledger after log marks := by
  intro resultTx front back split
  refine ⟨gone ++ front, back, ?_, ?_⟩
  · rw [first, split, List.append_assoc]
  · rw [appends_append, acknowledged_append, List.length_append,
      List.length_append]
    omega

theorem Cleared.advance (cleared : ledger.Cleared log)
    (advances : Advances ledger after log marks) (asked : ∀ resultTx, .asked resultTx ∉ marks)
    (answered : ∀ resultTx, .answered resultTx ∉ marks)
    (waiting : ∀ resultTx, .barrier resultTx ∈ after.waiting → resultTx < ledger.oneshots)
    (oneshots : ledger.oneshots ≤ after.oneshots) :
    after.Cleared (log ++ marks) where
  ahead resultTx member := by
    obtain ⟨front, back, split⟩ := List.append_of_mem member
    obtain ⟨before, behind, was, -⟩ := advances resultTx front back split
    have stood : .barrier resultTx ∈ ledger.ahead := by
      rw [was]
      exact List.mem_append_right before List.mem_cons_self
    exact (cleared.ahead resultTx stood).trans_le oneshots
  waiting resultTx member := (waiting resultTx member).trans_le oneshots
  answered earlier later resultTx split isAnswered := by
    obtain ⟨middle, isLog, isLater⟩ :=
      split_of_not_mem (asked resultTx) split
    rw [isLater] at isAnswered
    have before := (List.mem_append.mp isAnswered).resolve_right (answered resultTx)
    have kept := cleared.answered earlier middle resultTx isLog before
    rw [acknowledged_append, List.length_append]
    omega
  inLine earlier later resultTx split front back isAhead := by
    obtain ⟨middle, isLog, -⟩ := split_of_not_mem (asked resultTx) split
    obtain ⟨before, behind, was, more⟩ :=
      advances resultTx front back isAhead
    exact (cleared.inLine earlier middle resultTx isLog before behind was).trans more

/-- A barrier that enters the line has everything that was accepted before
it. -/
theorem Cleared.enters (cleared : ledger.Cleared log)
    (conserved : ledger.Conserved log) (running : ledger.stopped = false)
    {command : ChannelHistoryCommand} {others : List ChannelHistoryCommand}
    (waited : command ∈ ledger.waiting) (fewer : others.Sublist ledger.waiting) :
    Cleared
      { ledger with
        ahead := ledger.ahead ++ [command], waiting := others }
      log where
  ahead resultTx member := by
    rcases List.mem_append.mp member with stood | entered
    · exact cleared.ahead resultTx stood
    · rw [← List.mem_singleton.mp entered] at waited
      exact cleared.waiting resultTx waited
  waiting resultTx member := cleared.waiting resultTx (fewer.subset member)
  answered := cleared.answered
  inLine earlier later resultTx split front back isAhead := by
    rcases split_concat isAhead with ⟨isFront, -⟩ | ⟨behind, stood⟩
    · have whole := congrArg List.length (conserved.order running)
      rw [split, accepted_append, List.length_append, List.length_append] at whole
      rw [isFront, split]
      omega
    · exact cleared.inLine earlier later resultTx split front behind stood

/-- The number of a new barrier is in nobody's hands. -/
theorem Cleared.asks (cleared : ledger.Cleared log) :
    Cleared
      { ledger with
        waiting := ledger.waiting ++ [.barrier ledger.oneshots]
        oneshots := ledger.oneshots + 1 }
      (log ++ [.asked ledger.oneshots]) where
  ahead resultTx member := (cleared.ahead resultTx member).trans_le (Nat.le_succ _)
  waiting resultTx member := by
    rcases List.mem_append.mp member with waited | isNew
    · exact (cleared.waiting resultTx waited).trans_le (Nat.le_succ _)
    · have same := List.mem_singleton.mp isNew
      injection same with same
      rw [same]
      exact Nat.lt_succ_self _
  answered earlier later resultTx split isAnswered := by
    rcases List.eq_nil_or_concat later with none | ⟨middle, last, isLater⟩
    · rw [none] at isAnswered
      cases isAnswered
    · rw [isLater, List.concat_eq_append, ← List.cons_append,
        ← List.append_assoc] at split
      obtain ⟨isLog, isLast⟩ := List.append_inj' split rfl
      have before : .answered resultTx ∈ middle := by
        rw [isLater, List.concat_eq_append, ← List.singleton_inj.mp isLast] at isAnswered
        simpa using isAnswered
      simpa using cleared.answered earlier middle resultTx isLog before
  inLine earlier later resultTx split front back isAhead := by
    have stood : .barrier resultTx ∈ ledger.ahead := by
      rw [isAhead]
      exact List.mem_append_right front List.mem_cons_self
    have known := cleared.ahead resultTx stood
    rcases List.eq_nil_or_concat later with none | ⟨middle, last, isLater⟩
    · rw [none] at split
      have isAsked := List.singleton_inj.mp (List.append_inj' split rfl).2
      injection isAsked with isNew
      omega
    · rw [isLater, List.concat_eq_append, ← List.cons_append,
        ← List.append_assoc] at split
      have kept := cleared.inLine earlier middle resultTx
        (List.append_inj' split rfl).1 front back isAhead
      simpa using kept

/-- A barrier is answered at the front of the line. -/
theorem Cleared.answers (cleared : ledger.Cleared log) {number : Nat}
    {rest : List ChannelHistoryCommand} (first : ledger.ahead = .barrier number :: rest) :
    Cleared { ledger with ahead := rest }
      (log ++ [.answered number]) where
  ahead resultTx member := by
    apply cleared.ahead resultTx
    rw [first]
    exact List.mem_cons_of_mem _ member
  waiting := cleared.waiting
  answered earlier later resultTx split isAnswered := by
    obtain ⟨middle, isLog, isLater⟩ :=
      split_of_not_mem (by simp) split
    rw [isLater] at isAnswered
    rcases List.mem_append.mp isAnswered with before | now
    · simpa using cleared.answered earlier middle resultTx isLog before
    · have same := List.mem_singleton.mp now
      injection same with same
      have atFront := cleared.inLine earlier middle resultTx isLog [] rest
        (by rw [first, same, List.nil_append])
      simpa using atFront
  inLine earlier later resultTx split front back isAhead := by
    obtain ⟨middle, isLog, -⟩ := split_of_not_mem (by simp) split
    have kept := cleared.inLine earlier middle resultTx isLog
      (.barrier number :: front) back
      (first.trans (congrArg (.barrier number :: ·) isAhead))
    simpa using kept

theorem Cleared.flow (cleared : ledger.Cleared log) (conserved : ledger.Conserved log)
    (flow : HistoryFlow ledger after marks) :
    after.Cleared (log ++ marks) := by
  cases flow with
  | rests =>
      rw [List.append_nil]
      exact cleared
  | lands batch =>
      exact cleared.advance (advances_same rfl) (by simp) (by simp)
        cleared.waiting (Nat.le_refl _)
  | offers events free =>
      exact cleared.advance (advances_same rfl) (by simp) (by simp)
        cleared.waiting (Nat.le_refl _)
  | drops event rest next =>
      exact cleared.advance (advances_same rfl) (by simp) (by simp)
        cleared.waiting (Nat.le_refl _)
  | accepts event rest next running =>
      exact cleared.advance
        (advances_concat (fun _ => ChannelHistoryCommand.noConfusion) rfl)
        (by simp) (by simp) cleared.waiting (Nat.le_refl _)
  | counts done =>
      exact cleared.advance (advances_same rfl) (by simp) (by simp)
        cleared.waiting (Nat.le_refl _)
  | joins observation running =>
      exact cleared.advance
        (advances_concat (fun _ => ChannelHistoryCommand.noConfusion) rfl)
        (by simp) (by simp) cleared.waiting (Nat.le_refl _)
  | asks => exact cleared.asks
  | closes =>
      refine cleared.advance (advances_same rfl) (by simp) (by simp) ?_
        (Nat.le_succ _)
      intro resultTx member
      apply cleared.waiting resultTx
      simpa using member
  | closesLate =>
      exact cleared.advance (advances_same rfl) (by simp) (by simp)
        cleared.waiting (Nat.le_refl _)
  | enters command others waited fewer running =>
      rw [List.append_nil]
      exact cleared.enters conserved running waited fewer
  | leaves others fewer =>
      exact cleared.advance (advances_same rfl) (by simp) (by simp)
        (fun resultTx member =>
          cleared.waiting resultTx (fewer.subset member))
        (Nat.le_refl _)
  | acknowledges batch rest landed running first settled onlyLands =>
      refine cleared.advance (advances_drop first ?_) ?_ ?_ cleared.waiting (Nat.le_refl _)
      · simp
      · intro resultTx
        have before : .asked resultTx ∉ landed :=
          absent_landed onlyLands fun _ => HistoryMark.noConfusion
        simp [before]
      · intro resultTx
        have before : .answered resultTx ∉ landed :=
          absent_landed onlyLands fun _ => HistoryMark.noConfusion
        simp [before]
  | remembers batch rest first =>
      exact cleared.advance (advances_drop first (by simp)) (by simp)
        (by simp) cleared.waiting (Nat.le_refl _)
  | records free =>
      exact cleared.advance (advances_same rfl) (by simp) (by simp)
        cleared.waiting (Nat.le_refl _)
  | answers resultTx rest first => exact cleared.answers first
  | stops allowed =>
      refine cleared.advance ?_ (by simp) (by simp) cleared.waiting
        (Nat.le_refl _)
      intro resultTx front back split
      have impossible := congrArg List.length split
      simp at impossible

/-! ## Before the shutdown -/

/-- The worker goes only after it was told to. -/
structure Attended (ledger : HistoryLedger) : Prop where
  ahead : ∀ resultTx, .shutdown resultTx ∈ ledger.ahead → ledger.closing = true
  waiting : ∀ resultTx, .shutdown resultTx ∈ ledger.waiting → ledger.closing = true
  stopped : ledger.stopped = true → ledger.closing = true

theorem Attended.flow (attended : ledger.Attended)
    (flow : HistoryFlow ledger after marks) : after.Attended := by
  obtain ⟨ahead, waiting, stopped⟩ := attended
  cases flow with
  | accepts event rest next running =>
      refine ⟨fun resultTx member => ?_, waiting, stopped⟩
      apply ahead resultTx
      simpa using member
  | joins observation running =>
      refine ⟨fun resultTx member => ?_, waiting, stopped⟩
      apply ahead resultTx
      simpa using member
  | asks =>
      refine ⟨ahead, fun resultTx member => ?_, stopped⟩
      apply waiting resultTx
      simpa using member
  | closes => exact ⟨fun _ _ => rfl, fun _ _ => rfl, fun _ => rfl⟩
  | closesLate => exact ⟨fun _ _ => rfl, fun _ _ => rfl, fun _ => rfl⟩
  | enters command others waited fewer running =>
      refine ⟨fun resultTx member => ?_,
        fun resultTx member => waiting resultTx (fewer.subset member),
        stopped⟩
      rcases List.mem_append.mp member with stood | entered
      · exact ahead resultTx stood
      · rw [← List.mem_singleton.mp entered] at waited
        exact waiting resultTx waited
  | leaves others fewer =>
      exact ⟨ahead, fun resultTx member =>
        waiting resultTx (fewer.subset member), stopped⟩
  | acknowledges batch rest landed running first settled onlyLands =>
      refine ⟨fun resultTx member => ?_, waiting, stopped⟩
      apply ahead resultTx
      rw [first]
      exact List.mem_append_right _ member
  | remembers batch rest first =>
      refine ⟨fun resultTx member => ?_, waiting, stopped⟩
      apply ahead resultTx
      rw [first]
      exact List.mem_append_right _ member
  | answers number rest first =>
      refine ⟨fun resultTx member => ?_, waiting, stopped⟩
      apply ahead resultTx
      rw [first]
      exact List.mem_cons_of_mem _ member
  | stops allowed =>
      refine ⟨fun _ member => (List.not_mem_nil member).elim, waiting,
        fun _ => ?_⟩
      rcases allowed with told | ⟨resultTx, member⟩
      · exact told
      · exact ahead resultTx member
  | _ => exact ⟨ahead, waiting, stopped⟩

end HistoryLedger

end Ratspeak
