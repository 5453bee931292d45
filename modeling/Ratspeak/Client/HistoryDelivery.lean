import Ratspeak.Client.HistoryCounts
import Ratspeak.Client.HistoryFlows
import Ratspeak.Database.HistoryCeilings

/-!
# Nothing is lost silently on the way to the history

Over every run what was accepted is acknowledged exactly once and in order, or
still stands in the line, and what was not accepted is counted.  An append
that takes effect stores the events of its batch that are not stored yet.
-/

namespace Ratspeak

open Library

/-! ## What an append does to the history -/

/-- What no two rows share, of an event. -/
def eventKey (identityId : String) (event : NewChannelHistoryEvent) :
    ChannelRoom × String :=
  ((identityId, event.hubDestinationHash, event.roomName), event.eventId)

/-- The events whose keys are not among those that are stored, the first of
each key. -/
def unstored (identityId : String) :
    List (ChannelRoom × String) → List NewChannelHistoryEvent → List NewChannelHistoryEvent
  | _, [] => []
  | stored, event :: rest =>
      if eventKey identityId event ∈ stored then
        unstored identityId stored rest
      else
        event :: unstored identityId (stored ++ [eventKey identityId event]) rest

theorem rows_insertEvent_cases (identityId : String) (recordedAtMs : Int)
    (event : NewChannelHistoryEvent) (db : ChannelHistoryDb) :
    (eventKey identityId event ∈ db.rows.map ChannelHistoryRow.key ∧
      (db.insertEvent identityId recordedAtMs event).2.rows = db.rows) ∨
    (eventKey identityId event ∉ db.rows.map ChannelHistoryRow.key ∧
      ∃ row : ChannelHistoryRow, row.event = event ∧
        row.key = eventKey identityId event ∧
        (db.insertEvent identityId recordedAtMs event).2.rows =
          db.rows ++ [row]) := by
  by_cases isStored : eventKey identityId event ∈ db.rows.map ChannelHistoryRow.key
  · left
    refine ⟨isStored, ?_⟩
    obtain ⟨row, member, isKey⟩ := List.mem_map.mp isStored
    rw [ChannelHistoryDb.insertEvent, if_pos]
    exact List.any_eq_true.mpr ⟨row, member, decide_eq_true isKey⟩
  · right
    refine ⟨isStored,
      { sequence := db.sequencesDrawn + 1
        identityId := identityId
        event := event
        recordedAtMs := recordedAtMs }, rfl, rfl, ?_⟩
    rw [ChannelHistoryDb.insertEvent, if_neg]
    intro found
    obtain ⟨row, member, same⟩ := List.any_eq_true.mp found
    exact isStored (List.mem_map.mpr ⟨row, member, of_decide_eq_true same⟩)

/-- The rows that a batch adds are those of its events that are not stored,
in order. -/
theorem rows_insertedEvents_unstored (identityId : String)
    (events : List NewChannelHistoryEvent) (recordedAtMs : Int) (db : ChannelHistoryDb) :
    ∃ inserted : List ChannelHistoryRow,
      (insertedEvents identityId events recordedAtMs db).rows = db.rows ++ inserted ∧
      inserted.map ChannelHistoryRow.event =
        unstored identityId (db.rows.map ChannelHistoryRow.key) events := by
  induction events generalizing db with
  | nil => exact ⟨[], (List.append_nil _).symm, rfl⟩
  | cons event rest ih =>
      obtain ⟨others, isRows, isOthers⟩ := ih
        (ChannelHistoryDb.noteRoom identityId recordedAtMs event
          (ChannelHistoryDb.insertEvent identityId recordedAtMs event db).2)
      rw [ChannelHistoryDb.rows_noteRoom] at isRows isOthers
      rcases rows_insertEvent_cases identityId recordedAtMs event db with
        ⟨isStored, same⟩ | ⟨isNew, row, isEvent, isKey, added⟩
      · rw [same] at isRows isOthers
        refine ⟨others, isRows, ?_⟩
        rw [isOthers, unstored, if_pos isStored]
      · rw [added] at isRows isOthers
        refine ⟨row :: others, ?_, ?_⟩
        · rw [← List.append_cons] at isRows
          exact isRows
        · rw [unstored, if_neg isNew, List.map_cons, isOthers, isEvent,
            List.map_append, List.map_singleton, isKey]

/-- An append that took effect: exactly the events of the batch that are not
stored come after the rows, in their order, and then the ceilings are pruned
to. -/
structure LandsOnce (identityId : String)
    (batch : List NewChannelHistoryEvent) (nowMs : Int)
    (before after : ChannelHistoryDb) : Prop where
  inserts : ∃ inserted : List ChannelHistoryRow,
    inserted.map ChannelHistoryRow.event =
      unstored identityId (before.rows.map ChannelHistoryRow.key) batch ∧
    after.rows.Sublist (before.rows ++ inserted)
  appended : Appended channelHistoryRetention identityId batch nowMs before after

theorem landsOnce_of_appended {identityId : String}
    {batch : List NewChannelHistoryEvent} {nowMs : Int} {before after : ChannelHistoryDb}
    (appended : Appended channelHistoryRetention identityId batch nowMs
      before after) : LandsOnce identityId batch nowMs before after where
  inserts := by
    obtain ⟨inserted, isRows, isInserted⟩ :=
      rows_insertedEvents_unstored identityId batch nowMs before
    refine ⟨inserted, isInserted, ?_⟩
    rw [← isRows]
    exact (sublist_of_prunesInTurn appended).trans List.filter_sublist
  appended := appended

namespace ChannelHistoryWriter

variable [UnicodeTables]

theorem append_landed (retention : ChannelHistoryRetentionPolicy)
    (db : ChannelHistoryDb) (call : ChannelHistoryCall)
    (identityId : String) (events : List NewChannelHistoryEvent) (recordedAtMs : Int) :
    let performed := db.appendChannelHistoryEvents retention call identityId events recordedAtMs
    performed.landed = performed.result.toOption := by
  unfold ChannelHistoryDb.appendChannelHistoryEvents
  dsimp only
  split
  · rfl
  · split
    · rfl
    · split
      · rfl
      · split
        · rfl
        · apply Tx.immediate_landed
          dsimp only
          split
          · exact CommitOutcome.noConfusion
          · exact CommitOutcome.noConfusion

/-- An append takes effect as a whole or not at all. -/
theorem append_landsOnce {db : ChannelHistoryDb} (coherent : db.Coherent)
    (call : ChannelHistoryCall) (identityId : String)
    {batch : List NewChannelHistoryEvent} (filled : batch ≠ []) (nowMs : Int) :
    let performed := db.appendChannelHistoryEvents channelHistoryRetention
      call identityId batch nowMs
    (performed.landed.isSome = true ∧ LandsOnce identityId batch nowMs db performed.tables) ∨
    (performed.landed = none ∧ performed.tables = db ∧
      ∃ failure, performed.result = .error failure) := by
  have landed := append_landed channelHistoryRetention db call identityId batch nowMs
  rcases ChannelHistoryDb.append_cases coherent call identityId batch
      nowMs with
    ⟨answer, worked, ⟨empty, -⟩ | ⟨appended, -⟩⟩ | ⟨same, failure, failed⟩
  · exact (filled empty).elim
  · left
    refine ⟨?_, landsOnce_of_appended appended⟩
    rw [landed]
    exact congrArg (fun result => result.toOption.isSome) worked
  · right
    refine ⟨?_, same, failure, failed⟩
    rw [landed]
    exact congrArg Except.toOption failed

/-- An attempt that is answered with success has taken effect. -/
theorem appendHistory_cases {writer : ChannelHistoryWriter}
    (coherent : writer.db.Coherent) (attempt : HistoryAttempt)
    {batch : List NewChannelHistoryEvent} (filled : batch ≠ []) :
    let performed := writer.appendHistory attempt batch
    (performed.landed.isSome = true ∧
      LandsOnce writer.identityId batch attempt.nowMs writer.db performed.tables) ∨
    (performed.landed = none ∧ performed.tables = writer.db ∧
      ∃ failure, performed.result = .error failure) := by
  have performed := append_landsOnce coherent attempt.call writer.identityId
    filled attempt.nowMs
  unfold appendHistory
  cases attempt.answerLost with
  | none => exact performed
  | some failure =>
      rcases performed with landed | ⟨none, same, -⟩
      · exact Or.inl landed
      · exact Or.inr ⟨none, same, failure, rfl⟩

/-- What a step of the worker does to the history: where an append landed,
its events are there, and otherwise no row has come. -/
structure Lands (writer : ChannelHistoryWriter) (nowMs : Int)
    (next : Marked) : Prop where
  acknowledged : ∀ batch, .acknowledged batch ∈ next.2 → .landed batch ∈ next.2
  landed : ∀ batch, .landed batch ∈ next.2 →
    LandsOnce writer.identityId batch nowMs writer.db next.1.db
  otherwise : (∀ batch, .landed batch ∉ next.2) →
    next.1.db.rows.Sublist writer.db.rows

omit [UnicodeTables] in
theorem lands_of_quiet {writer : ChannelHistoryWriter} {nowMs : Int}
    {next : Marked} (same : next.1.db = writer.db)
    (acknowledged : ∀ batch, .acknowledged batch ∉ next.2)
    (landed : ∀ batch, .landed batch ∉ next.2) :
    Lands writer nowMs next where
  acknowledged batch member := (acknowledged batch member).elim
  landed batch member := (landed batch member).elim
  otherwise _ := by
    rw [same]

omit [UnicodeTables] in
theorem begin_lands (writer : ChannelHistoryWriter) (nowMs : Int)
    (command : ChannelHistoryCommand)
    (mailbox : Mailbox historyCommandBuffer ChannelHistoryCommand) :
    Lands writer nowMs
      (({ writer with mailbox := mailbox } :
        ChannelHistoryWriter).begin command) := by
  cases command with
  | append event => exact lands_of_quiet rfl (by simp [begin]) (by simp [begin])
  | observe observation => exact lands_of_quiet rfl (by simp [begin]) (by simp [begin])
  | barrier resultTx => exact lands_of_quiet rfl (by simp [begin]) (by simp [begin])
  | shutdown resultTx => exact lands_of_quiet rfl (by simp [begin]) (by simp [begin])

/-- The first prune only deletes. -/
theorem pruneHistory_sublist (writer : ChannelHistoryWriter) (attempt : HistoryAttempt) :
    (writer.pruneHistory attempt).tables.rows.Sublist writer.db.rows := by
  have same : (writer.pruneHistory attempt).tables =
      (writer.db.perform channelHistoryRetention attempt.call
        (.pruneExpired attempt.nowMs)).tables := by
    rw [pruneHistory]
    split <;> rfl
  have keeps : Tx.Keeps (fun start => start = writer.db)
      (Tx.statement (ChannelHistoryDb.deleteWhere fun row =>
        row.recordedAtMs < historyCutoff attempt.nowMs
          channelHistoryRetention.maxAgeMs) : HistoryTx Nat)
      (fun _ after => after.rows.Sublist writer.db.rows) := by
    apply Tx.settles_statement
    intro start isStart
    rw [isStart]
    exact List.filter_sublist
  rw [same, ChannelHistoryDb.perform]
  rcases @ChannelHistoryDb.transact_cases _ _ _ .deleted _ attempt.call
      keeps with
    ⟨value, -, ends⟩ | ⟨unchanged, -⟩
  · exact ends
  · rw [unchanged]

theorem appending_lands (attempt : HistoryAttempt) {batch : List NewChannelHistoryEvent}
    {deferred : Option ChannelHistoryCommand} {writer : ChannelHistoryWriter}
    (isWorker : writer.worker = .appending batch deferred)
    (coherent : writer.db.Coherent) (filled : batch ≠ []) :
    Lands writer attempt.nowMs (writer.work attempt) := by
  rw [work, isWorker]
  dsimp only
  rcases appendHistory_cases coherent attempt filled with
    ⟨landed, effect⟩ | ⟨none, same, failure, failed⟩
  · rw [if_pos landed]
    split
    · constructor
      · simp
      · intro other member
        have isBatch : other = batch := by
          simpa using member
        rw [isBatch]
        exact effect
      · intro nothing
        exact (nothing batch (by simp)).elim
    · constructor
      · simp
      · intro other member
        have isBatch : other = batch := by
          simpa using member
        rw [isBatch]
        exact effect
      · intro nothing
        exact (nothing batch (by simp)).elim
  · rw [failed, none]
    exact lands_of_quiet same (by simp) (by simp)

theorem work_lands (attempt : HistoryAttempt)
    {writer : ChannelHistoryWriter} (coherent : writer.db.Coherent)
    (tidy : writer.worker.Tidy) :
    Lands writer attempt.nowMs (writer.work attempt) := by
  rcases writer with ⟨identityId, commandTx, mailbox, status, stopping,
    enqueueing, worker, oneshots, db⟩
  cases worker with
  | starting =>
      refine ⟨fun batch member => ?_, fun batch member => ?_, fun _ => ?_⟩
      · cases member
      · cases member
      · exact pruneHistory_sublist _ attempt
  | appending batch deferred => exact appending_lands attempt rfl coherent tidy.1
  | receiving deferred =>
      cases deferred with
      | some command => exact begin_lands _ attempt.nowMs command mailbox
      | none =>
          unfold work
          dsimp only
          split
          · exact lands_of_quiet rfl (by simp) (by simp)
          · exact begin_lands _ attempt.nowMs _ _
  | gathering batch =>
      unfold work
      dsimp only
      split
      · exact lands_of_quiet rfl (by simp) (by simp)
      · split <;> exact lands_of_quiet rfl (by simp) (by simp)
  | gatheringObservations batch =>
      unfold work
      dsimp only
      split
      · exact lands_of_quiet rfl (by simp) (by simp)
      · split <;> exact lands_of_quiet rfl (by simp) (by simp)
  | stopped => exact lands_of_quiet rfl (by simp [work]) (by simp [work])
  | _ =>
      unfold work
      dsimp only
      split <;> exact lands_of_quiet rfl (by simp) (by simp)

/-! ## Runs -/

/-- What every run keeps. -/
structure Sound (writer : ChannelHistoryWriter) (log : HistoryLog) :
    Prop where
  available : writer.commandTx = true
  tidy : writer.worker.Tidy
  history : writer.db.Sound channelHistoryRetention
  attended : writer.ledger.Attended
  conserved : writer.ledger.Conserved log
  counted : writer.ledger.Counted log
  cleared : writer.ledger.Cleared log

omit [UnicodeTables] in
theorem length_appends_le (commands : List ChannelHistoryCommand) :
    (appends commands).length ≤ commands.length := by
  induction commands with
  | nil => exact Nat.le_refl _
  | cons command rest ih =>
      cases command <;>
        simp only [appends_cons, List.length_append, List.length_cons, List.length_nil] <;>
        omega

omit [UnicodeTables] in
/-- A tidy worker has no more in its hands than a batch and a command. -/
theorem length_hands_le {worker : ChannelHistoryWorker} (tidy : worker.Tidy) :
    (appends worker.commands).length + worker.unrecorded.length ≤ 257 := by
  have one : ∀ deferred : Option ChannelHistoryCommand,
      (appends deferred.toList).length ≤ 1 := by
    intro deferred
    cases deferred with
    | none => exact Nat.zero_le 1
    | some command => exact length_appends_le [command]
  cases worker with
  | receiving deferred =>
      have atMost := one deferred
      simp only [ChannelHistoryWorker.commands,
        ChannelHistoryWorker.unrecorded, List.length_nil]
      omega
  | gathering batch =>
      have short : batch.length ≤ 256 :=
        tidy.2
      simp [ChannelHistoryWorker.commands, ChannelHistoryWorker.unrecorded]
      omega
  | finishing batch deferred =>
      have atMost := one deferred
      have short : batch.length ≤ 256 :=
        tidy.2
      simp only [ChannelHistoryWorker.commands, ChannelHistoryWorker.unrecorded]
      omega
  | appending batch deferred =>
      have atMost := one deferred
      have short : batch.length ≤ 256 :=
        tidy.2
      simp [ChannelHistoryWorker.commands, ChannelHistoryWorker.unrecorded]
      omega
  | failed batch deferred =>
      have atMost := one deferred
      have short : batch.length ≤ 256 :=
        tidy.2
      simp [ChannelHistoryWorker.commands, ChannelHistoryWorker.unrecorded]
      omega
  | reporting batch deferred =>
      have atMost := one deferred
      have short : batch.length ≤ 256 :=
        tidy.2
      simp [ChannelHistoryWorker.commands, ChannelHistoryWorker.unrecorded]
      omega
  | remembering batch deferred =>
      have atMost := one deferred
      simp [ChannelHistoryWorker.commands, ChannelHistoryWorker.unrecorded]
      omega
  | rememberFailed batch deferred =>
      have atMost := one deferred
      simp [ChannelHistoryWorker.commands, ChannelHistoryWorker.unrecorded]
      omega
  | _ => simp [ChannelHistoryWorker.commands, ChannelHistoryWorker.unrecorded]

omit [UnicodeTables] in
theorem sized_ledger {writer : ChannelHistoryWriter}
    (tidy : writer.worker.Tidy) : writer.ledger.Sized := by
  have hands := length_hands_le tidy
  have queue : (appends writer.mailbox.queue).length ≤ 128 :=
    (length_appends_le _).trans writer.mailbox.within
  have atMost : (appends writer.line).length ≤
      (appends writer.worker.commands).length +
        (appends writer.mailbox.queue).length := by
    rw [line]
    split
    · exact Nat.zero_le _
    · rw [appends_append, List.length_append]
  rw [HistoryLedger.Sized]
  dsimp only [ledger]
  omega

omit [UnicodeTables] in
theorem sound_start (identityId : String) {db : ChannelHistoryDb}
    (history : db.Sound channelHistoryRetention) :
    (start (some identityId) db).Sound [] where
  available := rfl
  tidy := trivial
  history := history
  attended :=
    { ahead := fun _ member => (List.not_mem_nil member).elim
      waiting := fun _ member => (List.not_mem_nil member).elim
      stopped := fun gone => nomatch gone }
  conserved :=
    { offered := rfl
      order := fun _ => rfl
      kept := List.prefix_refl _
      recorded := rfl
      idle := fun _ => rfl
      waiting := rfl }
  counted :=
    { pending := rfl
      small := Nat.zero_le _
      free := fun _ => rfl
      countedTo := ⟨0, 0, rfl, rfl, rfl, fun _ => rfl,
        fun earlier later split => by
          have impossible := congrArg List.length split
          simp at impossible⟩ }
  cleared :=
    { ahead := fun _ member => (List.not_mem_nil member).elim
      waiting := fun _ member => (List.not_mem_nil member).elim
      answered := fun earlier later resultTx split => by
        have impossible := congrArg List.length split
        simp at impossible
      inLine := fun earlier later resultTx split => by
        have impossible := congrArg List.length split
        simp at impossible }

omit [UnicodeTables] in
theorem begin_db (command : ChannelHistoryCommand) (writer : ChannelHistoryWriter) :
    (writer.begin command).1.db = writer.db := by
  cases command <;> rfl

/-- A step of the worker is at most one operation on the history. -/
theorem work_db (attempt : HistoryAttempt) (writer : ChannelHistoryWriter) :
    (writer.work attempt).1.db = writer.db ∨
      ∃ op, (writer.work attempt).1.db =
        writer.db.step channelHistoryRetention (attempt.call, op) := by
  unfold work
  split
  · right
    refine ⟨.pruneExpired attempt.nowMs, ?_⟩
    dsimp only [pruneHistory]
    split <;> rfl
  · left
    split <;> rfl
  · exact Or.inl (begin_db _ writer)
  · left
    split
    · rfl
    · exact begin_db _ _
  · left
    split
    · rfl
    · split <;> rfl
  · right
    rename_i batch deferred _
    refine ⟨.append writer.identityId batch attempt.nowMs, ?_⟩
    have same : (writer.appendHistory attempt batch).tables =
        writer.db.step channelHistoryRetention
          (attempt.call,
            .append writer.identityId batch attempt.nowMs) := by
      rw [appendHistory]
      split <;> rfl
    dsimp only
    split <;> exact same
  · left
    split <;> rfl
  · left
    split <;> rfl
  · left
    split <;> rfl
  · left
    split
    · rfl
    · split <;> rfl
  · left
    split <;> rfl
  · left
    split <;> rfl
  · left
    rfl

theorem work_history (attempt : HistoryAttempt) {writer : ChannelHistoryWriter}
    (history : writer.db.Sound channelHistoryRetention) :
    (writer.work attempt).1.db.Sound channelHistoryRetention := by
  rcases work_db attempt writer with same | ⟨op, isStep⟩
  · rw [same]
    exact history
  · rw [isStep]
    exact history.step (attempt.call, op)

theorem step_kept {writer : ChannelHistoryWriter} (tidy : writer.worker.Tidy)
    (history : writer.db.Sound channelHistoryRetention) (action : HistoryWriterAction) :
    (writer.step action).1.worker.Tidy ∧
      (writer.step action).1.db.Sound channelHistoryRetention ∧
      Same writer (writer.step action).1 := by
  by_cases works : ∃ attempt, action = .work attempt
  · obtain ⟨attempt, isWork⟩ := works
    rw [isWork]
    exact ⟨work_tidy attempt tidy, work_history attempt history, work_same attempt writer⟩
  · have session : ∀ attempt, action ≠ .work attempt :=
      fun attempt same => works ⟨attempt, same⟩
    obtain ⟨worker, same, db⟩ := step_same session
    rw [worker]
    refine ⟨tidy, ?_, same⟩
    by_cases other : ∃ call op, action = .others call op
    · obtain ⟨call, op, isOther⟩ := other
      rw [isOther]
      exact history.step (call, op)
    · have mine : (writer.step action).1.db = writer.db :=
        db fun call op same => other ⟨call, op, same⟩
      rw [mine]
      exact history

theorem Sound.step {writer : ChannelHistoryWriter} {log : HistoryLog}
    (sound : writer.Sound log) (action : HistoryWriterAction) :
    (writer.step action).1.Sound (log ++ (writer.step action).2) := by
  have flow := step_flow sound.available action
  obtain ⟨tidy, history, -, available⟩ :=
    step_kept sound.tidy sound.history action
  exact
    { available := available.trans sound.available
      tidy := tidy
      history := history
      attended := sound.attended.flow flow
      conserved := sound.conserved.flow flow
      counted := sound.counted.flow sound.conserved flow (sized_ledger tidy)
      cleared := sound.cleared.flow sound.conserved flow }

/-- Over every run of a writer with a store, whatever the session, the worker,
the database and others do: the session's events are accepted or dropped, each
once and in order.  What was accepted is acknowledged, in order and each once,
or it stands in the line as long as the writer is not shut down.  While the
session does not hold the status, the pending events are those accepted and
not recorded as acknowledged, and the dropped ones are counted.  A barrier is
answered after all that was accepted before it was asked for has been
acknowledged, and all that was dropped by then in a finished call is counted.
No event is stored twice, and an append that takes effect, whether or not it
is reported as failed, stores exactly what is not stored yet. -/
theorem historyWriter_run (identityId : String)
    (inputs : List (ChannelHistoryCall × ChannelHistoryOp))
    (actions : List HistoryWriterAction) :
    let db := runFrom (ChannelHistoryDb.step channelHistoryRetention)
      ChannelHistoryDb.fresh inputs
    let reached := runFrom (recording step) (start (some identityId) db, []) actions
    let writer : ChannelHistoryWriter := reached.1
    let log : HistoryLog := reached.2
    log.offered = log.drained ++ (writer.enqueueing.map Enqueueing.remaining).getD [] ∧
    log.acknowledged <+: log.accepted ∧
    log.acknowledged = log.recorded ++ writer.worker.unrecorded ∧
    (writer.stopping = false → log.accepted = log.acknowledged ++ appends writer.line) ∧
    (writer.enqueueing = none →
      log.accepted.length =
          log.recorded.length + writer.status.pendingEvents ∧
        writer.status.droppedEvents = min log.dropped.length (2 ^ 64 - 1)) ∧
    (∀ (earlier later : HistoryLog) (resultTx : Nat),
      log = earlier ++ .asked resultTx :: later →
        .answered resultTx ∈ later →
          earlier.accepted <+: log.acknowledged ∧
          ∀ before after : HistoryLog,
            earlier = before ++ .counted :: after →
              min before.dropped.length (2 ^ 64 - 1) ≤ writer.status.droppedEvents) ∧
    (writer.db.rows.map ChannelHistoryRow.key).Nodup ∧
    ∀ attempt, Lands writer attempt.nowMs (writer.work attempt) := by
  intro db reached writer log
  have history : db.Sound channelHistoryRetention :=
    invariant_of_forall_step (fun _ input held => held.step input) inputs
      ⟨ChannelHistoryDb.coherent_fresh, ChannelHistoryDb.within_fresh⟩
  have sound : writer.Sound log :=
    @invariant_of_forall_step _ _ (recording step)
      (fun recorded => recorded.1.Sound recorded.2)
      (fun _ action held => held.step action) _ actions
      (sound_start identityId history)
  obtain ⟨before, now, countedTo⟩ := sound.counted.countedTo
  refine ⟨sound.conserved.offered, sound.conserved.kept,
    sound.conserved.recorded, ?_, ?_, ?_, sound.history.coherent.keys,
    fun attempt => work_lands attempt sound.history.coherent sound.tidy⟩
  · intro open_
    apply sound.conserved.order
    by_contra gone
    have closing := sound.attended.stopped (Bool.eq_true_of_not_eq_false gone)
    exact Bool.false_ne_true (open_.symm.trans closing)
  · intro free
    have idle : writer.ledger.busy = false := by
      rw [ledger, free]
      rfl
    refine ⟨?_, ?_⟩
    · have pending := sound.counted.pending
      rw [sound.counted.free idle] at pending
      exact pending
    · have isNone := countedTo.free idle
      have all := countedTo.all
      rw [isNone, Nat.add_zero] at all
      rw [← all]
      exact countedTo.dropped
  · intro earlier later resultTx split isAnswered
    refine ⟨?_, ?_⟩
    · have isPrefix : earlier.accepted <+: log.accepted := by
        rw [split, HistoryLog.accepted_append]
        exact List.prefix_append _ _
      exact List.prefix_of_prefix_length_le isPrefix sound.conserved.kept
        (sound.cleared.answered earlier later resultTx split isAnswered)
    · intro first after isEarlier
      have whole : log =
          first ++ .counted :: (after ++ .asked resultTx :: later) := by
        rw [split, isEarlier, List.append_assoc, List.cons_append]
      have within := countedTo.earlier first _ whole
      have isDropped : writer.status.droppedEvents =
          min before (2 ^ 64 - 1) :=
        countedTo.dropped
      rw [isDropped]
      omega

end ChannelHistoryWriter

namespace ChannelHistoryWriter

/-- An event for the runs below. -/
def spokenEvent : NewChannelHistoryEvent where
  hubDestinationHash := "00000000000000000000000000000000"
  roomName := "lobby"
  eventId := "e1"
  kind := .message
  timestampMs := 0
  sourceHash := none
  nickname := none
  text := "hello"
  ours := false
  mentioned := false

/-- An attempt whose answer may be lost after it took effect. -/
def certainAttempt (answerLost : Option String) : HistoryAttempt where
  call := { connection := none, fares := fun _ => none, commitFails := none }
  answerLost := answerLost
  remembers := true
  nowMs := 0

/-- The worker starts, the session hands over an event, and the worker takes
it as a batch. -/
def untilAppending : List HistoryWriterAction :=
  [.work (certainAttempt none), .work (certainAttempt none),
    .enqueue [spokenEvent], .drain, .drain,
    .work (certainAttempt none), .work (certainAttempt none)]

/-- An event and a barrier after it: the event is stored, nothing is pending,
and the barrier is answered. -/
theorem historyWriter_run_answered :
    letI := asciiTables
    let reached := runFrom (recording step)
      (start (some "11111111111111111111111111111111") ChannelHistoryDb.fresh, [])
      (untilAppending ++
        [.work (certainAttempt none), .work (certainAttempt none), .barrier,
          .enter 0, .work (certainAttempt none)])
    HistoryLog.accepted reached.2 =
        HistoryLog.acknowledged reached.2 ++ appends reached.1.line ∧
      (HistoryLog.accepted reached.2).length =
        (HistoryLog.recorded reached.2).length + reached.1.status.pendingEvents ∧
      HistoryLog.accepted (reached.2.take 6) <+:
        HistoryLog.acknowledged reached.2 := by
  intro reached
  have run := @historyWriter_run asciiTables
    "11111111111111111111111111111111" []
    (untilAppending ++
      [.work (certainAttempt none), .work (certainAttempt none), .barrier,
        .enter 0, .work (certainAttempt none)])
  refine ⟨run.2.2.2.1 ?_, (run.2.2.2.2.1 ?_).1,
    (run.2.2.2.2.2.1 (reached.2.take 6) (reached.2.drop 7) 0 ?_ ?_).1⟩
  · decide +kernel
  · decide +kernel
  · decide +kernel
  · decide +kernel

/-- An append takes effect and is reported as failed: the one accepted event
is stored, and it is still pending.  If the room is then cleared, the next
attempt stores the event again.  And a writer without a store counts
nothing. -/
theorem historyWriter_unsure :
    letI := asciiTables
    let begun := start (some "11111111111111111111111111111111") ChannelHistoryDb.fresh
    let unsure := runFrom (recording step) (begun, [])
      (untilAppending ++ [.work (certainAttempt (some "interrupted"))])
    let again := runFrom (recording step) unsure
      [.others (certainAttempt none).call
          (.clearRoom "11111111111111111111111111111111"
            spokenEvent.hubDestinationHash spokenEvent.roomName),
        .work (certainAttempt none), .work (certainAttempt none),
        .work (certainAttempt none)]
    let unavailable := runFrom (recording step)
      (start none ChannelHistoryDb.fresh, [])
      [.enqueue [spokenEvent]]
    ¬ (unsure.1.enqueueing = none →
        unsure.1.status.pendingEvents =
          ((HistoryLog.accepted unsure.2).filter fun event =>
            event ∉ unsure.1.db.rows.map ChannelHistoryRow.event).length) ∧
      ¬ (again.2.count (.landed [spokenEvent]) ≤ 1) ∧
      again.1.db.rows.map ChannelHistoryRow.sequence = [2] ∧
      HistoryLog.offered unavailable.2 = [spokenEvent] ∧
      unavailable.1.status.droppedEvents = 0 ∧
      unavailable.1.db.rows = [] := by
  decide +kernel

end ChannelHistoryWriter

end Ratspeak
