import Ratspeak.Client.HistoryLedger

/-!
# The writer as a line of commands

Each action on the writer, whoever takes it, is one of the flows of the line
of commands, and leaves alone what it has nothing to do with.
-/

namespace Ratspeak

open Library

/-! ## The counts of the status -/

namespace ChannelsHistorySnapshot

variable (status : ChannelsHistorySnapshot)

theorem pendingEvents_enqueued (pending dropped : Nat) :
    (status.enqueued pending dropped).pendingEvents =
      u64SaturatingAdd status.pendingEvents pending := by
  rw [enqueued]
  dsimp only
  split
  · rfl
  · split <;> rfl

theorem droppedEvents_enqueued (pending dropped : Nat) :
    (status.enqueued pending dropped).droppedEvents =
      if dropped = 0 then status.droppedEvents
      else u64SaturatingAdd status.droppedEvents dropped := by
  rw [enqueued]
  dsimp only
  split
  · rename_i positive
    rw [if_neg (Nat.ne_of_gt positive)]
  · rename_i none
    rw [if_pos (Nat.eq_zero_of_not_pos none)]
    split <;> rfl

theorem pendingEvents_finishChannelHistoryBatch (completed : Nat) :
    (status.finishChannelHistoryBatch completed).pendingEvents =
      status.pendingEvents - completed := by
  rw [finishChannelHistoryBatch]
  dsimp only
  split
  · rfl
  · split <;> rfl

theorem droppedEvents_finishChannelHistoryBatch (completed : Nat) :
    (status.finishChannelHistoryBatch completed).droppedEvents =
      status.droppedEvents := by
  rw [finishChannelHistoryBatch]
  dsimp only
  split
  · rfl
  · split <;> rfl

end ChannelsHistorySnapshot

/-! ## The line of a writer -/

theorem HistoryFlow.cast {ledger target after : HistoryLedger}
    {marks : HistoryLog} (flow : HistoryFlow ledger target marks)
    (same : after = target) : HistoryFlow ledger after marks :=
  same ▸ flow

namespace ChannelHistoryWorker

/-- The commands that the worker has received and not dealt with. -/
def commands : ChannelHistoryWorker → List ChannelHistoryCommand
  | .starting => []
  | .started _ => []
  | .receiving deferred => deferred.toList
  | .gathering batch => batch.map .append
  | .appending batch deferred => batch.map .append ++ deferred.toList
  | .finishing _ deferred => deferred.toList
  | .failed batch deferred => batch.map .append ++ deferred.toList
  | .reporting batch deferred => batch.map .append ++ deferred.toList
  | .gatheringObservations batch => batch.map .observe
  | .remembering batch deferred => batch.map .observe ++ deferred.toList
  | .rememberFailed batch deferred => batch.map .observe ++ deferred.toList
  | .stopped => []

/-- The batch that was acknowledged and is not taken out of the count. -/
def unrecorded : ChannelHistoryWorker → List NewChannelHistoryEvent
  | .finishing batch _ => batch
  | _ => []

/-- A batch has an event, and is small enough for one append. -/
def FitsAppend (batch : List NewChannelHistoryEvent) : Prop :=
  batch ≠ [] ∧ batch.length ≤ channelHistoryMaxAppendBatch

/-- The batch in the hands of the worker fits. -/
def Tidy : ChannelHistoryWorker → Prop
  | .gathering batch => FitsAppend batch
  | .appending batch _ => FitsAppend batch
  | .finishing batch _ => FitsAppend batch
  | .failed batch _ => FitsAppend batch
  | .reporting batch _ => FitsAppend batch
  | _ => True

end ChannelHistoryWorker

namespace ChannelHistoryWriter

/-- The commands that were sent and not dealt with, the oldest first. -/
def line (writer : ChannelHistoryWriter) : List ChannelHistoryCommand :=
  if writer.worker = .stopped then []
  else writer.worker.commands ++ writer.mailbox.queue

def ledger (writer : ChannelHistoryWriter) : HistoryLedger where
  ahead := writer.line
  waiting := writer.mailbox.waiting
  unrecorded := writer.worker.unrecorded
  busy := writer.enqueueing.isSome
  remaining := (writer.enqueueing.map Enqueueing.remaining).getD []
  entering := (writer.enqueueing.map Enqueueing.pending).getD 0
  refused := (writer.enqueueing.map Enqueueing.dropped).getD 0
  pending := writer.status.pendingEvents
  dropped := writer.status.droppedEvents
  oneshots := writer.oneshots
  closing := writer.stopping
  stopped := writer.worker = .stopped

theorem line_of_running {writer : ChannelHistoryWriter} (running : writer.worker ≠ .stopped) :
    writer.line = writer.worker.commands ++ writer.mailbox.queue :=
  if_neg running


theorem rests {writer after : ChannelHistoryWriter} (same : after.ledger = writer.ledger) :
    HistoryFlow writer.ledger after.ledger [] :=
  HistoryFlow.rests.cast same

/-! ## The session -/

theorem trySend_some {command : ChannelHistoryCommand}
    {writer after : ChannelHistoryWriter} (sent : writer.trySend command = some after) :
    writer.worker ≠ .stopped ∧
      after = { writer with mailbox := after.mailbox } ∧
      after.mailbox.queue = writer.mailbox.queue ++ [command] ∧
      after.mailbox.waiting = writer.mailbox.waiting := by
  rw [trySend] at sent
  split at sent
  · cases sent
  · rename_i running
    obtain ⟨mailbox, entered, isAfter⟩ := Option.map_eq_some_iff.mp sent
    subst isAfter
    exact ⟨running, rfl, Mailbox.trySend_some entered⟩

theorem enqueue_flow (events : List NewChannelHistoryEvent)
    {writer : ChannelHistoryWriter} (available : writer.commandTx = true) :
    HistoryFlow writer.ledger (writer.enqueue events).1.ledger
      (writer.enqueue events).2 := by
  rw [enqueue]
  split
  · exact HistoryFlow.rests
  · split
    · rename_i gone
      rw [available] at gone
      cases gone
    · split
      · exact HistoryFlow.rests
      · rename_i free
        exact HistoryFlow.offers events (Bool.eq_false_of_not_eq_true free)

/-- A command that enters the mailbox stands at the end of the line. -/
theorem ledger_concat {command : ChannelHistoryCommand}
    {writer : ChannelHistoryWriter} (running : writer.worker ≠ .stopped)
    {mailbox : Mailbox historyCommandBuffer ChannelHistoryCommand}
    (queue : mailbox.queue = writer.mailbox.queue ++ [command]) :
    ({ writer with mailbox := mailbox } : ChannelHistoryWriter).ledger =
      { writer.ledger with
        ahead := writer.ledger.ahead ++ [command]
        waiting := mailbox.waiting } := by
  have isLine :
      ({ writer with mailbox := mailbox } : ChannelHistoryWriter).line =
        writer.line ++ [command] := by
    rw [line_of_running running, line_of_running (by exact running), queue,
      ← List.append_assoc]
  rw [ledger, isLine]
  rfl

theorem ledger_of_sent {command : ChannelHistoryCommand}
    {writer after : ChannelHistoryWriter} (sent : writer.trySend command = some after) :
    after.ledger =
      { writer.ledger with ahead := writer.ledger.ahead ++ [command] } := by
  obtain ⟨running, isAfter, queue, waiting⟩ := trySend_some sent
  rw [isAfter, ledger_concat running queue, waiting]
  rfl

section Session

variable [UnicodeTables]

theorem drain_flow (writer : ChannelHistoryWriter) :
    HistoryFlow writer.ledger writer.drain.1.ledger writer.drain.2 := by
  rw [drain]
  split
  · exact HistoryFlow.rests
  · rename_i pending dropped isDone
    have done : writer.ledger.remaining = [] := by
      rw [ledger, isDone]
      rfl
    refine (HistoryFlow.counts done).cast ?_
    rw [ledger, ledger, isDone]
    dsimp only
    rw [ChannelsHistorySnapshot.pendingEvents_enqueued,
      ChannelsHistorySnapshot.droppedEvents_enqueued]
    rfl
  · rename_i event rest pending dropped isNext
    have next : writer.ledger.remaining = event :: rest := by
      rw [ledger, isNext]
      rfl
    split
    · refine (HistoryFlow.drops event rest next).cast ?_
      rw [ledger, ledger, isNext]
      rfl
    · split
      · refine (HistoryFlow.drops event rest next).cast ?_
        rw [ledger, ledger, isNext]
        rfl
      · rename_i after sent
        have running : writer.ledger.stopped = false :=
          decide_eq_false (trySend_some sent).1
        have isLedger := ledger_of_sent sent
        refine (HistoryFlow.accepts event rest next running).cast ?_
        have parts : ∀ enqueueing : Enqueueing,
            ({ after with enqueueing := some enqueueing } :
              ChannelHistoryWriter).ledger =
                { after.ledger with
                  busy := true
                  remaining := enqueueing.remaining
                  entering := enqueueing.pending
                  refused := enqueueing.dropped } :=
          fun _ => rfl
        rw [parts, ledger_of_sent sent, ledger, isNext]
        rfl

theorem enqueueParticipant_flow (observation : NewChannelParticipantObservation)
    (writer : ChannelHistoryWriter) :
    HistoryFlow writer.ledger
      (writer.enqueueParticipant observation).1.ledger
      (writer.enqueueParticipant observation).2 := by
  rw [enqueueParticipant]
  split
  · exact HistoryFlow.rests
  · split
    · exact HistoryFlow.rests
    · cases sent : writer.trySend (.observe observation) with
      | none => exact HistoryFlow.rests
      | some after =>
          have running : writer.ledger.stopped = false :=
            decide_eq_false (trySend_some sent).1
          exact (HistoryFlow.joins observation running).cast (ledger_of_sent sent)

end Session

theorem barrier_flow (writer : ChannelHistoryWriter) :
    HistoryFlow writer.ledger writer.barrier.1.ledger writer.barrier.2 := by
  rw [barrier]
  split
  · exact HistoryFlow.rests
  · rename_i available
    have running : writer.worker ≠ .stopped := by
      intro gone
      simp [gone] at available
    refine HistoryFlow.asks.cast ?_
    rw [ask, if_neg running]
    rfl

theorem shutdown_flow (writer : ChannelHistoryWriter) :
    HistoryFlow writer.ledger writer.shutdown.1.ledger
      writer.shutdown.2 := by
  rw [shutdown]
  split
  · exact HistoryFlow.rests
  · rw [ask]
    split
    · exact HistoryFlow.closesLate
    · exact HistoryFlow.closes

theorem enter_flow (index : Nat) {writer : ChannelHistoryWriter}
    (running : writer.worker ≠ .stopped) :
    HistoryFlow writer.ledger
      ({ writer with mailbox := writer.mailbox.enter index } :
        ChannelHistoryWriter).ledger [] := by
  rcases writer.mailbox.enter_cases index with
    same | ⟨command, waited, queue, waiting⟩
  · rw [same]
    exact HistoryFlow.rests
  · refine (HistoryFlow.enters command _ waited
      (List.eraseIdx_sublist _ index) (decide_eq_false running)).cast ?_
    rw [ledger_concat running queue, waiting]
    rfl

/-! ## The worker -/

theorem ledger_of_worker {writer after : ChannelHistoryWriter}
    (goes : after.worker ≠ .stopped) (enqueueing : after.enqueueing = writer.enqueueing)
    (oneshots : after.oneshots = writer.oneshots)
    (stopping : after.stopping = writer.stopping) :
    after.ledger =
      { writer.ledger with
        ahead := after.worker.commands ++ after.mailbox.queue
        waiting := after.mailbox.waiting
        unrecorded := after.worker.unrecorded
        pending := after.status.pendingEvents
        dropped := after.status.droppedEvents
        stopped := false } := by
  have running : decide (after.worker = .stopped) = false :=
    decide_eq_false goes
  rw [ledger, line_of_running goes, running, enqueueing, oneshots, stopping]
  rfl

/-- The worker passes commands from the mailbox into its hands. -/
theorem passes {writer after : ChannelHistoryWriter}
    (commands : after.worker.commands ++ after.mailbox.queue =
      writer.worker.commands ++ writer.mailbox.queue)
    (waiting : after.mailbox.waiting = writer.mailbox.waiting)
    (unrecorded : after.worker.unrecorded = writer.worker.unrecorded)
    (pending : after.status.pendingEvents = writer.status.pendingEvents :=
      by rfl)
    (dropped : after.status.droppedEvents = writer.status.droppedEvents :=
      by rfl)
    (enqueueing : after.enqueueing = writer.enqueueing := by rfl)
    (oneshots : after.oneshots = writer.oneshots := by rfl)
    (stopping : after.stopping = writer.stopping := by rfl)
    (running : writer.worker ≠ .stopped := by
      exact ChannelHistoryWorker.noConfusion)
    (goes : after.worker ≠ .stopped := by
      exact ChannelHistoryWorker.noConfusion) :
    HistoryFlow writer.ledger after.ledger [] := by
  apply rests
  rw [ledger_of_worker goes enqueueing oneshots stopping,
    ledger_of_worker running rfl rfl rfl, commands, waiting, unrecorded,
    pending, dropped]

/-- The worker goes, and the commands that are left go with it. -/
theorem stops {writer after : ChannelHistoryWriter} (allowed : writer.ledger.closing = true ∨
      ∃ resultTx, .shutdown resultTx ∈ writer.ledger.ahead)
    (gone : after.worker = .stopped) (enqueueing : after.enqueueing = writer.enqueueing)
    (oneshots : after.oneshots = writer.oneshots)
    (stopping : after.stopping = writer.stopping) (settled : writer.worker.unrecorded = [])
    (waiting : after.mailbox.waiting = writer.mailbox.waiting)
    (pending : after.status.pendingEvents = writer.status.pendingEvents)
    (dropped : after.status.droppedEvents = writer.status.droppedEvents) :
    HistoryFlow writer.ledger after.ledger [] := by
  refine (HistoryFlow.stops allowed).cast ?_
  rw [ledger, line, gone, enqueueing, oneshots, stopping, waiting, pending,
    dropped, ledger, settled]
  rfl

/-- The worker begins with the command at the front of the line. -/
theorem begin_flow {writer : ChannelHistoryWriter} (command : ChannelHistoryCommand)
    {mailbox : Mailbox historyCommandBuffer ChannelHistoryCommand}
    (running : writer.worker ≠ .stopped)
    (first : writer.worker.commands ++ writer.mailbox.queue = command :: mailbox.queue)
    (waiting : mailbox.waiting = writer.mailbox.waiting)
    (settled : writer.worker.unrecorded = []) :
    HistoryFlow writer.ledger
      (({ writer with mailbox := mailbox } : ChannelHistoryWriter).begin command).1.ledger
      (({ writer with mailbox := mailbox } :
        ChannelHistoryWriter).begin command).2 := by
  have isAhead : writer.ledger.ahead = command :: mailbox.queue := by
    rw [← first]
    exact line_of_running running
  cases command with
  | append event =>
      exact passes first.symm waiting settled.symm rfl rfl rfl rfl rfl running
  | observe observation =>
      exact passes first.symm waiting settled.symm rfl rfl rfl rfl rfl running
  | barrier resultTx =>
      refine (HistoryFlow.answers resultTx mailbox.queue isAhead).cast ?_
      rw [ledger_of_worker running rfl rfl rfl, settled, ← waiting]
      rfl
  | shutdown resultTx =>
      have isNext : .shutdown resultTx ∈ writer.ledger.ahead := by
        rw [isAhead]
        exact List.mem_cons_self
      exact stops (Or.inr ⟨resultTx, isNext⟩) rfl rfl rfl rfl settled waiting rfl rfl

section Worker

variable [UnicodeTables]

theorem appending_flow (attempt : HistoryAttempt) (batch : List NewChannelHistoryEvent)
    (deferred : Option ChannelHistoryCommand) {writer : ChannelHistoryWriter}
    (isWorker : writer.worker = .appending batch deferred) :
    HistoryFlow writer.ledger (writer.work attempt).1.ledger
      (writer.work attempt).2 := by
  rcases writer with ⟨identityId, commandTx, mailbox, status, stopping,
    enqueueing, worker, oneshots, db⟩
  subst isWorker
  unfold work
  dsimp only
  split
  · refine (HistoryFlow.acknowledges batch
      (deferred.toList ++ mailbox.queue) _ rfl ?_ rfl ?_).cast rfl
    · exact List.append_assoc _ _ _
    · split
      · exact Or.inr rfl
      · exact Or.inl rfl
  · split
    · exact HistoryFlow.lands batch
    · exact passes rfl rfl rfl

theorem work_flow (attempt : HistoryAttempt) (writer : ChannelHistoryWriter) :
    HistoryFlow writer.ledger (writer.work attempt).1.ledger
      (writer.work attempt).2 := by
  rcases writer with ⟨identityId, commandTx, mailbox, status, stopping,
    enqueueing, worker, oneshots, db⟩
  cases worker with
  | starting => exact passes rfl rfl rfl
  | started pruned =>
      unfold work
      dsimp only
      split
      · exact HistoryFlow.rests
      · cases pruned with
        | true =>
            exact passes rfl rfl rfl
              (status.pendingEvents_finishChannelHistoryBatch 0)
              (status.droppedEvents_finishChannelHistoryBatch 0)
        | false => exact passes rfl rfl rfl
  | receiving deferred =>
      cases deferred with
      | some command =>
          exact begin_flow command ChannelHistoryWorker.noConfusion rfl rfl
            rfl
      | none =>
          unfold work
          dsimp only
          split
          · exact HistoryFlow.rests
          · rename_i command taken received
            obtain ⟨queue, waiting⟩ := Mailbox.receive_some received
            exact begin_flow command ChannelHistoryWorker.noConfusion queue waiting rfl
  | gathering batch =>
      unfold work
      dsimp only
      split
      · exact passes (by simp [ChannelHistoryWorker.commands]) rfl rfl
      · split
        · exact passes (by simp [ChannelHistoryWorker.commands]) rfl rfl
        · rename_i event taken received
          obtain ⟨queue, waiting⟩ := Mailbox.receive_some received
          exact passes (by simp [ChannelHistoryWorker.commands, queue])
            waiting rfl
        · rename_i command taken _ received
          obtain ⟨queue, waiting⟩ := Mailbox.receive_some received
          exact passes (by simp [ChannelHistoryWorker.commands, queue])
            waiting rfl
  | appending batch deferred => exact appending_flow attempt batch deferred rfl
  | finishing batch deferred =>
      unfold work
      dsimp only
      split
      · exact HistoryFlow.rests
      · rename_i free
        refine (HistoryFlow.records (Bool.eq_false_of_not_eq_true free)).cast ?_
        rw [ledger_of_worker ChannelHistoryWorker.noConfusion rfl rfl rfl]
        dsimp only
        rw [status.pendingEvents_finishChannelHistoryBatch,
          status.droppedEvents_finishChannelHistoryBatch]
        rfl
  | failed batch deferred =>
      unfold work
      dsimp only
      split
      · rename_i told
        exact stops (Or.inl told) rfl rfl rfl rfl rfl rfl rfl rfl
      · exact passes rfl rfl rfl
  | reporting batch deferred =>
      unfold work
      dsimp only
      split
      · exact HistoryFlow.rests
      · exact passes rfl rfl rfl
  | gatheringObservations batch =>
      unfold work
      dsimp only
      split
      · exact passes (by simp [ChannelHistoryWorker.commands]) rfl rfl
      · split
        · exact passes (by simp [ChannelHistoryWorker.commands]) rfl rfl
        · rename_i observation taken received
          obtain ⟨queue, waiting⟩ := Mailbox.receive_some received
          exact passes (by simp [ChannelHistoryWorker.commands, queue])
            waiting rfl
        · rename_i command taken _ received
          obtain ⟨queue, waiting⟩ := Mailbox.receive_some received
          exact passes (by simp [ChannelHistoryWorker.commands, queue])
            waiting rfl
  | remembering batch deferred =>
      unfold work
      dsimp only
      split
      · refine (HistoryFlow.remembers batch
          (deferred.toList ++ mailbox.queue) ?_).cast rfl
        exact List.append_assoc _ _ _
      · exact passes rfl rfl rfl
  | rememberFailed batch deferred =>
      unfold work
      dsimp only
      split
      · rename_i told
        exact stops (Or.inl told) rfl rfl rfl rfl rfl rfl rfl rfl
      · exact passes rfl rfl rfl
  | stopped => exact HistoryFlow.rests

/-- Every action is a flow of the line. -/
theorem step_flow {writer : ChannelHistoryWriter}
    (available : writer.commandTx = true) (action : HistoryWriterAction) :
    HistoryFlow writer.ledger (writer.step action).1.ledger
      (writer.step action).2 := by
  cases action with
  | enqueue events => exact enqueue_flow events available
  | drain => exact drain_flow writer
  | enqueueParticipant observation => exact enqueueParticipant_flow observation writer
  | barrier => exact barrier_flow writer
  | shutdown => exact shutdown_flow writer
  | enter index =>
      unfold step
      dsimp only
      split
      · exact HistoryFlow.rests
      · rename_i running
        exact enter_flow index running
  | leave index => exact HistoryFlow.leaves _ (List.eraseIdx_sublist _ index)
  | work attempt => exact work_flow attempt writer
  | others call op => exact HistoryFlow.rests

/-! ## What an action leaves as it is -/

omit [UnicodeTables] in
theorem begin_tidy (command : ChannelHistoryCommand) (writer : ChannelHistoryWriter) :
    (writer.begin command).1.worker.Tidy := by
  cases command with
  | append event => exact ⟨List.cons_ne_nil _ _, by simp [channelHistoryMaxAppendBatch]⟩
  | observe observation => trivial
  | barrier resultTx => trivial
  | shutdown resultTx => trivial

theorem work_tidy (attempt : HistoryAttempt)
    {writer : ChannelHistoryWriter} (tidy : writer.worker.Tidy) :
    (writer.work attempt).1.worker.Tidy := by
  rcases writer with ⟨identityId, commandTx, mailbox, status, stopping,
    enqueueing, worker, oneshots, db⟩
  cases worker with
  | receiving deferred =>
      cases deferred with
      | some command => exact begin_tidy command _
      | none =>
          unfold work
          dsimp only
          split
          · trivial
          · exact begin_tidy _ _
  | gathering batch =>
      unfold work
      dsimp only
      split
      · exact tidy
      · rename_i short
        split
        · exact tidy
        · refine ⟨by simp, ?_⟩
          rw [List.length_append]
          exact Nat.lt_of_not_le short
        · exact tidy
  | appending batch deferred =>
      unfold work
      dsimp only
      split <;> exact tidy
  | finishing batch deferred =>
      unfold work
      dsimp only
      split
      · exact tidy
      · trivial
  | failed batch deferred =>
      unfold work
      dsimp only
      split
      · trivial
      · exact tidy
  | reporting batch deferred =>
      unfold work
      dsimp only
      split <;> exact tidy
  | starting => trivial
  | started pruned =>
      unfold work
      dsimp only
      split <;> trivial
  | gatheringObservations batch =>
      unfold work
      dsimp only
      split
      · trivial
      · split <;> trivial
  | remembering batch deferred =>
      unfold work
      dsimp only
      split <;> trivial
  | rememberFailed batch deferred =>
      unfold work
      dsimp only
      split <;> trivial
  | stopped => trivial

/-- What no action changes. -/
def Same (writer after : ChannelHistoryWriter) : Prop :=
  after.identityId = writer.identityId ∧ after.commandTx = writer.commandTx

omit [UnicodeTables] in
theorem begin_same (command : ChannelHistoryCommand) (writer : ChannelHistoryWriter) :
    Same writer (writer.begin command).1 := by
  cases command <;> exact ⟨rfl, rfl⟩

theorem work_same (attempt : HistoryAttempt) (writer : ChannelHistoryWriter) :
    Same writer (writer.work attempt).1 := by
  unfold work
  split
  · exact ⟨rfl, rfl⟩
  · split <;> exact ⟨rfl, rfl⟩
  · exact begin_same _ writer
  · split
    · exact ⟨rfl, rfl⟩
    · exact begin_same _ _
  · split
    · exact ⟨rfl, rfl⟩
    · split <;> exact ⟨rfl, rfl⟩
  · dsimp only
    split <;> exact ⟨rfl, rfl⟩
  · split <;> exact ⟨rfl, rfl⟩
  · split <;> exact ⟨rfl, rfl⟩
  · split <;> exact ⟨rfl, rfl⟩
  · split
    · exact ⟨rfl, rfl⟩
    · split <;> exact ⟨rfl, rfl⟩
  · split <;> exact ⟨rfl, rfl⟩
  · split <;> exact ⟨rfl, rfl⟩
  · exact ⟨rfl, rfl⟩

omit [UnicodeTables] in
theorem trySend_same {command : ChannelHistoryCommand}
    {writer after : ChannelHistoryWriter} (sent : writer.trySend command = some after) :
    after.worker = writer.worker ∧ after.db = writer.db ∧
      Same writer after := by
  obtain ⟨-, isAfter, -⟩ := trySend_some sent
  rw [isAfter]
  exact ⟨rfl, rfl, rfl, rfl⟩

omit [UnicodeTables] in
theorem ask_same (command : Nat → ChannelHistoryCommand) (writer : ChannelHistoryWriter) :
    (writer.ask command).worker = writer.worker ∧
      (writer.ask command).db = writer.db ∧
      Same writer (writer.ask command) := by
  rw [ask]
  split <;> exact ⟨rfl, rfl, rfl, rfl⟩

/-- The session leaves the worker and the tables alone. -/
theorem step_same {writer : ChannelHistoryWriter} {action : HistoryWriterAction}
    (session : ∀ attempt, action ≠ .work attempt) :
    (writer.step action).1.worker = writer.worker ∧
      Same writer (writer.step action).1 ∧
      ((∀ call op, action ≠ .others call op) →
        (writer.step action).1.db = writer.db) := by
  cases action with
  | enqueue events =>
      unfold step enqueue
      dsimp only
      split
      · exact ⟨rfl, ⟨rfl, rfl⟩, fun _ => rfl⟩
      · split
        · exact ⟨rfl, ⟨rfl, rfl⟩, fun _ => rfl⟩
        · split <;> exact ⟨rfl, ⟨rfl, rfl⟩, fun _ => rfl⟩
  | drain =>
      unfold step drain
      dsimp only
      split
      · exact ⟨rfl, ⟨rfl, rfl⟩, fun _ => rfl⟩
      · exact ⟨rfl, ⟨rfl, rfl⟩, fun _ => rfl⟩
      · split
        · exact ⟨rfl, ⟨rfl, rfl⟩, fun _ => rfl⟩
        · split
          · exact ⟨rfl, ⟨rfl, rfl⟩, fun _ => rfl⟩
          · rename_i sent
            obtain ⟨worker, db, same⟩ := trySend_same sent
            exact ⟨worker, same, fun _ => db⟩
  | enqueueParticipant observation =>
      unfold step enqueueParticipant
      dsimp only
      split
      · exact ⟨rfl, ⟨rfl, rfl⟩, fun _ => rfl⟩
      · split
        · exact ⟨rfl, ⟨rfl, rfl⟩, fun _ => rfl⟩
        · cases sent : writer.trySend (.observe observation) with
          | none => exact ⟨rfl, ⟨rfl, rfl⟩, fun _ => rfl⟩
          | some after =>
              obtain ⟨worker, db, same⟩ := trySend_same sent
              exact ⟨worker, same, fun _ => db⟩
  | barrier =>
      unfold step barrier
      dsimp only
      split
      · exact ⟨rfl, ⟨rfl, rfl⟩, fun _ => rfl⟩
      · obtain ⟨worker, db, same⟩ := ask_same .barrier writer
        exact ⟨worker, same, fun _ => db⟩
  | shutdown =>
      unfold step shutdown
      dsimp only
      split
      · exact ⟨rfl, ⟨rfl, rfl⟩, fun _ => rfl⟩
      · obtain ⟨worker, db, same⟩ :=
          ask_same .shutdown { writer with stopping := true }
        exact ⟨worker, same, fun _ => db⟩
  | enter index =>
      unfold step
      dsimp only
      split <;> exact ⟨rfl, ⟨rfl, rfl⟩, fun _ => rfl⟩
  | leave index => exact ⟨rfl, ⟨rfl, rfl⟩, fun _ => rfl⟩
  | work attempt => exact (session attempt rfl).elim
  | others call op => exact ⟨rfl, ⟨rfl, rfl⟩, fun mine => (mine call op rfl).elim⟩

end Worker

end ChannelHistoryWriter

end Ratspeak
