import Ratspeak.Database.History
import Ratspeak.Library.Mailbox
import Ratspeak.Library.Runs

/-!
# The writer of the channel history

A session hands the events that it accepted to a worker, which appends them to
the history in batches and tries a batch again for as long as it fails.  The
session never waits: where the mailbox of the worker is full, the event is
dropped and counted.  Session and worker share a status under a lock; the
session holds the lock while its events enter the mailbox.

Each step of the session, of the worker and of everybody else is one action,
and the actions come in any order.  A step marks what happens to events, to
batches and to barriers.
-/

namespace Ratspeak

open Library

def historyCommandBuffer : Nat := 128
def channelParticipantMaxObservationBatch : Nat := 256

def historyTemporarilyUnavailable : String :=
  "Local channel history is temporarily unavailable. New activity will retry automatically."

def historyEventsDropped : String :=
  "Some recent channel activity could not be saved to local history."

inductive ChannelsHistoryPhase where
  | loading
  | ready
  | pending
  | degraded
  | unavailable
deriving DecidableEq, Repr

structure ChannelsHistorySnapshot where
  phase : ChannelsHistoryPhase := .loading
  pendingEvents : Nat := 0
  droppedEvents : Nat := 0
  lastError : Option String := none
deriving DecidableEq, Repr

structure NewChannelParticipantObservation where
  hubDestinationHash : String
  roomName : String
  identityHash : String
  nickname : Option String
deriving DecidableEq, Repr

inductive ChannelHistoryCommand where
  | append (event : NewChannelHistoryEvent)
  | observe (observation : NewChannelParticipantObservation)
  | barrier (resultTx : Nat)
  | shutdown (resultTx : Nat)
deriving DecidableEq, Repr

/-- Addition of unsigned numbers of 64 bits that stops at the largest. -/
def u64SaturatingAdd (first second : Nat) : Nat :=
  min (first + second) (2 ^ 64 - 1)

section Validation

variable [UnicodeTables]

def validateChannelParticipantObservation (identityId : String)
    (observation : NewChannelParticipantObservation) :
    Except String Unit := do
  validateChannelHistoryScope identityId observation.hubDestinationHash observation.roomName
  if !isCanonicalChannelHash observation.identityHash ||
      observation.identityHash = identityId then
    .error "invalid Channels participant identity"
  else if observation.nickname.any fun nickname =>
      nickname.isEmpty || trim nickname ≠ nickname ||
        channelHistoryMaxNicknameBytes < nickname.utf8ByteSize then
    .error "invalid Channels participant nickname"
  else .ok ()

end Validation

/-! ## The shared status -/

namespace ChannelsHistorySnapshot

/-- The session has put events in, and had to drop others. -/
def enqueued (status : ChannelsHistorySnapshot) (pending dropped : Nat) :
    ChannelsHistorySnapshot :=
  let status :=
    { status with
      pendingEvents := u64SaturatingAdd status.pendingEvents pending }
  if 0 < dropped then
    { status with
      droppedEvents := u64SaturatingAdd status.droppedEvents dropped
      phase := .degraded
      lastError := some historyEventsDropped }
  else if status.phase ≠ .degraded then
    { status with phase := .pending, lastError := none }
  else status

def finishChannelHistoryBatch (status : ChannelsHistorySnapshot)
    (completed : Nat) : ChannelsHistorySnapshot :=
  let status :=
    { status with pendingEvents := status.pendingEvents - completed }
  if 0 < status.droppedEvents then
    { status with
      phase := .degraded
      lastError := some historyEventsDropped }
  else if 0 < status.pendingEvents then
    { status with phase := .pending, lastError := none }
  else { status with phase := .ready, lastError := none }

/-- The first prune of the worker has failed. -/
def pruneFailed (status : ChannelsHistorySnapshot) :
    ChannelsHistorySnapshot :=
  { status with
    phase := .degraded
    lastError := some historyTemporarilyUnavailable }

/-- A batch has failed and will be tried again. -/
def appendFailed (status : ChannelsHistorySnapshot) :
    ChannelsHistorySnapshot :=
  { status with
    phase := .degraded
    lastError :=
      if status.droppedEvents = 0 then some historyTemporarilyUnavailable
      else status.lastError }

end ChannelsHistorySnapshot

/-! ## The parties -/

/-- Where the session is while it holds the lock of the status. -/
structure Enqueueing where
  remaining : List NewChannelHistoryEvent
  pending : Nat
  dropped : Nat
deriving DecidableEq, Repr

/-- Where the worker is.  It has received the commands in its hands, and those
of a batch before the one that ended the batch. -/
inductive ChannelHistoryWorker where
  | starting
  | started (pruned : Bool)
  | receiving (deferred : Option ChannelHistoryCommand)
  | gathering (batch : List NewChannelHistoryEvent)
  | appending (batch : List NewChannelHistoryEvent)
      (deferred : Option ChannelHistoryCommand)
  | finishing (batch : List NewChannelHistoryEvent)
      (deferred : Option ChannelHistoryCommand)
  | failed (batch : List NewChannelHistoryEvent)
      (deferred : Option ChannelHistoryCommand)
  | reporting (batch : List NewChannelHistoryEvent)
      (deferred : Option ChannelHistoryCommand)
  | gatheringObservations (batch : List NewChannelParticipantObservation)
  | remembering (batch : List NewChannelParticipantObservation)
      (deferred : Option ChannelHistoryCommand)
  | rememberFailed (batch : List NewChannelParticipantObservation)
      (deferred : Option ChannelHistoryCommand)
  | stopped
deriving DecidableEq, Repr

structure ChannelHistoryWriter where
  identityId : String
  commandTx : Bool
  mailbox : Mailbox historyCommandBuffer ChannelHistoryCommand
  status : ChannelsHistorySnapshot
  stopping : Bool
  enqueueing : Option Enqueueing
  worker : ChannelHistoryWorker
  oneshots : Nat
  db : ChannelHistoryDb

/-- What an attempt at the database meets with, and when.  The answer may be
lost although the attempt took effect.  Participants are in tables of their
own, of which only is said whether they can be written. -/
structure HistoryAttempt where
  call : ChannelHistoryCall
  answerLost : Option String
  remembers : Bool
  nowMs : Int

inductive HistoryWriterAction where
  | enqueue (events : List NewChannelHistoryEvent)
  | drain
  | enqueueParticipant (observation : NewChannelParticipantObservation)
  | barrier
  | shutdown
  | enter (index : Nat)
  | leave (index : Nat)
  | work (attempt : HistoryAttempt)
  | others (call : ChannelHistoryCall) (op : ChannelHistoryOp)

/-- What a step makes of events, batches and barriers. -/
inductive HistoryMark where
  | offered (events : List NewChannelHistoryEvent)
  | accepted (event : NewChannelHistoryEvent)
  | dropped (event : NewChannelHistoryEvent)
  | counted
  | landed (batch : List NewChannelHistoryEvent)
  | acknowledged (batch : List NewChannelHistoryEvent)
  | recorded (batch : List NewChannelHistoryEvent)
  | asked (resultTx : Nat)
  | answered (resultTx : Nat)
deriving DecidableEq, Repr

namespace ChannelHistoryWriter

abbrev Marked := ChannelHistoryWriter × List HistoryMark

def start (store : Option String) (db : ChannelHistoryDb) :
    ChannelHistoryWriter :=
  match store with
  | none =>
      { identityId := ""
        commandTx := false
        mailbox := Mailbox.empty
        status := { phase := .unavailable }
        stopping := true
        enqueueing := none
        worker := .stopped
        oneshots := 0
        db := db }
  | some identityId =>
      { identityId := identityId
        commandTx := true
        mailbox := Mailbox.empty
        status := {}
        stopping := false
        enqueueing := none
        worker := .starting
        oneshots := 0
        db := db }

/-! ## The session -/

/-- Put a command into the mailbox, unless it is full or the worker has
gone. -/
def trySend (command : ChannelHistoryCommand)
    (writer : ChannelHistoryWriter) : Option ChannelHistoryWriter :=
  if writer.worker = .stopped then none
  else
    (writer.mailbox.trySend command).map fun mailbox =>
      { writer with mailbox := mailbox }

/-- Take the lock of the status, where there is something to put in.  Without
a store the events are cleared. -/
def enqueue (events : List NewChannelHistoryEvent) (writer : ChannelHistoryWriter) : Marked :=
  if events.isEmpty then (writer, [])
  else if !writer.commandTx then (writer, [.offered events])
  else if writer.enqueueing.isSome then (writer, [])
  else
    ({ writer with
        enqueueing :=
          some { remaining := events, pending := 0, dropped := 0 } },
      [.offered events])

section Session

variable [UnicodeTables]

/-- Put the next event in, or count and let the lock go. -/
def drain (writer : ChannelHistoryWriter) : Marked :=
  match writer.enqueueing with
  | none => (writer, [])
  | some ⟨[], pending, dropped⟩ =>
      ({ writer with
          enqueueing := none
          status := writer.status.enqueued pending dropped },
        [.counted])
  | some ⟨event :: rest, pending, dropped⟩ =>
      match validateChannelHistoryEvent writer.identityId event with
      | .error _ =>
          ({ writer with
              enqueueing := some
                { remaining := rest
                  pending := pending
                  dropped := u64SaturatingAdd dropped 1 } },
            [.dropped event])
      | .ok _ =>
          match writer.trySend (.append event) with
          | none =>
              ({ writer with
                  enqueueing := some
                    { remaining := rest
                      pending := pending
                      dropped := u64SaturatingAdd dropped 1 } },
                [.dropped event])
          | some after =>
              ({ after with
                  enqueueing := some
                    { remaining := rest
                      pending := u64SaturatingAdd pending 1
                      dropped := dropped } },
                [.accepted event])

def enqueueParticipant (observation : NewChannelParticipantObservation)
    (writer : ChannelHistoryWriter) : Marked :=
  if !writer.commandTx then (writer, [])
  else
    match validateChannelParticipantObservation writer.identityId observation with
    | .error _ => (writer, [])
    | .ok _ => ((writer.trySend (.observe observation)).getD writer, [])

end Session

/-- Wait for a place in the mailbox with a command that will be answered. -/
def ask (command : Nat → ChannelHistoryCommand)
    (writer : ChannelHistoryWriter) : ChannelHistoryWriter :=
  if writer.worker = .stopped then writer
  else
    { writer with
      mailbox := writer.mailbox.send (command writer.oneshots)
      oneshots := writer.oneshots + 1 }

def barrier (writer : ChannelHistoryWriter) : Marked :=
  if !writer.commandTx || writer.worker = .stopped then (writer, [])
  else (writer.ask .barrier, [.asked writer.oneshots])

def shutdown (writer : ChannelHistoryWriter) : Marked :=
  if !writer.commandTx then (writer, [])
  else ({ writer with stopping := true }.ask .shutdown, [])

/-! ## The worker -/

section Worker

variable [UnicodeTables]

/-- One attempt to append a batch. -/
def appendHistory (writer : ChannelHistoryWriter) (attempt : HistoryAttempt)
    (batch : List NewChannelHistoryEvent) : ChannelHistoryDb.Performed :=
  let performed := writer.db.appendChannelHistoryEvents
    channelHistoryRetention attempt.call writer.identityId batch
    attempt.nowMs
  match attempt.answerLost with
  | none => performed
  | some failure => { performed with result := .error failure }

def pruneHistory (writer : ChannelHistoryWriter)
    (attempt : HistoryAttempt) : ChannelHistoryDb.Performed :=
  let performed := writer.db.perform channelHistoryRetention attempt.call
    (.pruneExpired attempt.nowMs)
  match attempt.answerLost with
  | none => performed
  | some failure => { performed with result := .error failure }

/-- Begin with a command. -/
def begin (command : ChannelHistoryCommand) (writer : ChannelHistoryWriter) : Marked :=
  match command with
  | .append first => ({ writer with worker := .gathering [first] }, [])
  | .observe first => ({ writer with worker := .gatheringObservations [first] }, [])
  | .barrier resultTx =>
      ({ writer with worker := .receiving none }, [.answered resultTx])
  | .shutdown _ => ({ writer with worker := .stopped }, [])

/-- One step of the worker.  A step that needs the lock of the status waits
while the session holds it. -/
def work (attempt : HistoryAttempt) (writer : ChannelHistoryWriter) :
    Marked :=
  match writer.worker with
  | .starting =>
      let performed := writer.pruneHistory attempt
      ({ writer with
          db := performed.tables
          worker := .started performed.result.isOk },
        [])
  | .started pruned =>
      if writer.enqueueing.isSome then (writer, [])
      else
        ({ writer with
            status :=
              if pruned then writer.status.finishChannelHistoryBatch 0
              else writer.status.pruneFailed
            worker := .receiving none },
          [])
  | .receiving (some command) => writer.begin command
  | .receiving none =>
      match writer.mailbox.receive with
      | none => (writer, [])
      | some (command, mailbox) => { writer with mailbox := mailbox }.begin command
  | .gathering batch =>
      if channelHistoryMaxAppendBatch ≤ batch.length then
        ({ writer with worker := .appending batch none }, [])
      else
        match writer.mailbox.receive with
        | none => ({ writer with worker := .appending batch none }, [])
        | some (.append event, mailbox) =>
            ({ writer with
                mailbox := mailbox
                worker := .gathering (batch ++ [event]) },
              [])
        | some (command, mailbox) =>
            ({ writer with
                mailbox := mailbox
                worker := .appending batch (some command) },
              [])
  | .appending batch deferred =>
      let performed := writer.appendHistory attempt batch
      let landed :=
        if performed.landed.isSome then [HistoryMark.landed batch] else []
      match performed.result with
      | .ok _ =>
          ({ writer with
              db := performed.tables
              worker := .finishing batch deferred },
            landed ++ [.acknowledged batch])
      | .error _ =>
          ({ writer with
              db := performed.tables
              worker := .failed batch deferred },
            landed)
  | .finishing batch deferred =>
      if writer.enqueueing.isSome then (writer, [])
      else
        ({ writer with
            status := writer.status.finishChannelHistoryBatch batch.length
            worker := .receiving deferred },
          [.recorded batch])
  | .failed batch deferred =>
      if writer.stopping then ({ writer with worker := .stopped }, [])
      else ({ writer with worker := .reporting batch deferred }, [])
  | .reporting batch deferred =>
      if writer.enqueueing.isSome then (writer, [])
      else
        ({ writer with
            status := writer.status.appendFailed
            worker := .appending batch deferred },
          [])
  | .gatheringObservations batch =>
      if channelParticipantMaxObservationBatch ≤ batch.length then
        ({ writer with worker := .remembering batch none }, [])
      else
        match writer.mailbox.receive with
        | none => ({ writer with worker := .remembering batch none }, [])
        | some (.observe observation, mailbox) =>
            ({ writer with
                mailbox := mailbox
                worker := .gatheringObservations (batch ++ [observation]) },
              [])
        | some (command, mailbox) =>
            ({ writer with
                mailbox := mailbox
                worker := .remembering batch (some command) },
              [])
  | .remembering batch deferred =>
      if attempt.remembers then
        ({ writer with worker := .receiving deferred }, [])
      else ({ writer with worker := .rememberFailed batch deferred }, [])
  | .rememberFailed batch deferred =>
      if writer.stopping then ({ writer with worker := .stopped }, [])
      else ({ writer with worker := .remembering batch deferred }, [])
  | .stopped => (writer, [])

/-! ## Actions -/

def step (writer : ChannelHistoryWriter) :
    HistoryWriterAction → Marked
  | .enqueue events => writer.enqueue events
  | .drain => writer.drain
  | .enqueueParticipant observation => writer.enqueueParticipant observation
  | .barrier => writer.barrier
  | .shutdown => writer.shutdown
  | .enter index =>
      if writer.worker = .stopped then (writer, [])
      else
        ({ writer with mailbox := writer.mailbox.enter index }, [])
  | .leave index => ({ writer with mailbox := writer.mailbox.leave index }, [])
  | .work attempt => writer.work attempt
  | .others call op =>
      ({ writer with
          db := writer.db.step channelHistoryRetention (call, op) },
        [])

end Worker

end ChannelHistoryWriter

end Ratspeak
