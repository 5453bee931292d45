import Mathlib.Data.List.Dedup
import Mathlib.Data.List.Sort
import Ratspeak.Library.Bytes
import Ratspeak.Library.Retention
import Ratspeak.Library.Text
import Ratspeak.Library.Transactions

/-!
# Channel history

The transcript of the channels: one row for each event that was accepted, in
the order of a sequence that is never drawn twice.  Triggers tally the events
of each room.  An append inserts a batch and then prunes: what has expired,
then each room that it touched, the identity and the whole table, so that each
is within a number of events and a number of payload bytes.
-/

namespace Ratspeak

open Library

def channelHistoryRetentionDays : Nat := 90
def channelHistoryMaxEventsPerRoom : Nat := 5000
def channelHistoryMaxEventsPerIdentity : Nat := 50000
def channelHistoryMaxEventsGlobal : Nat := 200000
def channelHistoryMaxPayloadBytesPerRoom : Nat := 8 * 1024 * 1024
def channelHistoryMaxPayloadBytesPerIdentity : Nat := 64 * 1024 * 1024
def channelHistoryMaxPayloadBytesGlobal : Nat := 256 * 1024 * 1024
def channelHistoryMaxAppendBatch : Nat := 256
def channelHistoryMaxRoomBytes : Nat := 256
def channelHistoryMaxEventIdBytes : Nat := 128
def channelHistoryMaxNicknameBytes : Nat := 256
def channelHistoryMaxTextBytes : Nat := 64 * 1024
def javascriptMaxSafeInteger : Nat := 9007199254740991
def millisPerDay : Nat := 24 * 60 * 60 * 1000

inductive ChannelHistoryKind where
  | message
  | notice
  | action
  | join
  | part
  | error
  | system
deriving DecidableEq, Repr

namespace ChannelHistoryKind

def asStorage : ChannelHistoryKind → String
  | message => "message"
  | notice => "notice"
  | action => "action"
  | join => "join"
  | part => "part"
  | error => "error"
  | system => "system"

def allowsMention : ChannelHistoryKind → Bool
  | message => true
  | action => true
  | _ => false

end ChannelHistoryKind

/-- An event that waits to enter the history. -/
structure NewChannelHistoryEvent where
  hubDestinationHash : String
  roomName : String
  eventId : String
  kind : ChannelHistoryKind
  timestampMs : Nat
  sourceHash : Option String
  nickname : Option String
  text : String
  ours : Bool
  mentioned : Bool
deriving DecidableEq, Repr

/-- An identity, a hub and the name of a room there. -/
abbrev ChannelRoom := String × String × String

structure ChannelHistoryRow where
  sequence : Nat
  identityId : String
  event : NewChannelHistoryEvent
  recordedAtMs : Int
deriving DecidableEq, Repr

namespace ChannelHistoryRow

def room (row : ChannelHistoryRow) : ChannelRoom :=
  (row.identityId, row.event.hubDestinationHash, row.event.roomName)

/-- What no two rows share. -/
def key (row : ChannelHistoryRow) : ChannelRoom × String :=
  (row.room, row.event.eventId)

/-- An estimate of what a row takes up. -/
def payloadBytes (row : ChannelHistoryRow) : Nat :=
  128 + row.identityId.utf8ByteSize +
    row.event.hubDestinationHash.utf8ByteSize +
    row.event.roomName.utf8ByteSize + row.event.eventId.utf8ByteSize +
    row.event.kind.asStorage.utf8ByteSize +
    (row.event.sourceHash.getD "").utf8ByteSize +
    (row.event.nickname.getD "").utf8ByteSize + row.event.text.utf8ByteSize

end ChannelHistoryRow

/-- What is remembered of a room beside its history. -/
structure ChannelRoomState where
  lastReadSequence : Nat
  notificationLevel : String
  updatedAtMs : Int
deriving DecidableEq, Repr

/-- The tables; the rows stand in the order of their sequences. -/
structure ChannelHistoryDb where
  rows : List ChannelHistoryRow
  sequencesDrawn : Nat
  roomUsage : FiniteMap ChannelRoom Tally
  roomState : FiniteMap ChannelRoom ChannelRoomState

structure ChannelHistoryRetentionPolicy where
  maxAgeMs : Int
  maxEventsPerRoom : Nat
  maxEventsPerIdentity : Nat
  maxEventsGlobal : Nat
  maxPayloadBytesPerRoom : Nat
  maxPayloadBytesPerIdentity : Nat
  maxPayloadBytesGlobal : Nat
deriving DecidableEq, Repr

def channelHistoryRetention : ChannelHistoryRetentionPolicy where
  maxAgeMs := channelHistoryRetentionDays * millisPerDay
  maxEventsPerRoom := channelHistoryMaxEventsPerRoom
  maxEventsPerIdentity := channelHistoryMaxEventsPerIdentity
  maxEventsGlobal := channelHistoryMaxEventsGlobal
  maxPayloadBytesPerRoom := channelHistoryMaxPayloadBytesPerRoom
  maxPayloadBytesPerIdentity := channelHistoryMaxPayloadBytesPerIdentity
  maxPayloadBytesGlobal := channelHistoryMaxPayloadBytesGlobal

/-- Some ceiling or the age makes no sense. -/
def ChannelHistoryRetentionPolicy.invalid (policy : ChannelHistoryRetentionPolicy) : Bool :=
  policy.maxAgeMs < 0 || policy.maxEventsPerRoom = 0 ||
    policy.maxEventsPerIdentity = 0 || policy.maxEventsGlobal = 0 ||
    policy.maxPayloadBytesPerRoom = 0 ||
    policy.maxPayloadBytesPerIdentity = 0 ||
    policy.maxPayloadBytesGlobal = 0

/-! ## Validation -/

section Validation

variable [UnicodeTables]

def isCanonicalChannelHash (value : String) : Bool :=
  value.utf8ByteSize = 32 && value.toList.all fun char =>
    ('0' ≤ char && char ≤ '9') || ('a' ≤ char && char ≤ 'f')

def validateChannelHistoryScope (identityId hubDestinationHash roomName : String) :
    Except String Unit :=
  if !isCanonicalChannelHash identityId then
    .error "invalid Channels history identity"
  else if !isCanonicalChannelHash hubDestinationHash then
    .error "invalid Channels history hub destination"
  else if roomName.isEmpty ||
      channelHistoryMaxRoomBytes < roomName.utf8ByteSize ||
      trim roomName ≠ roomName || toLowercase roomName ≠ roomName then
    .error "invalid normalized Channels history room"
  else .ok ()

def validateChannelHistoryEvent (identityId : String)
    (event : NewChannelHistoryEvent) : Except String Unit := do
  validateChannelHistoryScope identityId event.hubDestinationHash event.roomName
  if event.eventId.isEmpty ||
      channelHistoryMaxEventIdBytes < event.eventId.utf8ByteSize ||
      event.eventId.toList.any isControl then
    .error "invalid Channels history event id"
  else if javascriptMaxSafeInteger < event.timestampMs then
    .error "Channels history timestamp exceeds the safe display range"
  else if event.sourceHash.any fun source =>
      !isCanonicalChannelHash source then
    .error "invalid Channels history source"
  else if event.nickname.any fun nickname =>
      channelHistoryMaxNicknameBytes < nickname.utf8ByteSize then
    .error "Channels history nickname is too long"
  else if channelHistoryMaxTextBytes < event.text.utf8ByteSize then
    .error "Channels history text is too long"
  else if event.mentioned && (event.ours || !event.kind.allowsMention) then
    .error "invalid Channels history mention classification"
  else .ok ()

end Validation

/-! ## Statements -/

namespace ChannelHistoryDb

/-- Tables without a row. -/
def fresh : ChannelHistoryDb where
  rows := []
  sequencesDrawn := 0
  roomUsage := ∅
  roomState := ∅

/-- Insert an event unless there is one with its key; the trigger tallies it.
The sequence of the row is returned if it was inserted, and drawn anyway. -/
def insertEvent (identityId : String) (recordedAtMs : Int)
    (event : NewChannelHistoryEvent) (db : ChannelHistoryDb) :
    Option Nat × ChannelHistoryDb :=
  let row : ChannelHistoryRow :=
    { sequence := db.sequencesDrawn + 1
      identityId := identityId
      event := event
      recordedAtMs := recordedAtMs }
  if db.rows.any fun other => other.key = row.key then
    (none, { db with sequencesDrawn := row.sequence })
  else
    (some row.sequence,
      { db with
        rows := db.rows ++ [row]
        sequencesDrawn := row.sequence
        roomUsage := Tally.afterInsert ChannelHistoryRow.room
          ChannelHistoryRow.payloadBytes row db.roomUsage })

/-- Remember the room of an event, if it is new. -/
def noteRoom (identityId : String) (recordedAtMs : Int)
    (event : NewChannelHistoryEvent) (db : ChannelHistoryDb) :
    ChannelHistoryDb :=
  let room := (identityId, event.hubDestinationHash, event.roomName)
  if (db.roomState.lookup room).isSome then db
  else
    { db with
      roomState := db.roomState.insert room
        { lastReadSequence := 0
          notificationLevel := "mentions"
          updatedAtMs := recordedAtMs } }

/-- Delete rows; the trigger tallies each of them.  Their number is
returned. -/
def deleteWhere (selects : ChannelHistoryRow → Bool)
    (db : ChannelHistoryDb) : Nat × ChannelHistoryDb :=
  let deleted := db.rows.filter selects
  (deleted.length,
    { db with
      rows := db.rows.filter fun row => !selects row
      roomUsage := deleted.foldl
        (fun usage row => Tally.afterDelete ChannelHistoryRow.room
          ChannelHistoryRow.payloadBytes row usage)
        db.roomUsage })

end ChannelHistoryDb

/-- The smallest number of 64 bits with a sign. -/
def clockFloor : Int := -(2 ^ 63)

/-- What was recorded before this has expired. -/
def historyCutoff (nowMs maxAgeMs : Int) : Int :=
  max clockFloor (nowMs - maxAgeMs)

abbrev HistoryTx := Tx ChannelHistoryDb String

/-! ## Ceilings -/

inductive ChannelHistoryRetentionScope where
  | room (room : ChannelRoom)
  | identity (identityId : String)
  | global
deriving DecidableEq, Repr

namespace ChannelHistoryRetentionScope

/-- The rooms in the scope. -/
def covers : ChannelHistoryRetentionScope → ChannelRoom → Bool
  | .room named, other => other = named
  | .identity owner, other => other.1 = owner
  | .global, _ => true

def rows (scope : ChannelHistoryRetentionScope) (db : ChannelHistoryDb) :
    List ChannelHistoryRow :=
  db.rows.filter fun row => scope.covers row.room

end ChannelHistoryRetentionScope

def channelHistoryUsage (scope : ChannelHistoryRetentionScope)
    (db : ChannelHistoryDb) : Int × Int :=
  match scope with
  | .room room =>
      match db.roomUsage.lookup room with
      | none => (0, 0)
      | some usage => (usage.count, usage.size)
  | scope =>
      let usages := Tally.select scope.covers db.roomUsage
      ((usages.map Tally.count).sum, (usages.map Tally.size).sum)

/-- The statement that removes what is in excess of a ceiling. -/
def channelHistoryPrune (scope : ChannelHistoryRetentionScope)
    (excessCount excessBytes : Int) (db : ChannelHistoryDb) :
    Nat × ChannelHistoryDb :=
  let sequences :=
    (excessRows ChannelHistoryRow.payloadBytes excessCount excessBytes
      (scope.rows db)).map ChannelHistoryRow.sequence
  db.deleteWhere fun row => row.sequence ∈ sequences

def pruneChannelHistoryScope (scope : ChannelHistoryRetentionScope)
    (maxEvents maxPayloadBytes : Nat) : HistoryTx Nat := do
  Tx.require (maxEvents < 2 ^ 63) "Channels history event limit is too large"
  Tx.require (maxPayloadBytes < 2 ^ 63) "Channels history payload limit is too large"
  let usage ← Tx.query (channelHistoryUsage scope)
  let excessCount := usage.1 - maxEvents
  let excessBytes := usage.2 - maxPayloadBytes
  if excessCount = 0 && excessBytes = 0 then pure 0
  else Tx.statement (channelHistoryPrune scope excessCount excessBytes)

/-! ## Appending -/

structure ChannelHistoryInsertedEvent where
  batchIndex : Nat
  sequence : String
deriving DecidableEq, Repr

structure ChannelHistoryAppendOutcome where
  inserted : Nat := 0
  duplicates : Nat := 0
  pruned : Nat := 0
  latestSequence : Option String := none
  insertedEvents : List ChannelHistoryInsertedEvent := []
deriving DecidableEq, Repr

def appendEvent (identityId : String) (recordedAtMs : Int)
    (entry : NewChannelHistoryEvent × Nat) :
    HistoryTx (Option ChannelHistoryInsertedEvent) := do
  let inserted ← Tx.statement (ChannelHistoryDb.insertEvent identityId recordedAtMs entry.1)
  Tx.execute (ChannelHistoryDb.noteRoom identityId recordedAtMs entry.1)
  pure (inserted.map fun sequence =>
    { batchIndex := entry.2, sequence := toString sequence })

/-- The rooms of a batch, in order and each of them once. -/
def touchedRooms (identityId : String)
    (events : List NewChannelHistoryEvent) : List ChannelRoom :=
  ((events.map fun event =>
    (event.hubDestinationHash, event.roomName)).dedup.mergeSort
      fun first second => first.1 < second.1 ||
        first.1 = second.1 && first.2 ≤ second.2).map
    fun room => (identityId, room)

def latestSequence (identityId : String) (db : ChannelHistoryDb) :
    Option Nat :=
  ((db.rows.filter fun row => row.identityId = identityId).map
    ChannelHistoryRow.sequence).max?

def appendProgram (identityId : String)
    (events : List NewChannelHistoryEvent) (recordedAtMs : Int)
    (retention : ChannelHistoryRetentionPolicy) :
    HistoryTx ChannelHistoryAppendOutcome := do
  let appended ← Tx.forEach (appendEvent identityId recordedAtMs) events.zipIdx
  let expired ← Tx.statement (ChannelHistoryDb.deleteWhere fun row =>
    row.recordedAtMs < historyCutoff recordedAtMs retention.maxAgeMs)
  let byRoom ← Tx.forEach
    (fun room => pruneChannelHistoryScope (.room room)
      retention.maxEventsPerRoom retention.maxPayloadBytesPerRoom)
    (touchedRooms identityId events)
  let byIdentity ← pruneChannelHistoryScope (.identity identityId)
    retention.maxEventsPerIdentity retention.maxPayloadBytesPerIdentity
  let byAll ← pruneChannelHistoryScope .global retention.maxEventsGlobal
    retention.maxPayloadBytesGlobal
  let latest ← Tx.query (latestSequence identityId)
  let insertedEvents := appended.filterMap id
  pure
    { inserted := insertedEvents.length
      duplicates := events.length - insertedEvents.length
      pruned := expired + byRoom.sum + byIdentity + byAll
      latestSequence := latest.map toString
      insertedEvents := insertedEvents }

/-! ## Operations -/

inductive ChannelHistoryOp where
  | append (identityId : String) (events : List NewChannelHistoryEvent)
      (recordedAtMs : Int)
  | pruneExpired (nowMs : Int)
  | clearRoom (identityId hubDestinationHash roomName : String)
  | clearIdentity (identityId : String)

inductive ChannelHistoryAnswer where
  | appended (outcome : ChannelHistoryAppendOutcome)
  | deleted (count : Nat)

/-- What an operation meets with: a connection that cannot be had, statements
that fail, and a commit that does not go through. -/
structure ChannelHistoryCall where
  connection : Option String
  fares : Nat → Option String
  commitFails : Option String

namespace ChannelHistoryDb

abbrev Performed := Attempt ChannelHistoryDb String ChannelHistoryAnswer

def transact {Value : Type} (db : ChannelHistoryDb)
    (call : ChannelHistoryCall) (program : HistoryTx Value)
    (answer : Value → ChannelHistoryAnswer) : Performed :=
  Tx.immediate
    { connection := call.connection
      fares := call.fares
      commit := if call.commitFails.isSome then .lost else .done }
    (call.commitFails.getD "")
    (do
      let value ← program
      pure (answer value))
    db

/-- Refused before anything was done. -/
def refuse (db : ChannelHistoryDb) (failure : String) : Performed :=
  { result := .error failure, tables := db, landed := none }

variable [UnicodeTables]

def appendChannelHistoryEvents (retention : ChannelHistoryRetentionPolicy)
    (db : ChannelHistoryDb) (call : ChannelHistoryCall)
    (identityId : String) (events : List NewChannelHistoryEvent)
    (recordedAtMs : Int) : Performed :=
  if channelHistoryMaxAppendBatch < events.length then
    db.refuse "Channels history batch exceeds 256 events"
  else if recordedAtMs < 0 || retention.invalid then
    db.refuse "invalid Channels history retention policy"
  else if events.isEmpty then
    { result := .ok (.appended {})
      tables := db
      landed := some (.appended {}) }
  else
    match events.mapM (validateChannelHistoryEvent identityId) with
    | .error failure => db.refuse failure
    | .ok _ =>
        db.transact call (appendProgram identityId events recordedAtMs retention) .appended

def perform (retention : ChannelHistoryRetentionPolicy)
    (db : ChannelHistoryDb) (call : ChannelHistoryCall) :
    ChannelHistoryOp → Performed
  | .append identityId events recordedAtMs =>
      db.appendChannelHistoryEvents retention call identityId events recordedAtMs
  | .pruneExpired nowMs =>
      db.transact call
        (Tx.statement (deleteWhere fun row =>
          row.recordedAtMs < historyCutoff nowMs retention.maxAgeMs))
        .deleted
  | .clearRoom identityId hubDestinationHash roomName =>
      match validateChannelHistoryScope identityId hubDestinationHash roomName with
      | .error failure => db.refuse failure
      | .ok _ =>
          db.transact call
            (Tx.statement (deleteWhere fun row =>
              row.room = (identityId, hubDestinationHash, roomName)))
            .deleted
  | .clearIdentity identityId =>
      if !isCanonicalChannelHash identityId then
        db.refuse "invalid Channels history identity"
      else
        db.transact call
          (Tx.statement (deleteWhere fun row =>
            row.identityId = identityId))
          .deleted

/-- The tables after an operation. -/
def step (retention : ChannelHistoryRetentionPolicy) (db : ChannelHistoryDb)
    (input : ChannelHistoryCall × ChannelHistoryOp) : ChannelHistoryDb :=
  (db.perform retention input.1 input.2).tables

end ChannelHistoryDb

end Ratspeak
