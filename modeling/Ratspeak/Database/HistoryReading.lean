import Ratspeak.Database.History
import Ratspeak.Library.Attempts
import Ratspeak.Library.Decimal
import Ratspeak.Library.Paging
import Ratspeak.Library.Relational

/-!
# Reading the channel history

A room is read page by page.  A page is cut off at a cursor, which is the
sequence of an event that was seen and is not part of the page; it says
whether there is more, and from where to go on.  Beside its history a room has
a mark up to where it was read, and what is unread is counted from there.
-/

namespace Ratspeak

open Library

def channelHistoryMaxPageSize : Nat := 200

inductive ChannelRoomNotificationLevel where
  | all
  | mentions
  | mute
deriving DecidableEq, Repr

namespace ChannelRoomNotificationLevel

def asStorage : ChannelRoomNotificationLevel → String
  | all => "all"
  | mentions => "mentions"
  | mute => "mute"

def fromStorage (value : String) : Option ChannelRoomNotificationLevel :=
  if value = "all" then some all
  else if value = "mentions" then some mentions
  else if value = "mute" then some mute
  else none

/-- The level of a room for which nothing else was said. -/
def default : ChannelRoomNotificationLevel :=
  mentions

end ChannelRoomNotificationLevel

/-! ## Cursors -/

/-- The cursor before which a page ends. -/
def parseChannelHistoryCursor (before : Option String) :
    Except String (Option Int) :=
  match before with
  | none => .ok none
  | some before => do
      refuseIf (before.isEmpty ∨ before = "0" ∨
          before.toList.head? = some '0' ∨
          ¬before.toList.all Char.isDigit)
        "invalid Channels history cursor"
      let sequence ← okOr (parseI64 before) "invalid Channels history cursor"
      refuseIf (sequence ≤ 0) "invalid Channels history cursor"
      .ok (some sequence)

/-- The cursor after which a page begins. -/
def parseChannelHistoryAfterCursor (after : String) : Except String Int := do
  refuseIf (after.isEmpty ∨
      (after.toList.head? = some '0' ∧ after ≠ "0") ∨
      ¬after.toList.all Char.isDigit)
    "invalid Channels history forward cursor"
  let sequence ← okOr (parseI64 after) "invalid Channels history forward cursor"
  refuseIf (sequence < 0) "invalid Channels history forward cursor"
  .ok sequence

/-! ## Pages -/

/-- An event as a reader sees it. -/
structure ChannelHistoryEvent where
  sequence : String
  hubDestinationHash : String
  roomName : String
  eventId : String
  kind : ChannelHistoryKind
  timestampMs : Nat
  recordedAtMs : Nat
  sourceHash : Option String
  sourceLxmfHash : Option String
  nickname : Option String
  text : String
  ours : Bool
  mentioned : Bool
deriving DecidableEq, Repr

structure ChannelHistoryPage where
  items : List ChannelHistoryEvent
  nextBefore : Option String
  nextAfter : Option String
  hasMore : Bool
deriving DecidableEq, Repr

/-- A row without the check of its clock. -/
def ChannelHistoryRow.shown (row : ChannelHistoryRow) :
    ChannelHistoryEvent where
  sequence := toString row.sequence
  hubDestinationHash := row.event.hubDestinationHash
  roomName := row.event.roomName
  eventId := row.event.eventId
  kind := row.event.kind
  timestampMs := row.event.timestampMs
  recordedAtMs := row.recordedAtMs.toNat
  sourceHash := row.event.sourceHash
  sourceLxmfHash := none
  nickname := row.event.nickname
  text := row.event.text
  ours := row.event.ours
  mentioned := row.event.mentioned

def channelHistoryRow (row : ChannelHistoryRow) :
    Except String ChannelHistoryEvent := do
  refuseIf (row.recordedAtMs < 0)
    ("Conversion error from type Integer at index: 6, " ++
      "out of range integral type conversion attempted")
  .ok row.shown

/-- The rows of a room of an identity. -/
def ChannelHistoryDb.rowsOf (db : ChannelHistoryDb) (room : ChannelRoom) :
    List ChannelHistoryRow :=
  db.rows.filter fun row => row.room = room

namespace ChannelHistoryCall

/-- A query outside of a transaction. -/
def read {Value : Type} (call : ChannelHistoryCall) (value : Value) :
    Except String Value :=
  match call.connection, call.fares 0 with
  | some failure, _ => .error failure
  | none, some failure => .error failure
  | none, none => .ok value

def circumstances (call : ChannelHistoryCall) : Circumstances String where
  connection := call.connection
  fares := call.fares
  commit := if call.commitFails.isSome then .lost else .done

end ChannelHistoryCall

namespace ChannelHistoryDb

variable [UnicodeTables]

def listChannelHistory (db : ChannelHistoryDb) (call : ChannelHistoryCall)
    (identityId hubDestinationHash roomName : String) (before : Option String) (limit : Nat) :
    Except String ChannelHistoryPage := do
  validateChannelHistoryScope identityId hubDestinationHash roomName
  refuseIf (limit = 0 ∨ channelHistoryMaxPageSize < limit)
    s!"Channels history page size must be between 1 and { channelHistoryMaxPageSize}"
  let before ← parseChannelHistoryCursor before
  refuseIf (i64Max < limit + 1) "Channels history page size is too large"
  let rows ← call.read (downwards ChannelHistoryRow.sequence (limit + 1)
    ((db.rowsOf (identityId, hubDestinationHash, roomName)).filter
      fun row => before.all fun cursor => (row.sequence : Int) < cursor))
  let found ← rows.mapM channelHistoryRow
  let hasMore := decide (limit < found.length)
  let items := (found.take limit).reverse
  .ok
    { items := items
      nextBefore :=
        if hasMore then items.head?.map ChannelHistoryEvent.sequence
        else none
      nextAfter := items.getLast?.map ChannelHistoryEvent.sequence
      hasMore := hasMore }

def listChannelHistoryAfter (db : ChannelHistoryDb) (call : ChannelHistoryCall)
    (identityId hubDestinationHash roomName : String) (after : String)
    (limit : Nat) : Except String ChannelHistoryPage := do
  validateChannelHistoryScope identityId hubDestinationHash roomName
  refuseIf (limit = 0 ∨ channelHistoryMaxPageSize < limit)
    s!"Channels history page size must be between 1 and { channelHistoryMaxPageSize}"
  let after ← parseChannelHistoryAfterCursor after
  refuseIf (i64Max < limit + 1) "Channels history page size is too large"
  let rows ← call.read (upwards ChannelHistoryRow.sequence (limit + 1)
    ((db.rowsOf (identityId, hubDestinationHash, roomName)).filter
      fun row => after < (row.sequence : Int)))
  let found ← rows.mapM channelHistoryRow
  let items := found.take limit
  .ok
    { items := items
      nextBefore := none
      nextAfter := items.getLast?.map ChannelHistoryEvent.sequence
      hasMore := decide (limit < found.length) }

end ChannelHistoryDb

/-! ## Read marks -/

structure ChannelRoomReadState where
  hubDestinationHash : String
  roomName : String
  lastReadSequence : String
  notificationLevel : ChannelRoomNotificationLevel
deriving DecidableEq, Repr

def channelRoomReadState (hubDestinationHash roomName : String)
    (stored : Option ChannelRoomState) :
    Except String ChannelRoomReadState := do
  let (lastReadSequence, notificationLevel) :=
    (stored.map fun state =>
      (state.lastReadSequence, state.notificationLevel)).getD
      (0, ChannelRoomNotificationLevel.default.asStorage)
  let notificationLevel ←
    okOr (ChannelRoomNotificationLevel.fromStorage notificationLevel)
      "invalid stored Channels notification level"
  .ok
    { hubDestinationHash := hubDestinationHash
      roomName := roomName
      lastReadSequence := toString lastReadSequence
      notificationLevel := notificationLevel }

namespace ChannelHistoryDb

def queryChannelRoomReadState (room : ChannelRoom) (db : ChannelHistoryDb) :
    Option ChannelRoomState :=
  db.roomState.lookup room

/-- Set the mark of a room, unless it stands there or further on. -/
def advanceLastRead (room : ChannelRoom) (through : Nat) (nowMs : Int)
    (db : ChannelHistoryDb) : ChannelHistoryDb :=
  match db.roomState.lookup room with
  | none =>
      { db with
        roomState := db.roomState.insert room
          { lastReadSequence := through
            notificationLevel := "mentions"
            updatedAtMs := nowMs } }
  | some state =>
      if state.lastReadSequence < through then
        { db with
          roomState := db.roomState.insert room
            { state with
              lastReadSequence := through
              updatedAtMs := nowMs } }
      else db

/-- Set the level of a room.  One that is new is read to its end. -/
def storeLevel (room : ChannelRoom) (level : ChannelRoomNotificationLevel)
    (nowMs : Int) (db : ChannelHistoryDb) : ChannelHistoryDb :=
  { db with
    roomState := db.roomState.insert room
      (match db.roomState.lookup room with
      | none =>
          { lastReadSequence :=
              ((db.rowsOf room).map ChannelHistoryRow.sequence).max?.getD 0
            notificationLevel := level.asStorage
            updatedAtMs := nowMs }
      | some state =>
          { state with
            notificationLevel := level.asStorage
            updatedAtMs := nowMs }) }

/-- What saving a room with a topic does to the tables of the history. -/
def storeTopic (room : ChannelRoom) (nowMs : Int) (db : ChannelHistoryDb) :
    ChannelHistoryDb :=
  { db with
    roomState := db.roomState.insert room
      (match db.roomState.lookup room with
      | none =>
          { lastReadSequence := 0
            notificationLevel := "mentions"
            updatedAtMs := nowMs }
      | some state => { state with updatedAtMs := nowMs }) }

/-- What deleting an identity with all that it has does to the tables of the
history. -/
def deleteIdentityRows (identityId : String) (db : ChannelHistoryDb) :
    ChannelHistoryDb :=
  let deleted :=
    (db.deleteWhere fun row => row.identityId = identityId).2
  { deleted with
    roomUsage := FiniteMap.retain (fun room _ => room.1 ≠ identityId)
      deleted.roomUsage
    roomState := FiniteMap.retain (fun room _ => room.1 ≠ identityId)
      deleted.roomState }

end ChannelHistoryDb

/-- Return the state of a room as it stands in the tables. -/
def answerReadState (hubDestinationHash roomName : String)
    (room : ChannelRoom) : HistoryTx ChannelRoomReadState := do
  let stored ← Tx.query (ChannelHistoryDb.queryChannelRoomReadState room)
  match channelRoomReadState hubDestinationHash roomName stored with
  | .error failure => throw failure
  | .ok state => pure state

/-- Advance the mark to an event that must belong to the room. -/
def advanceProgram (room : ChannelRoom) (through : Nat) (nowMs : Int) :
    HistoryTx PUnit := do
  let belongsToRoom ← Tx.query fun db =>
    (db.rowsOf room).any fun row => row.sequence = through
  Tx.require belongsToRoom "Channels read cursor does not belong to this room"
  Tx.execute (ChannelHistoryDb.advanceLastRead room through nowMs)

def markReadProgram (hubDestinationHash roomName : String)
    (room : ChannelRoom) (through : Nat) (nowMs : Int) :
    HistoryTx ChannelRoomReadState := do
  let stored ← Tx.query (ChannelHistoryDb.queryChannelRoomReadState room)
  let current :=
    (stored.map ChannelRoomState.lastReadSequence).getD 0
  if current < through then
    advanceProgram room through nowMs
    answerReadState hubDestinationHash roomName room
  else answerReadState hubDestinationHash roomName room

def setLevelProgram (hubDestinationHash roomName : String)
    (room : ChannelRoom) (level : ChannelRoomNotificationLevel)
    (nowMs : Int) : HistoryTx ChannelRoomReadState := do
  Tx.execute (ChannelHistoryDb.storeLevel room level nowMs)
  answerReadState hubDestinationHash roomName room

namespace ChannelHistoryDb

variable [UnicodeTables]

abbrev ReadAttempt := Attempt ChannelHistoryDb String ChannelRoomReadState

def refuseRead (db : ChannelHistoryDb) (failure : String) : ReadAttempt :=
  { result := .error failure, tables := db, landed := none }

def getChannelRoomReadState (db : ChannelHistoryDb) (call : ChannelHistoryCall)
    (identityId hubDestinationHash roomName : String) :
    Except String ChannelRoomReadState := do
  validateChannelHistoryScope identityId hubDestinationHash roomName
  let stored ← call.read (db.queryChannelRoomReadState
    (identityId, hubDestinationHash, roomName))
  channelRoomReadState hubDestinationHash roomName stored

def markChannelRoomRead (db : ChannelHistoryDb) (call : ChannelHistoryCall)
    (identityId hubDestinationHash roomName through : String) (nowMs : Int) : ReadAttempt :=
  match validateChannelHistoryScope identityId hubDestinationHash roomName with
  | .error failure => db.refuseRead failure
  | .ok _ =>
      match parseChannelHistoryAfterCursor through with
      | .error failure => db.refuseRead failure
      | .ok through =>
          Tx.immediate call.circumstances (call.commitFails.getD "")
            (markReadProgram hubDestinationHash roomName
              (identityId, hubDestinationHash, roomName) through.toNat nowMs)
            db

def setChannelRoomNotificationLevel (db : ChannelHistoryDb) (call : ChannelHistoryCall)
    (identityId hubDestinationHash roomName : String)
    (level : ChannelRoomNotificationLevel) (nowMs : Int) : ReadAttempt :=
  match validateChannelHistoryScope identityId hubDestinationHash roomName with
  | .error failure => db.refuseRead failure
  | .ok _ =>
      Tx.immediate call.circumstances (call.commitFails.getD "")
        (setLevelProgram hubDestinationHash roomName
          (identityId, hubDestinationHash, roomName) level nowMs)
        db

end ChannelHistoryDb

/-! ## What is unread -/

namespace UnreadGroup

end UnreadGroup

namespace ChannelUnreadSummary

end ChannelUnreadSummary

namespace ChannelHistoryDb

end ChannelHistoryDb

/-! ## The tables over time -/

/-- What changes the tables of the history. -/
inductive ChannelHistoryChange where
  | history (op : ChannelHistoryOp)
  | markRead (identityId hubDestinationHash roomName through : String)
      (nowMs : Int)
  | setLevel (identityId hubDestinationHash roomName : String)
      (level : ChannelRoomNotificationLevel) (nowMs : Int)
  | saveTopic (identityId hubDestinationHash roomName : String)
      (nowMs : Int)
  | deleteIdentity (identityId : String)

namespace ChannelHistoryDb

variable [UnicodeTables]

/-- A row that would need a sequence past the last of 64 bits is refused, and
what wanted it fails as a whole. -/
def withinSequences (before after : ChannelHistoryDb) : ChannelHistoryDb :=
  if after.sequencesDrawn ≤ i64Max then after else before

/-- The tables after a change. -/
def change (retention : ChannelHistoryRetentionPolicy)
    (db : ChannelHistoryDb) (call : ChannelHistoryCall) :
    ChannelHistoryChange → ChannelHistoryDb
  | .history op => withinSequences db (db.step retention (call, op))
  | .markRead identityId hubDestinationHash roomName through nowMs =>
      (db.markChannelRoomRead call identityId hubDestinationHash roomName through nowMs).tables
  | .setLevel identityId hubDestinationHash roomName level nowMs =>
      (db.setChannelRoomNotificationLevel call identityId hubDestinationHash
        roomName level nowMs).tables
  | .saveTopic identityId hubDestinationHash roomName nowMs =>
      (Tx.immediate call.circumstances (call.commitFails.getD "")
        (Tx.execute (storeTopic (identityId, hubDestinationHash, roomName) nowMs)) db).tables
  | .deleteIdentity identityId =>
      (Tx.immediate call.circumstances (call.commitFails.getD "")
        (Tx.execute (deleteIdentityRows identityId)) db).tables

end ChannelHistoryDb

/-! ## A reader -/

/-- A reader of a room: what it has collected, from where it goes on to older
events, if there are any, and after which event newer ones follow. -/
structure ChannelHistoryReader where
  items : List ChannelHistoryEvent
  nextBefore : Option String
  latestSequence : String
deriving DecidableEq, Repr

namespace ChannelHistoryReader

/-- A reader that has the newest page. -/
def start (page : ChannelHistoryPage) : ChannelHistoryReader where
  items := page.items
  nextBefore := page.nextBefore
  latestSequence := page.nextAfter.getD "0"

def older (reader : ChannelHistoryReader) (page : ChannelHistoryPage) :
    ChannelHistoryReader :=
  { reader with
    items := page.items ++ reader.items
    nextBefore := page.nextBefore }

def newer (reader : ChannelHistoryReader) (page : ChannelHistoryPage) :
    ChannelHistoryReader :=
  { reader with
    items := reader.items ++ page.items
    latestSequence := page.nextAfter.getD reader.latestSequence }

end ChannelHistoryReader

/-- A change of the tables, or a page that the reader asks for. -/
inductive PagingStep where
  | change (call : ChannelHistoryCall) (change : ChannelHistoryChange)
  | older (call : ChannelHistoryCall) (limit : Nat)
  | newer (call : ChannelHistoryCall) (limit : Nat)

/-- The tables, and a reader that pages a room of them. -/
structure ChannelHistorySession where
  db : ChannelHistoryDb
  reader : ChannelHistoryReader

namespace ChannelHistorySession

variable [UnicodeTables]

/-- A page that cannot be had leaves the reader as it is. -/
def step (retention : ChannelHistoryRetentionPolicy)
    (identityId hubDestinationHash roomName : String) (session : ChannelHistorySession) :
    PagingStep → ChannelHistorySession
  | .change call change =>
      { session with db := session.db.change retention call change }
  | .older call limit =>
      match session.reader.nextBefore with
      | none => session
      | some before =>
          match session.db.listChannelHistory call identityId
            hubDestinationHash roomName (some before) limit with
          | .error _ => session
          | .ok page => { session with reader := session.reader.older page }
  | .newer call limit =>
      match session.db.listChannelHistoryAfter call identityId
        hubDestinationHash roomName session.reader.latestSequence limit with
      | .error _ => session
      | .ok page => { session with reader := session.reader.newer page }

end ChannelHistorySession

end Ratspeak
