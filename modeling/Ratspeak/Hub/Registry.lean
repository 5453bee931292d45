import Ratspeak.Hub.Turn

/-!
# The durable registry

Registered rooms outlive the hub.  Here is how a hub starts from stored rows,
how it projects a live room to its row, what it remembers of writes that
failed and how it retries them, and what the database makes of a write.
-/

namespace Ratspeak

open Library

/-! ## Start -/

/-- Decode a key column of a fixed length. -/
def decodeColumn (length : Nat) (column : String) : Option (Bytes length) :=
  (hexDecode column).bind (Bytes.ofList length)

def decodeRoomKey (row : HubRoomRow) : Option RoomKeyDigest :=
  if row.keyMac.isEmpty then none
  else
    match decodeColumn 16 row.keySalt, decodeColumn 32 row.keyMac,
        decodeColumn 8 row.keyPepperId with
    | some salt, some mac, some pepperId => some { salt, mac, pepperId }
    | _, _, _ => none

/-- Enter one stored grant into a room. -/
def restoreGrant (now : WallTime) (room : HubRoom)
    (grant : String × String × WallTime) : HubRoom :=
  match decodeColumn 16 grant.2.1 with
  | none => room
  | some identity =>
      if grant.1 = "op" then { room with ops := room.ops.insert identity }
      else if grant.1 = "voice" then
        { room with voiced := room.voiced.insert identity }
      else if grant.1 = "ban" then
        { room with bans := room.bans.insert identity }
      else if grant.1 = "invite" ∧ now < grant.2.2 then
        { room with invited := room.invited.insert identity grant.2.2 }
      else room

/-- The room a stored row describes.  A key that does not decode, or that
another hub identity wrote, is left out. -/
def restoreRoom (pepperId : Bytes 8) (now : WallTime) (row : HubRoomRow) :
    HubRoom :=
  row.grants.foldl (restoreGrant now)
    { registered := true
      topic := if row.topic.isEmpty then none else some row.topic
      key := (decodeRoomKey row).filter fun digest =>
        digest.pepperId == pepperId
      moderated := row.moderated
      inviteOnly := row.inviteOnly
      topicOpsOnly := row.topicOpsOnly
      noOutsideMsgs := row.noOutsideMsgs
      isPrivate := row.isPrivate
      lastUsed := row.lastUsed }

namespace HubCore

section Start

variable [UnicodeTables]

/-- Rebuild one live room.  A row whose name is not in normal form is left on
disk only. -/
def restoreRow (now : WallTime) (core : HubCore) (row : HubRoomRow) :
    HubCore :=
  match core.normRoom row.roomName with
  | .error _ => core
  | .ok roomName =>
      if roomName ≠ row.roomName then core
      else
        { core with
          rooms := core.rooms.insert roomName (restoreRoom core.pepperId now row) }

def restore (core : HubCore) (now : WallTime) (restored : List HubRoomRow) :
    HubCore :=
  restored.foldl (restoreRow now) core

/-- The first eight bytes of the hub's own hash. -/
def pepperIdOf (hubHash : IdentityHash) : Bytes 8 :=
  ⟨hubHash.val.take 8, by simp [hubHash.property]⟩

/-- A hub that starts from stored klines and rooms. -/
def new (config : ChannelHubConfig) (hubHash : IdentityHash)
    (klines : FiniteSet IdentityHash) (admission : AdmissionState)
    (pepper : Bytes 32) (restored : List HubRoomRow) (ambient : Ambient) :
    HubCore :=
  restore
    { config := config
      hubHash := hubHash
      sessions := ∅
      rooms := ∅
      byIdentity := ∅
      serverOps := FiniteSet.ofList config.serverOperators
      klines := config.bannedIdentities.foldl
        (fun members identity => members.insert identity) klines
      admission := admission
      pepper := pepper
      pepperId := pepperIdOf hubHash
      startedWall := ambient.unix
      klinesDirty := false
      pendingRemovals := ∅
      stats := {}
      startedAt := ambient.instant
      roomTokens := ∅
      tokensDrawn := 0 }
    ambient.unix restored

end Start

end HubCore

/-! ## Projection -/

/-- The columns of a stored grant list. -/
def grantRows (room : HubRoom) : List (String × String × WallTime) :=
  room.ops.toList.map (fun subject => ("op", hexEncode subject.val, 0)) ++
    room.voiced.toList.map (fun subject => ("voice", hexEncode subject.val, 0)) ++
    room.bans.toList.map (fun subject => ("ban", hexEncode subject.val, 0)) ++
    (FiniteMap.bindings room.invited).map
      fun entry => ("invite", hexEncode entry.1.val, entry.2)

/-- The durable form of a room. -/
def projectRoom (roomName : String) (room : HubRoom) : HubRoomRow where
  roomName := roomName
  topic := room.topic.getD ""
  keySalt := (room.key.map fun key => hexEncode key.salt.val).getD ""
  keyMac := (room.key.map fun key => hexEncode key.mac.val).getD ""
  keyPepperId := (room.key.map fun key => hexEncode key.pepperId.val).getD ""
  moderated := room.moderated
  inviteOnly := room.inviteOnly
  topicOpsOnly := room.topicOpsOnly
  noOutsideMsgs := room.noOutsideMsgs
  isPrivate := room.isPrivate
  lastUsed := room.lastUsed
  grants := grantRows room

/-- A room as it is right before its projection is queued: expired invites
dropped, and nothing of it outstanding any more. -/
def HubRoom.settle (now : WallTime) (room : HubRoom) : HubRoom :=
  { room with
    invited := FiniteMap.retain (fun _ expires => now < expires) room.invited
    lastUsedDirty := false
    persistDirty := false }

namespace HubTurn

def pushPersist (turn : HubTurn) (op : HubRoomOp) (origin : Option LinkId)
    (room : Option String) : HubTurn :=
  turn.push (.persist { op, origin, room })

/-- Queue the durable form of a registered room. -/
def persistRoom (turn : HubTurn) (roomName : String) (origin : Option LinkId) : HubTurn :=
  match turn.core.rooms.lookup roomName with
  | none => turn
  | some room =>
      if !room.registered then turn
      else
        (turn.modifyRoom roomName (HubRoom.settle turn.ambient.unix)).pushPersist
          (.upsert (projectRoom roomName (room.settle turn.ambient.unix)))
          origin (some roomName)

def persistKlines (turn : HubTurn) (origin : Option LinkId) : HubTurn :=
  (turn.mapCore fun core => { core with klinesDirty := false }).pushPersist
    (.replaceKlines (turn.core.klines.toList.map fun subject =>
      hexEncode subject.val))
    origin none

/-- Note activity for the prune clock, without a write. -/
def touchRoom (turn : HubTurn) (roomName : String) : HubTurn :=
  turn.modifyRoom roomName fun room =>
    if room.registered then
      { room with lastUsed := turn.ambient.unix, lastUsedDirty := true }
    else room

/-- The names of the rooms that pass a test. -/
def roomsWhere (turn : HubTurn) (test : HubRoom → Bool) : List String :=
  ((FiniteMap.bindings turn.core.rooms).filter fun entry =>
    test entry.2).map Prod.fst

def flushLastUsed (turn : HubTurn) (roomName : String) : HubTurn :=
  match turn.core.rooms.lookup roomName with
  | none => turn
  | some room =>
      (turn.modifyRoom roomName fun room =>
        { room with lastUsedDirty := false }).pushPersist
        (.touched roomName room.lastUsed) none none

def flushDirtyLastUsed (turn : HubTurn) : HubTurn :=
  (turn.roomsWhere fun room => room.registered && room.lastUsedDirty).foldl
    flushLastUsed turn

/-! ## Pruning -/

/-- When the room was used last, as far as the prune clock knows. -/
def lastUsedOrStart (core : HubCore) (room : HubRoom) : WallTime :=
  if room.lastUsed ≤ 0 then core.startedWall else room.lastUsed

def isPrunable (room : HubRoom) : Bool :=
  room.registered && room.members.isEmpty

/-- A clock that jumped back must not make a room look ancient. -/
def isFromTheFuture (core : HubCore) (now : WallTime) (room : HubRoom) :
    Bool :=
  isPrunable room && decide (now < lastUsedOrStart core room)

def isStale (core : HubCore) (now : WallTime) (room : HubRoom) : Bool :=
  isPrunable room && decide (lastUsedOrStart core room ≤ now) &&
    decide ((seconds core.config.roomRegistryPruneAfterSecs : Int) <
      now - lastUsedOrStart core room)

/-- Forget a room and delete its row. -/
def retireRoom (turn : HubTurn) (roomName : String) : HubTurn :=
  (turn.mapCore fun core =>
    { core with
      rooms := core.rooms.erase roomName
      roomTokens := core.roomTokens.erase roomName }).pushPersist
    (.removed roomName) none none

/-- Drop registered rooms that nobody used in a long time. -/
def pruneRegistry (turn : HubTurn) : HubTurn :=
  let now := turn.ambient.unix
  let interval := turn.core.config.roomRegistryPruneIntervalSecs
  if turn.core.config.roomRegistryPruneAfterSecs = 0 then turn
  -- A device without a clock reports an epoch near zero.
  else if now < (seconds 1700000000 : Int) then turn
  else if 0 < interval ∧ turn.ambient.instant - turn.core.startedAt < seconds interval then turn
  else
    let stale := turn.roomsWhere (isStale turn.core now)
    let clamped := turn.mapCore fun core =>
      { core with
        rooms := FiniteMap.mapValues
          (fun _ room =>
            if isFromTheFuture turn.core now room then
              { room with lastUsed := now, lastUsedDirty := true }
            else room)
          core.rooms }
    (stale.foldl retireRoom clamped).pushPersist (.gcInvites now) none none

/-! ## Failed writes -/

end HubTurn

namespace HubCore

/-- Record a failed write, so that it is projected again later. -/
def notePersistFailed (core : HubCore) : HubRoomOp → HubCore
  | .upsert row =>
      { core with
        rooms := core.rooms.adjust row.roomName fun live =>
          { live with persistDirty := true } }
  | .touched roomName _ =>
      { core with
        rooms := core.rooms.adjust roomName fun live =>
          { live with lastUsedDirty := true } }
  | .removed roomName =>
      { core with pendingRemovals := core.pendingRemovals.insert roomName }
  | .replaceKlines _ => { core with klinesDirty := true }
  | .gcInvites _ => core

end HubCore

namespace HubTurn

/-- Queue the deletion of every row whose deletion failed before. -/
def drainRemovals (turn : HubTurn) : HubTurn :=
  (turn.mapCore fun core => { core with pendingRemovals := ∅ }).pushAll <|
    turn.core.pendingRemovals.toList.map fun roomName =>
      .persist { op := .removed roomName, origin := none, room := none }

def retryFailedPersists (turn : HubTurn) : HubTurn :=
  let drained := turn.drainRemovals
  let dirty := drained.roomsWhere fun room =>
    room.registered && room.persistDirty
  let projected := dirty.foldl (fun turn roomName => turn.persistRoom roomName none) drained
  if projected.core.klinesDirty then projected.persistKlines none
  else projected

end HubTurn

/-! ## The database -/

/-- The stored registry of one hub.  Dropping a row drops its grants. -/
structure HubStore where
  rooms : FiniteMap String HubRoomRow
  klines : FiniteSet String

namespace HubStore

/-- The grants that remain of a row when expired invites are deleted. -/
def gcGrants (before : WallTime) (row : HubRoomRow) : HubRoomRow :=
  { row with
    grants := row.grants.filter fun grant =>
      !(grant.1 == "invite" && decide (grant.2.2 ≤ before)) }

/-- Apply one write. -/
def apply (store : HubStore) : HubRoomOp → HubStore
  | .upsert row => { store with rooms := store.rooms.insert row.roomName row }
  | .touched roomName lastUsed =>
      { store with
        rooms := store.rooms.adjust roomName fun row =>
          { row with lastUsed := lastUsed } }
  | .removed roomName => { store with rooms := store.rooms.erase roomName }
  | .replaceKlines subjects => { store with klines := FiniteSet.ofList subjects }
  | .gcInvites before =>
      { store with
        rooms := FiniteMap.mapValues (fun _ row => gcGrants before row)
          store.rooms }

end HubStore

end Ratspeak
