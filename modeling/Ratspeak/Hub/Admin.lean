import Ratspeak.Hub.Commands

/-!
# Owner mutations

The owner of the hub administers it through the application.  A mutation
changes the running hub like a command does, and answers with an error that
names what is wrong.
-/

namespace Ratspeak

open Library

structure ChannelHubAdminRoomPolicy where
  inviteOnly : Bool
  moderated : Bool
  noOutsideMessages : Bool
  isPrivate : Bool
  topicOperatorsOnly : Bool
  deriving DecidableEq

inductive ChannelHubAdminRoomRole where
  | operator
  | voice
  deriving DecidableEq

inductive ChannelHubAdminKeyChange where
  | keep
  | set (key : String)
  | clear

inductive ChannelHubAdminMutation where
  | createChannel (room : String) (topic : Option String)
      (policy : ChannelHubAdminRoomPolicy) (joinKey : Option String)
  | updateChannel (room : String) (topic : Option String)
      (policy : ChannelHubAdminRoomPolicy)
      (joinKey : ChannelHubAdminKeyChange)
  | unregisterChannel (room : String)
  | setRoomRole (room : String) (target : IdentityHash)
      (role : ChannelHubAdminRoomRole) (enabled : Bool)
  | setRoomBan (room : String) (target : IdentityHash) (banned : Bool)
  | setInvitation (room : String) (target : IdentityHash) (invited : Bool)
  | kick (room : String) (target : IdentityHash)
  | setHubBan (target : IdentityHash) (banned : Bool)

inductive AdminErrorCode where
  | badRequest
  | forbidden
  | notFound
  | conflict
  | capacityReached
  deriving DecidableEq

structure ChannelHubAdminMutationError where
  code : AdminErrorCode
  message : String
  deriving DecidableEq

abbrev AdminResult := Except ChannelHubAdminMutationError

private def refuse {α : Type} (code : AdminErrorCode) (message : String) :
    AdminResult α :=
  .error { code, message }

namespace HubCore

def adminTopic (core : HubCore) :
    Option String → AdminResult (Option String)
  | none => .ok none
  | some topic =>
      let limit := core.config.maxMessageBodyBytes
      if limit < topic.utf8ByteSize then
        refuse .badRequest
          ("Topic is too long: " ++ toString topic.utf8ByteSize ++
            " bytes exceeds the " ++ toString limit ++ " byte limit")
      else if topic.toList.any isControl then
        refuse .badRequest "Topic cannot contain control characters"
      else
        let trimmed := trim topic
        .ok (if trimmed.isEmpty then none else some trimmed)

section Names

variable [UnicodeTables]

def adminRoomName (core : HubCore) (room : String) : AdminResult String :=
  match core.normRoom room with
  | .error reason => refuse .badRequest ("Invalid channel name: " ++ reason)
  | .ok roomName => .ok roomName

end Names

def requireRegisteredAdminRoom (core : HubCore) (roomName : String) :
    AdminResult HubRoom :=
  match core.rooms.lookup roomName with
  | none => refuse .notFound "Registered channel not found"
  | some room =>
      if room.registered then .ok room
      else refuse .notFound "Registered channel not found"

end HubCore

def validateAdminRoomKey (key : String) : AdminResult Unit :=
  if key.utf8ByteSize < minRoomKeyBytes then
    refuse .badRequest ("Join key must be at least " ++ toString minRoomKeyBytes ++ " bytes")
  else if maxAdminRoomKeyBytes < key.utf8ByteSize then
    refuse .badRequest ("Join key cannot exceed " ++ toString maxAdminRoomKeyBytes ++ " bytes")
  else if key.toList.any isWhitespace then
    refuse .badRequest "Join key cannot contain whitespace"
  else if key.toList.any isControl then
    refuse .badRequest "Join key cannot contain control characters"
  else .ok ()

/-- The room under a policy.  A lease belongs to the gate under which it was
minted. -/
def applyAdminRoomPolicy (policy : ChannelHubAdminRoomPolicy) (room : HubRoom) : HubRoom :=
  { room with
    rejoinUntil := if room.inviteOnly = policy.inviteOnly then
        room.rejoinUntil
      else ∅
    inviteOnly := policy.inviteOnly
    moderated := policy.moderated
    noOutsideMsgs := policy.noOutsideMessages
    isPrivate := policy.isPrivate
    topicOpsOnly := policy.topicOperatorsOnly }

def HubRoom.adminPolicy (room : HubRoom) : ChannelHubAdminRoomPolicy where
  inviteOnly := room.inviteOnly
  moderated := room.moderated
  noOutsideMessages := room.noOutsideMsgs
  isPrivate := room.isPrivate
  topicOperatorsOnly := room.topicOpsOnly

namespace HubTurn

def broadcastAdminTopic (turn : HubTurn) (roomName : String) : HubTurn :=
  match turn.core.rooms.lookup roomName with
  | none => turn
  | some room =>
      turn.noticeMembers room
        ("topic for " ++ roomName ++ " is now: " ++ room.topic.getD "(cleared)") roomName

/-- The mode flag of a role change. -/
def adminRoleFlag (role : ChannelHubAdminRoomRole) (enabled : Bool) :
    String :=
  match role, enabled with
  | .operator, true => "+o"
  | .operator, false => "-o"
  | .voice, true => "+v"
  | .voice, false => "-v"

section Channels

variable [UnicodeTables] [HubCrypto]

def adminRoomKeyDigest (turn : HubTurn) (roomName key : String) :
    AdminResult RoomKeyDigest := do
  validateAdminRoomKey key
  return roomKeyDigest turn.core.pepper turn.core.pepperId roomName key turn.ambient.salt

/-- A room under this name, a new one unless there is one already. -/
def ensureRoom (turn : HubTurn) (roomName : String) : HubTurn :=
  match turn.core.rooms.lookup roomName with
  | some _ => turn
  | none =>
      turn.mapCore fun core =>
        { core with rooms := core.rooms.insert roomName {} }

/-- Register a room under a policy, and store it. -/
def createChannel (turn : HubTurn) (roomName : String)
    (actor : IdentityHash) (topic : Option String)
    (policy : ChannelHubAdminRoomPolicy) (key : Option RoomKeyDigest) :
    HubTurn :=
  ((((((turn.ensureRoom roomName).modifyRoom roomName fun room =>
    { applyAdminRoomPolicy policy { room with topic := topic, key := key } with
      registered := true
      ops := room.ops.insert actor
      lastUsed := turn.ambient.unix
      persistDirty := false }).mapCore fun core =>
    { core with
      pendingRemovals := core.pendingRemovals.erase roomName
    }).broadcastAdminTopic roomName).broadcastMode roomName).persistRoom
    roomName none)

def adminCreateChannel (turn : HubTurn) (actor : IdentityHash)
    (room : String) (topic : Option String)
    (policy : ChannelHubAdminRoomPolicy) (joinKey : Option String) :
    AdminResult HubTurn := do
  let roomName ← turn.core.adminRoomName room
  let topic ← turn.core.adminTopic topic
  if (turn.core.rooms.lookup roomName).any HubRoom.registered then
    refuse .conflict "A registered channel with that name already exists"
  else if turn.core.config.maxRegisteredRooms ≤
      turn.core.registeredRoomCount then
    refuse .capacityReached "The hub has reached its registered channel limit"
  else
    match joinKey with
    | none => return turn.createChannel roomName actor topic policy none
    | some key =>
        let digest ← turn.adminRoomKeyDigest roomName key
        return turn.createChannel roomName actor topic policy (some digest)

/-- The key that replaces the one of the room, if it changes. -/
def replacementKey (turn : HubTurn) (roomName : String) (room : HubRoom) :
    ChannelHubAdminKeyChange → AdminResult (Option (Option RoomKeyDigest))
  | .keep => .ok none
  | .clear => .ok (some none)
  | .set key => do
      validateAdminRoomKey key
      let unchanged := room.key.any fun digest =>
        roomKeyMatches turn.core.pepper roomName key digest
      if unchanged then return none
      else
        let digest ← turn.adminRoomKeyDigest roomName key
        return some (some digest)

/-- Change topic, policy and key of a room together: one projection keeps a
mixed policy from becoming durable. -/
def updateChannel (turn : HubTurn) (roomName : String) (room : HubRoom)
    (topic : Option String) (policy : ChannelHubAdminRoomPolicy)
    (replacement : Option (Option RoomKeyDigest)) : HubTurn :=
  let topicChanged := decide (room.topic ≠ topic)
  let modesChanged := decide (room.adminPolicy ≠ policy) || replacement.isSome
  let updated := turn.modifyRoom roomName fun room =>
    { applyAdminRoomPolicy policy room with
      topic := topic
      key := replacement.getD room.key }
  if !topicChanged && !modesChanged then updated
  else
    let updated := if topicChanged then updated.broadcastAdminTopic roomName
      else updated
    let updated := if modesChanged then updated.broadcastMode roomName
      else updated
    updated.persistRoom roomName none

def adminUpdateChannel (turn : HubTurn) (room : String)
    (topic : Option String) (policy : ChannelHubAdminRoomPolicy)
    (joinKey : ChannelHubAdminKeyChange) : AdminResult HubTurn := do
  let roomName ← turn.core.adminRoomName room
  let live ← turn.core.requireRegisteredAdminRoom roomName
  let topic ← turn.core.adminTopic topic
  let replacement ← turn.replacementKey roomName live joinKey
  return turn.updateChannel roomName live topic policy replacement

end Channels

/-- End the registration of a room and forget what is outstanding for it. -/
def unregisterChannel (turn : HubTurn) (roomName : String) : HubTurn :=
  (((((turn.modifyRoom roomName fun room =>
    { room with
      registered := false
      rejoinUntil := ∅
      persistDirty := false }).broadcastMode roomName).dropIfEmpty
    roomName).mapCore fun core =>
    { core with
      pendingRemovals := core.pendingRemovals.erase roomName
    }).pushPersist (.removed roomName) none (some roomName))

section Rooms

variable [UnicodeTables]

def adminUnregisterChannel (turn : HubTurn) (room : String) :
    AdminResult HubTurn := do
  let roomName ← turn.core.adminRoomName room
  let _ ← turn.core.requireRegisteredAdminRoom roomName
  return turn.unregisterChannel roomName

/-- Whether a role change changes anything. -/
def roleChanges (role : ChannelHubAdminRoomRole) (enabled : Bool)
    (target : IdentityHash) (room : HubRoom) : Bool :=
  match role with
  | .operator => decide (target ∈ room.ops) != enabled
  | .voice => decide (target ∈ room.voiced) != enabled

def adminSetRoomRole (turn : HubTurn) (room : String)
    (target : IdentityHash) (role : ChannelHubAdminRoomRole)
    (enabled : Bool) : AdminResult HubTurn := do
  let roomName ← turn.core.adminRoomName room
  let live ← turn.core.requireRegisteredAdminRoom roomName
  if role = .operator ∧ enabled = false ∧
      target ∈ turn.core.serverOps then
    refuse .conflict "A server operator cannot be removed through a channel role"
  else if !roleChanges role enabled target live then return turn
  else
    let flag := adminRoleFlag role enabled
    return ((turn.modifyRoom roomName (setRole flag target)).broadcastText
      roomName
      ("mode for " ++ roomName ++ " is now: " ++ flag ++ " " ++
        shortHash target)).persistRoom roomName none

def adminSetRoomBan (turn : HubTurn) (room : String)
    (target : IdentityHash) (banned : Bool) : AdminResult HubTurn := do
  let roomName ← turn.core.adminRoomName room
  let live ← turn.core.requireRegisteredAdminRoom roomName
  if banned ∧ target ∈ turn.core.serverOps then
    refuse .conflict "A server operator cannot be banned from a channel"
  else if banned then
    let ejected := (turn.modifyRoom roomName fun room =>
      { room with bans := room.bans.insert target }).ejectIdentityFromRoom
      roomName target ("banned from " ++ roomName)
    if target ∈ live.bans then return ejected
    else return ejected.persistRoom roomName none
  else if target ∈ live.bans then
    return (turn.modifyRoom roomName fun room =>
      { room with bans := room.bans.erase target }).persistRoom roomName none
  else return turn

def adminSetInvitation (turn : HubTurn) (room : String)
    (target : IdentityHash) (invited : Bool) : AdminResult HubTurn := do
  let roomName ← turn.core.adminRoomName room
  let live ← turn.core.requireRegisteredAdminRoom roomName
  if invited then
    if !isGated live then
      refuse .conflict "Invitations require an invite-only or join-key channel"
    else
      let added := turn.addInvite roomName target
      return (added.pushAll <| (added.core.linksForIdentity target).map
        fun link => added.hubNotice link
          (inviteText roomName live.key.isSome) (some roomName)).persistRoom
        roomName none
  else if (live.invited.lookup target).isNone ∧
      (live.rejoinUntil.lookup target).isNone then return turn
  else
    return (turn.modifyRoom roomName fun room =>
      { room with
        invited := room.invited.erase target
        rejoinUntil := room.rejoinUntil.erase target }).persistRoom roomName
      none

def adminKick (turn : HubTurn) (room : String) (target : IdentityHash) :
    AdminResult HubTurn := do
  let roomName ← turn.core.adminRoomName room
  if (turn.core.rooms.lookup roomName).isNone then
    refuse .notFound "Live channel not found"
  else if target ∈ turn.core.serverOps then
    refuse .conflict "A server operator cannot be kicked"
  else if (turn.core.roomLinksForIdentity roomName target).isEmpty then
    refuse .notFound "That identity is not currently in the channel"
  else
    return turn.ejectIdentityFromRoom roomName target ("kicked from " ++ roomName)

end Rooms

def adminSetHubBan (turn : HubTurn) (target : IdentityHash)
    (banned : Bool) : AdminResult HubTurn :=
  if banned ∧ target ∈ turn.core.serverOps then
    refuse .conflict "A server operator cannot be banned from the hub"
  else if banned then
    if target ∈ turn.core.klines then .ok turn
    else .ok ((turn.recordKline target none).dismissIdentity target)
  else if target ∈ turn.core.klines then
    .ok (turn.recordUnkline target none)
  else .ok turn

section Mutation

variable [UnicodeTables] [HubCrypto]

/-- Carry out an owner mutation, or say what is wrong with it. -/
def adminMutate (turn : HubTurn) (actor : IdentityHash)
    (mutation : ChannelHubAdminMutation) : AdminResult HubTurn :=
  if ¬ actor ∈ turn.core.serverOps then
    refuse .forbidden "This identity is not authorized to administer the running hub"
  else
    match mutation with
    | .createChannel room topic policy joinKey =>
        turn.adminCreateChannel actor room topic policy joinKey
    | .updateChannel room topic policy joinKey =>
        turn.adminUpdateChannel room topic policy joinKey
    | .unregisterChannel room => turn.adminUnregisterChannel room
    | .setRoomRole room target role enabled =>
        turn.adminSetRoomRole room target role enabled
    | .setRoomBan room target banned => turn.adminSetRoomBan room target banned
    | .setInvitation room target invited => turn.adminSetInvitation room target invited
    | .kick room target => turn.adminKick room target
    | .setHubBan target banned => turn.adminSetHubBan target banned

end Mutation

end HubTurn

end Ratspeak
