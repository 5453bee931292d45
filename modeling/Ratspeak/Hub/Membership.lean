import Ratspeak.Hub.Registry
import Ratspeak.Library.Chunks

/-!
# Joining and leaving rooms

A room holds links; a roster holds identities.  Whoever stays in a room hears
JOINED when the first link of an identity enters it and PARTED when the last
one leaves, whether it leaves by itself, is removed, or its link goes away.
-/

namespace Ratspeak

open Library

/-- Why a session ended. -/
inductive HubSessionCloseReason where
  | remote
  | pingTimeout
  | handshakeTimeout
  | kicked
  deriving DecidableEq

/-- Whether a session that ends so may keep a lease on its rooms. -/
def HubSessionCloseReason.keepsLease : HubSessionCloseReason → Bool
  | remote => true
  | pingTimeout => true
  | _ => false

namespace HubTurn

/-! ## Leaving -/

/-- Take a link out of a room; an unregistered room without members ends. -/
def detachLink (turn : HubTurn) (roomName : String) (linkId : LinkId) :
    HubTurn :=
  match turn.core.rooms.lookup roomName with
  | none => turn
  | some room =>
      let members := room.members.erase linkId
      turn.mapCore fun core =>
        if members.isEmpty && !room.registered then
          { core with
            rooms := core.rooms.erase roomName
            roomTokens := core.roomTokens.erase roomName }
        else
          { core with
            rooms := core.rooms.insert roomName { room with members := members } }

/-- The body of a roster change, unless rosters are off. -/
def rosterChangeBody (turn : HubTurn) (identity : IdentityHash) :
    Option Value :=
  if turn.core.config.includeMemberList then some (memberList [identity])
  else none

def partedEnvelope (turn : HubTurn) (roomName : String)
    (identity : IdentityHash) (nickname : Option String) : Envelope :=
  { turn.hubEnvelope .parted (some roomName)
      (turn.rosterChangeBody identity) with
    nickname := nickname }

/-- Remove one link from a room.  The members that remain hear PARTED unless
the identity is in the room through another link. -/
def removeMemberWithParted (turn : HubTurn) (roomName : String)
    (linkId : LinkId) (identity : IdentityHash) (nickname : Option String) : HubTurn :=
  match turn.core.rooms.lookup roomName with
  | none => turn
  | some room =>
      let remaining := (room.members.erase linkId).toList
      let turn := (turn.mintRoomToken roomName).detachLink roomName linkId
      let stillPresent := (turn.core.rooms.lookup roomName).any fun room =>
        turn.core.identityStillInRoom room identity linkId
      if stillPresent then turn
      else
        turn.pushAll <| remaining.map fun member =>
          .envelope member (turn.partedEnvelope roomName identity nickname)

/-- Leave one room because the session ends, with a lease on it where one is
due. -/
def leaveOnClose (expires : Option WallTime) (linkId : LinkId)
    (identity : IdentityHash) (nickname : Option String) (turn : HubTurn)
    (roomName : String) : HubTurn :=
  let leased := match expires with
    | none => turn
    | some expires =>
        let eligible := (turn.core.rooms.lookup roomName).any
          fun room : HubRoom =>
          room.registered && room.inviteOnly &&
            !decide (identity ∈ room.bans) &&
            !turn.core.identityStillInRoom room identity linkId
        if eligible then
          turn.modifyRoom roomName fun room =>
            { room with
              rejoinUntil := room.rejoinUntil.insert identity expires }
        else turn
  leased.removeMemberWithParted roomName linkId identity nickname

/-- Direct messages to the identity no longer go to this link. -/
def unindexLink (turn : HubTurn) (identity : IdentityHash) (linkId : LinkId) : HubTurn :=
  turn.mapCore fun core =>
    if core.byIdentity.lookup identity = some linkId then
      { core with byIdentity := core.byIdentity.erase identity }
    else core

/-- Tear down one session and its memberships. -/
def closeSession (turn : HubTurn) (linkId : LinkId)
    (reason : HubSessionCloseReason) : HubTurn :=
  let turn := turn.modifyAdmission fun admission =>
    admission.forgetLink linkId
  match turn.core.sessions.lookup linkId with
  | none => turn
  | some session =>
      let grace := turn.core.config.rejoinGraceSecs
      let expires := if reason.keepsLease ∧ 0 < grace then
          some (turn.ambient.unix + (seconds grace : Int))
        else none
      let departed := match session.identity with
        | none => turn
        | some identity =>
            session.rooms.toList.foldl
              (leaveOnClose expires linkId identity session.nickname)
              (turn.unindexLink identity linkId)
      -- Dropped last: the departures still resolve the session.
      departed.mapCore fun core =>
        { core with sessions := core.sessions.erase linkId }

def onLinkClosed (turn : HubTurn) (linkId : LinkId) : HubTurn :=
  turn.closeSession linkId .remote

/-- Close the sessions of links that the hub turns out. -/
def dismissLink (turn : HubTurn) (linkId : LinkId) : HubTurn :=
  ((turn.pushError linkId "banned" none).push (.close linkId)).closeSession linkId .kicked

/-- Remove a link that a moderator turned out, and tell it so. -/
def ejectLink (roomName : String) (target : IdentityHash) (reason : String)
    (turn : HubTurn) (linkId : LinkId) : HubTurn :=
  let nickname := turn.core.sessionNickname linkId
  ((turn.modifySession linkId fun session =>
      { session with rooms := session.rooms.erase roomName }).removeMemberWithParted
    roomName linkId target nickname).pushError linkId reason (some roomName)

/-- The lease of an identity on a room ends. -/
def revokeLease (turn : HubTurn) (roomName : String) (target : IdentityHash) : HubTurn :=
  turn.modifyRoom roomName fun room =>
    { room with rejoinUntil := room.rejoinUntil.erase target }

def ejectIdentityFromRoom (turn : HubTurn) (roomName : String)
    (target : IdentityHash) (reason : String) : HubTurn :=
  (turn.core.roomLinksForIdentity roomName target).foldl
    (ejectLink roomName target reason) (turn.revokeLease roomName target)

/-- A room name from the wire; an empty one counts as none. -/
def namedRoom (envelope : Envelope) : Option String :=
  envelope.room.filter fun room => !room.isEmpty

/-- Leave a room.  The actor hears PARTED, whether it was a member or not. -/
def leaveRoom (turn : HubTurn) (roomName : String) (linkId : LinkId)
    (identity : IdentityHash) : HubTurn :=
  let nickname := turn.core.sessionNickname linkId
  let left := (turn.modifySession linkId fun session =>
    { session with
      rooms := session.rooms.erase roomName }).removeMemberWithParted
    roomName linkId identity nickname
  left.push (.envelope linkId (left.partedEnvelope roomName identity none))

section Names

variable [UnicodeTables]

def onPart (turn : HubTurn) (linkId : LinkId) (envelope : Envelope) :
    HubTurn :=
  match turn.core.sessionIdentity linkId with
  | none => turn
  | some identity =>
      match namedRoom envelope with
      | none => turn.pushError linkId "PART requires room name" none
      | some roomRaw =>
          match turn.core.normRoom roomRaw with
          | .error reason => turn.pushError linkId reason none
          | .ok roomName => turn.leaveRoom roomName linkId identity

end Names

/-! ## Joining -/

/-- The text that a client reads as the confirmation of its join. -/
def roomStatusNotice (turn : HubTurn) (linkId : LinkId) (roomName : String) : HubSend :=
  let room := turn.core.rooms.lookup roomName
  let registered := room.any HubRoom.registered
  let mode := (room.map HubRoom.modeString).getD "(none)"
  let topic := (room.bind HubRoom.topic).getD "(none)"
  turn.hubNotice linkId
    ("room " ++ roomName ++ ": " ++
      (if registered then "registered" else "unregistered") ++
      "; mode=" ++ mode ++ "; topic=" ++ topic)
    (some roomName)

end HubTurn

/-- A lone last item moves together with the item before it: a packet with
one member reads as a join and not as a piece of a roster. -/
def rebalance {α : Type} : List (List α) → List (List α)
  | [] => []
  | [chunk] => [chunk]
  | [previous, [lone]] =>
      match previous.getLast? with
      | none => [previous, [lone]]
      | some borrowed => [previous.dropLast, [borrowed, lone]]
  | chunk :: rest => chunk :: rebalance rest

/-- The rosters of the packets that answer a join, the joiner first. -/
def rosterChunks (perChunk : Nat) (joiner : IdentityHash)
    (roster : List IdentityHash) : List (List IdentityHash) :=
  let ordered := joiner :: roster.filter (· ≠ joiner)
  rebalance (chunksOf perChunk ordered.length ordered)

namespace HubTurn

def joinedEnvelope (turn : HubTurn) (roomName : String)
    (body : Option Value) (nickname : Option String) : Envelope :=
  { turn.hubEnvelope .joined (some roomName) body with nickname := nickname }

/-- Send the joiner its roster. -/
def pushRosterJoined (turn : HubTurn) (linkId : LinkId) (roomName : String)
    (joiner : IdentityHash) (roster : List IdentityHash) : HubTurn :=
  turn.pushAll <|
    (rosterChunks (turn.rosterChunkLen roomName) joiner roster).map
      fun chunk => .envelope linkId <|
        turn.joinedEnvelope roomName (some (memberList chunk)) none

/-- Enter the link into the room.  A join uses up the invite and the lease of
the identity. -/
def seatMember (turn : HubTurn) (roomName : String) (linkId : LinkId)
    (identity : IdentityHash) : HubTurn :=
  let consumedInvite := (turn.core.rooms.lookup roomName).any fun room =>
    (room.invited.lookup identity).isSome
  let seated := (turn.modifyRoom roomName fun room =>
    { room with
      members := room.members.insert linkId
      invited := room.invited.erase identity
      rejoinUntil := room.rejoinUntil.erase identity }).touchRoom roomName
  -- A restart must not bring back access that was used up.
  let persisted := if consumedInvite then
      seated.persistRoom roomName (some linkId)
    else seated
  persisted.modifySession linkId fun session =>
    { session with rooms := session.rooms.insert roomName }

/-- Tell the other members that an identity entered. -/
def announceJoined (turn : HubTurn) (roomName : String) (linkId : LinkId)
    (identity : IdentityHash) (existingMembers : List LinkId) : HubTurn :=
  turn.pushAll <| existingMembers.map fun member =>
    .envelope member <| turn.joinedEnvelope roomName
      (turn.rosterChangeBody identity) (turn.core.sessionNickname linkId)

/-- Tell the link that it entered. -/
def confirmJoined (turn : HubTurn) (roomName : String) (linkId : LinkId)
    (identity : IdentityHash) : HubTurn :=
  if turn.core.config.includeMemberList then
    match turn.core.rooms.lookup roomName with
    | none => turn
    | some room =>
        turn.pushRosterJoined linkId roomName identity (turn.core.rosterIdentities room)
  else
    turn.push (.envelope linkId (turn.joinedEnvelope roomName none none))

/-- An accepted join. -/
def enterRoom (turn : HubTurn) (roomName : String) (linkId : LinkId)
    (identity : IdentityHash) : HubTurn :=
  let room := (turn.core.rooms.lookup roomName).getD {}
  let alreadyPresent := turn.core.identityInRoom room identity
  let existingMembers := room.members.toList.filter (· ≠ linkId)
  let seated := turn.seatMember roomName linkId identity
  let announced := if alreadyPresent then seated
    else seated.announceJoined roomName linkId identity existingMembers
  announced.confirmJoined roomName linkId identity

end HubTurn

section Gate

variable [HubCrypto]

/-- Why the gates of a room refuse an identity, if they do. -/
def joinRefusal (core : HubCore) (roomName : String) (room : HubRoom)
    (identity : IdentityHash) (provided : Option String) (now : WallTime) :
    Option String :=
  let bypass := decide (identity ∈ core.serverOps) ||
    decide (identity ∈ room.ops) || room.isInvited identity now
  let keyed := room.key.any fun digest =>
    !bypass && !provided.any fun provided =>
      roomKeyMatches core.pepper roomName provided digest
  if room.inviteOnly && !(bypass || room.canRejoin identity now) then
    some "invite-only (+i)"
  else if keyed then some "bad key (+k)"
  else if identity ∈ room.bans then some "banned from room"
  else none

end Gate

namespace HubTurn

section Join

variable [UnicodeTables] [HubCrypto]

/-- A join of a room that exists. -/
def joinRoom (turn : HubTurn) (linkId : LinkId) (identity : IdentityHash)
    (envelope : Envelope) (roomName : String) (room : HubRoom) : HubTurn :=
  match joinRefusal turn.core roomName room identity envelope.textBody turn.ambient.unix with
  | some text => turn.pushError linkId text (some roomName)
  | none =>
      let entered := turn.enterRoom roomName linkId identity
      (entered.push (entered.roomStatusNotice linkId roomName)).mintRoomToken roomName

/-- Only a server operator brings a room into existence. -/
def foundRoom (turn : HubTurn) (roomName : String) (identity : IdentityHash) : HubTurn :=
  turn.mapCore fun core =>
    { core with
      rooms := core.rooms.insert roomName
        { ops := (∅ : FiniteSet IdentityHash).insert identity } }

def onJoin (turn : HubTurn) (linkId : LinkId) (envelope : Envelope) :
    HubTurn :=
  match turn.core.sessions.lookup linkId with
  | none => turn
  | some session =>
  match session.identity with
  | none => turn
  | some identity =>
  match namedRoom envelope with
  | none => turn.pushError linkId "JOIN requires room name" none
  | some roomRaw =>
  match turn.core.normRoom roomRaw with
  | .error reason => turn.pushError linkId reason none
  | .ok roomName =>
      if ¬ roomName ∈ session.rooms ∧
          turn.core.config.maxRoomsPerSession ≤ session.rooms.size then
        turn.pushError linkId "too many rooms" none
      else
        match turn.core.rooms.lookup roomName with
        | some room => turn.joinRoom linkId identity envelope roomName room
        | none =>
            if ¬ identity ∈ turn.core.serverOps then
              turn.pushError linkId "no such room" (some roomName)
            else
              (turn.foundRoom roomName identity).joinRoom linkId identity
                envelope roomName
                { ops := (∅ : FiniteSet IdentityHash).insert identity }

end Join

end HubTurn

end Ratspeak
