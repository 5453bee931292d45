import Mathlib.Logic.Relation
import Ratspeak.Hub.Service
import Ratspeak.Library.Roll

/-!
# What a turn is made of

Every handler of the hub is a sequence of moves.  A move is one of the few
things the hub ever does to its state: answer, relay, tend to a session, enter
a link into a room, take it out, close it, change the policy of a room and
store it, and so on.  What a move keeps, every event keeps.
-/

namespace Ratspeak

open Library

/-! ## The roll of a hub -/

abbrev HubRoll := Roll LinkId IdentityHash String

abbrev HubRollOp := RollOp LinkId IdentityHash String

/-- Who is in which room through which link. -/
def HubCore.roll (core : HubCore) : HubRoll where
  live link := (core.sessions.lookup link).isSome = true
  identity link := core.sessionIdentity link
  welcomed link := ∃ session, core.sessions.lookup link = some session ∧ session.welcomed = true
  joined link room := ∃ session, core.sessions.lookup link = some session ∧ room ∈ session.rooms
  members room link := ∃ held, core.rooms.lookup room = some held ∧ link ∈ held.members
  banned room identity := ∃ held, core.rooms.lookup room = some held ∧ identity ∈ held.bans
  index identity := core.byIdentity.lookup identity

/-! ## Sends -/

/-- Whether an envelope speaks of a roster. -/
def Envelope.isRoster (envelope : Envelope) : Bool :=
  envelope.messageType == .joined || envelope.messageType == .parted

/-- Whether an envelope is a message that somebody sent into the room. -/
def Envelope.isRoomMessage (hubHash : IdentityHash) (roomName : String)
    (envelope : Envelope) : Prop :=
  envelope.room = some roomName ∧
    (envelope.messageType = .message ∨ envelope.messageType = .action ∨
      (envelope.messageType = .notice ∧ envelope.source ≠ hubHash))

/-- An answer of the hub: no roster, no relayed message, no write. -/
def HubSend.Plain (hubHash : IdentityHash) : HubSend → Prop
  | .envelope _ content => content.isRoster = false ∧
      ∀ roomName, ¬ content.isRoomMessage hubHash roomName
  | .persist _ => False
  | _ => True

namespace HubTurn

theorem plain_hubEnvelope (turn : HubTurn) (linkId : LinkId)
    {messageType : MessageType} (room : Option String) (body : Option Value)
    (answer : messageType = .notice ∨ messageType = .error ∨
      messageType = .ping ∨ messageType = .welcome) :
    HubSend.Plain turn.core.hubHash
      (.envelope linkId (turn.hubEnvelope messageType room body)) := by
  refine ⟨?_, ?_⟩
  · rcases answer with rfl | rfl | rfl | rfl <;> rfl
  · rintro roomName ⟨-, kind⟩
    rcases answer with rfl | rfl | rfl | rfl <;>
      simp [hubEnvelope, Envelope.new] at kind

theorem plain_hubNotice (turn : HubTurn) (linkId : LinkId) (text : String)
    (room : Option String) :
    HubSend.Plain turn.core.hubHash (turn.hubNotice linkId text room) :=
  turn.plain_hubEnvelope linkId room _ (Or.inl rfl)

theorem plain_hubError (turn : HubTurn) (linkId : LinkId) (text : String)
    (room : Option String) :
    HubSend.Plain turn.core.hubHash (turn.hubError linkId text room) :=
  turn.plain_hubEnvelope linkId room _ (Or.inr (Or.inl rfl))

theorem plain_hubErrorEcho (turn : HubTurn) (linkId : LinkId)
    (text : String) (room : Option String) :
    HubSend.Plain turn.core.hubHash
      (turn.hubErrorEcho linkId text room) := by
  unfold hubErrorEcho
  split
  · exact turn.plain_hubError linkId text room
  · exact turn.plain_hubError linkId text none

/-- The turn went on with answers only. -/
def Announces (before after : HubTurn) : Prop :=
  ∃ sends : List HubSend,
    (∀ send ∈ sends, HubSend.Plain before.core.hubHash send) ∧ after = before.pushAll sends

theorem Announces.refl (turn : HubTurn) : Announces turn turn :=
  ⟨[], by simp, rfl⟩

theorem Announces.trans {first second third : HubTurn}
    (one : Announces first second) (two : Announces second third) :
    Announces first third := by
  obtain ⟨sends, plain, rfl⟩ := one
  obtain ⟨more, plainMore, rfl⟩ := two
  refine ⟨sends ++ more, ?_, ?_⟩
  · intro send member
    rcases List.mem_append.mp member with early | late
    · exact plain send early
    · simpa using plainMore send late
  · simp [pushAll, List.foldl_append]

theorem announces_push {turn : HubTurn} {send : HubSend}
    (plain : HubSend.Plain turn.core.hubHash send) :
    Announces turn (turn.push send) :=
  ⟨[send], by simpa using plain, rfl⟩

theorem announces_noticeMembers (turn : HubTurn) (room : HubRoom) (text roomName : String) :
    Announces turn (turn.noticeMembers room text roomName) := by
  refine ⟨_, ?_, rfl⟩
  intro send member
  obtain ⟨link, -, rfl⟩ := List.mem_map.mp member
  exact turn.plain_hubNotice link text (some roomName)

theorem announces_broadcastText (turn : HubTurn) (roomName text : String) :
    Announces turn (turn.broadcastText roomName text) := by
  unfold broadcastText
  split
  · exact .refl turn
  · exact turn.announces_noticeMembers _ text roomName

theorem announces_broadcastMode (turn : HubTurn) (roomName : String) :
    Announces turn (turn.broadcastMode roomName) := by
  unfold broadcastMode
  split
  · exact .refl turn
  · exact turn.announces_noticeMembers _ _ roomName

theorem announces_broadcastAdminTopic (turn : HubTurn) (roomName : String) :
    Announces turn (turn.broadcastAdminTopic roomName) := by
  unfold broadcastAdminTopic
  split
  · exact .refl turn
  · exact turn.announces_noticeMembers _ _ roomName

theorem announces_pushInviteNotice (turn : HubTurn) (roomName : String)
    (keyed : Bool) (target : IdentityHash) :
    Announces turn (turn.pushInviteNotice roomName keyed target) := by
  unfold pushInviteNotice
  split
  · exact .refl turn
  · exact announces_push (turn.plain_hubNotice _ _ _)

theorem announces_pushNoticeEntries (turn : HubTurn) (linkId : LinkId)
    (header : NoticeHeader) (entries : List String) (separator : String)
    (room : Option String) :
    Announces turn
      (turn.pushNoticeEntries linkId header entries separator room) := by
  refine ⟨_, ?_, rfl⟩
  intro send member
  obtain ⟨text, -, rfl⟩ := List.mem_map.mp member
  exact turn.plain_hubNotice linkId text room

end HubTurn

/-! ## Moves -/

/-- The session is the same as far as rooms are concerned. -/
def SameSeat (before after : HubSession) : Prop :=
  after.identity = before.identity ∧ after.welcomed = before.welcomed ∧
    after.rooms = before.rooms

/-- The identity holds a lease on the room. -/
def HubRoom.Leases (room : HubRoom) (identity : IdentityHash) : Prop :=
  (room.rejoinUntil.lookup identity).isSome = true

theorem HubRoom.not_leases {room : HubRoom} (none : room.rejoinUntil = ∅)
    (identity : IdentityHash) : ¬ room.Leases identity := by
  simp [Leases, none]

/-- A lease that is left after one was revoked is another's. -/
theorem HubRoom.leases_of_erase {room revoked : HubRoom} {target identity : IdentityHash}
    (erased : revoked.rejoinUntil = room.rejoinUntil.erase target)
    (held : revoked.Leases identity) :
    identity ≠ target ∧ room.Leases identity := by
  rw [Leases, erased, FiniteMap.lookup_erase_ite] at held
  split at held
  · cases held
  · rename_i other
    exact ⟨other, held⟩

/-- Only leases, which may have ended, and the prune clock of a room
changed. -/
def Retouched (before after : HubRoom) : Prop :=
  after =
    { before with
      rejoinUntil := after.rejoinUntil
      lastUsed := after.lastUsed
      lastUsedDirty := after.lastUsedDirty } ∧
  ∀ identity, after.Leases identity → before.Leases identity

/-- The stored form of the room says all of it: an empty topic would be lost,
and so would a key that another hub identity made. -/
structure HubRoom.Storable (pepperId : Bytes 8) (room : HubRoom) : Prop where
  topic : room.topic ≠ some ""
  key : ∀ digest, room.key = some digest → digest.pepperId = pepperId

/-- The policy of a room changed, and nobody was banned by that. -/
structure Amended (pepperId : Bytes 8) (before after : HubRoom) : Prop where
  members : after.members = before.members
  registered : after.registered = before.registered
  persistDirty : after.persistDirty = before.persistDirty
  bans : ∀ identity, identity ∈ after.bans → identity ∈ before.bans
  storable : before.Storable pepperId → after.Storable pepperId
  leases : ∀ identity, after.Leases identity →
    before.Leases identity ∧ after.inviteOnly = before.inviteOnly

/-- A room became a registered one. -/
structure Registered (pepperId : Bytes 8) (before after : HubRoom) :
    Prop where
  members : after.members = before.members
  bans : after.bans = before.bans
  registered : after.registered = true
  storable : before.Storable pepperId → after.Storable pepperId
  leases : ∀ identity, after.Leases identity →
    before.Leases identity ∧ after.inviteOnly = before.inviteOnly

/-- A room ceased to be a registered one. -/
structure Unregistered (pepperId : Bytes 8) (before after : HubRoom) :
    Prop where
  members : after.members = before.members
  bans : after.bans = before.bans
  registered : after.registered = false
  storable : before.Storable pepperId → after.Storable pepperId
  leases : ∀ identity, ¬ after.Leases identity

/-- Which operations on the roll a turn may carry out, under which names it
may found rooms, whether it consults the gate for resources, whether it takes
care not to register or unregister a room with a write outstanding for it,
what it may relay into which room, whether it records the id of an envelope,
and which links it may give leases when it closes them. -/
structure Limits where
  permits : HubRollOp → Prop
  names : String → Prop
  meters : Prop
  careful : Prop
  relays : String → Envelope → Prop
  remembers : Prop
  loses : LinkId → Prop

/-- The turn has queued no write yet. -/
def HubTurn.Unwritten (turn : HubTurn) : Prop :=
  persistOps turn.out = []

/-- One thing that a turn does. -/
inductive Move (limits : Limits) : HubTurn → HubTurn → Prop where
  | reply {turn : HubTurn} {send : HubSend}
      (plain : HubSend.Plain turn.core.hubHash send) :
      Move limits turn (turn.push send)
  | relay {turn : HubTurn} {roomName : String} {room : HubRoom}
      {envelope : Envelope}
      (found : turn.core.rooms.lookup roomName = some room)
      (scope : envelope.room = some roomName)
      (content : envelope.isRoster = false)
      (clear : ¬ envelope.source ∈ room.bans)
      (allowed : limits.relays roomName envelope) :
      Move limits turn (turn.fanOut room envelope)
  | tend {turn : HubTurn} {sessions : FiniteMap LinkId HubSession}
      (same : ∀ link, Option.Rel SameSeat (turn.core.sessions.lookup link)
        (sessions.lookup link))
      (unheard : ¬ limits.remembers → ∀ link,
        (sessions.lookup link).map HubSession.seenIds =
          (turn.core.sessions.lookup link).map HubSession.seenIds) :
      Move limits turn { turn with core := { turn.core with sessions := sessions } }
  | note {turn : HubTurn} {admission : AdmissionState} {stats : HubStats}
      {roomTokens : FiniteMap String Nat} {tokensDrawn : Nat}
      (metered : ¬ limits.meters → admission = turn.core.admission) :
      Move limits turn
        { turn with
          core :=
            { turn.core with
              admission := admission
              stats := stats
              roomTokens := roomTokens
              tokensDrawn := tokensDrawn } }
  | retouch {turn : HubTurn} {rooms : FiniteMap String HubRoom}
      (same : ∀ roomName, Option.Rel Retouched
        (turn.core.rooms.lookup roomName) (rooms.lookup roomName)) :
      Move limits turn { turn with core := { turn.core with rooms := rooms } }
  | welcome {turn : HubTurn} {link : LinkId}
      (permitted : limits.permits (.welcome link)) :
      Move limits turn
        (turn.modifySession link fun session =>
          { session with welcomed := true })
  | found {turn : HubTurn} {roomName : String} {room : HubRoom}
      (named : limits.names roomName)
      (absent : turn.core.rooms.lookup roomName = none)
      (empty : room.members = ∅) (noBans : room.bans = ∅)
      (ephemeral : room.registered = false)
      (clean : room.persistDirty = false)
      (storable : room.Storable turn.core.pepperId)
      (leaseless : room.rejoinUntil = ∅) :
      Move limits turn
        { turn with
          core :=
            { turn.core with
              rooms := turn.core.rooms.insert roomName room } }
  | enter {turn : HubTurn} {roomName : String} {link : LinkId}
      {identity : IdentityHash} {session : HubSession} {room : HubRoom}
      (permitted : limits.permits (.enter link roomName))
      (live : turn.core.sessions.lookup link = some session)
      (identified : session.identity = some identity)
      (welcomed : session.welcomed = true)
      (held : turn.core.rooms.lookup roomName = some room)
      (clear : ¬ identity ∈ room.bans) :
      Move limits turn (turn.enterRoom roomName link identity)
  | leave {turn : HubTurn} {roomName : String} {link : LinkId}
      {identity : IdentityHash}
      (permitted : limits.permits (.leave link roomName))
      (identified : turn.core.sessionIdentity link = some identity) :
      Move limits turn (turn.leaveRoom roomName link identity)
  | expel {turn : HubTurn} {roomName reason : String}
      {target : IdentityHash}
      (permitted : limits.permits (.expel roomName target false)) :
      Move limits turn (turn.ejectIdentityFromRoom roomName target reason)
  | ban {turn : HubTurn} {roomName reason : String} {target : IdentityHash}
      {origin : Option LinkId}
      (permitted : limits.permits (.expel roomName target true)) :
      Move limits turn
        (((turn.modifyRoom roomName fun room =>
          { room with
            bans := room.bans.insert target }).ejectIdentityFromRoom roomName
            target reason).persistRoom roomName origin)
  | close {turn : HubTurn} {link : LinkId} {reason : HubSessionCloseReason}
      (permitted : limits.permits (.close link))
      (sudden : reason.keepsLease = true → limits.loses link) :
      Move limits turn (turn.closeSession link reason)
  | kline {turn announced : HubTurn} {target : IdentityHash}
      {origin : Option LinkId}
      (permitted : ∀ link, turn.core.sessionIdentity link = some target →
        limits.permits (.close link))
      (answers : HubTurn.Announces (turn.recordKline target origin) announced) :
      Move limits turn (announced.dismissIdentity target)
  | unkline {turn : HubTurn} {target : IdentityHash}
      {origin : Option LinkId} :
      Move limits turn (turn.recordUnkline target origin)
  | restateKlines {turn : HubTurn} {origin : Option LinkId} :
      Move limits turn (turn.persistKlines origin)
  | amend {turn announced : HubTurn} {roomName : String}
      {change : HubRoom → HubRoom} {origin : Option LinkId}
      (amends : ∀ room, turn.core.rooms.lookup roomName = some room →
        Amended turn.core.pepperId room (change room))
      (answers : HubTurn.Announces (turn.modifyRoom roomName change) announced) :
      Move limits turn (announced.persistRoom roomName origin)
  | register {turn announced : HubTurn} {roomName : String}
      {origin : Option LinkId} (change : HubRoom → HubRoom)
      (pending : FiniteSet String)
      (present : (turn.core.rooms.lookup roomName).isSome = true)
      (registers : ∀ room, turn.core.rooms.lookup roomName = some room →
        Registered turn.core.pepperId room (change room))
      (others : ∀ name, name ≠ roomName → (name ∈ pending ↔ name ∈ turn.core.pendingRemovals))
      (settled : limits.careful → ¬ roomName ∈ pending ∧ turn.Unwritten)
      (answers : HubTurn.Announces
        ((turn.modifyRoom roomName change).mapCore fun core =>
          { core with pendingRemovals := pending }) announced) :
      Move limits turn (announced.persistRoom roomName origin)
  | unregister {turn announced dropped : HubTurn} {roomName : String}
      {origin : Option LinkId} {scope : Option String}
      {roomTokens : FiniteMap String Nat} {tokensDrawn : Nat}
      (change : HubRoom → HubRoom) (pending : FiniteSet String)
      (unregisters : ∀ room, turn.core.rooms.lookup roomName = some room →
        Unregistered turn.core.pepperId room (change room))
      (others : ∀ name, name ≠ roomName → (name ∈ pending ↔ name ∈ turn.core.pendingRemovals))
      (settled : limits.careful → turn.Unwritten ∧
        ∀ room, turn.core.rooms.lookup roomName = some room →
          ¬ room.members.isEmpty → (change room).persistDirty = false)
      (answers : HubTurn.Announces
        ((turn.modifyRoom roomName change).mapCore fun core =>
          { core with
            roomTokens := roomTokens
            tokensDrawn := tokensDrawn }) announced)
      (drops : dropped =
        (announced.dropIfEmpty roomName).mapCore fun core =>
          { core with pendingRemovals := pending }) :
      Move limits turn (dropped.pushPersist (.removed roomName) origin scope)
  | restate {turn : HubTurn} {roomName : String} {origin : Option LinkId} :
      Move limits turn (turn.persistRoom roomName origin)
  | retire {turn : HubTurn} {roomName : String}
      (empty : ∀ room, turn.core.rooms.lookup roomName = some room →
        room.members.isEmpty = true) :
      Move limits turn (turn.retireRoom roomName)
  | drain {turn : HubTurn} : Move limits turn turn.drainRemovals
  | lesserWrite {turn : HubTurn} {op : HubRoomOp}
      (lesser : (∃ roomName lastUsed, op = .touched roomName lastUsed) ∨
        op = .gcInvites turn.ambient.unix) :
      Move limits turn (turn.pushPersist op none none)

/-- Any number of moves. -/
abbrev Moves (limits : Limits) : HubTurn → HubTurn → Prop :=
  Relation.ReflTransGen (Move limits)

namespace Moves

variable {limits : Limits}

theorem of_announces {before after : HubTurn} (answers : HubTurn.Announces before after) :
    Moves limits before after := by
  obtain ⟨sends, plain, rfl⟩ := answers
  induction sends generalizing before with
  | nil => exact .refl
  | cons send rest ih =>
      have first : Move limits before (before.push send) :=
        .reply (plain send List.mem_cons_self)
      refine .head first (ih ?_)
      intro later member
      exact plain later (List.mem_cons_of_mem send member)

/-- What every move keeps holds after any number of them. -/
theorem induct {invariant : HubTurn → Prop}
    (kept : ∀ before after, Move limits before after → invariant before → invariant after)
    {before after : HubTurn} (moves : Moves limits before after)
    (initially : invariant before) : invariant after := by
  induction moves with
  | refl => exact initially
  | tail _ last ih => exact kept _ _ last ih

end Moves

end Ratspeak
