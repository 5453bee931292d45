import Ratspeak.Hub.State

/-!
# One turn of a hub

The hub handles one event at a time.  A turn carries the clocks it reads, the
state as it is so far, and the work queued for the shell.  With every queued
send stands the state that queued it; the shell never reads it, but it lets a
statement speak of the hub at the moment a send was made.
-/

namespace Ratspeak

open Library

/-- A queued send and the state of the hub that queued it. -/
structure Sent where
  send : HubSend
  core : HubCore

structure HubTurn where
  ambient : Ambient
  core : HubCore
  out : List Sent

namespace HubTurn

/-- Queue a send. -/
def push (turn : HubTurn) (send : HubSend) : HubTurn :=
  { turn with out := turn.out ++ [⟨send, turn.core⟩] }

/-- Queue several sends. -/
def pushAll (turn : HubTurn) (sends : List HubSend) : HubTurn :=
  sends.foldl push turn

def mapCore (turn : HubTurn) (change : HubCore → HubCore) : HubTurn :=
  { turn with core := change turn.core }

/-- Change a session, if the link has one. -/
def modifySession (turn : HubTurn) (linkId : LinkId)
    (change : HubSession → HubSession) : HubTurn :=
  turn.mapCore fun core =>
    { core with sessions := core.sessions.adjust linkId change }

/-- Change a room, if it exists. -/
def modifyRoom (turn : HubTurn) (roomName : String) (change : HubRoom → HubRoom) : HubTurn :=
  turn.mapCore fun core =>
    { core with rooms := core.rooms.adjust roomName change }

def modifyStats (turn : HubTurn) (change : HubStats → HubStats) : HubTurn :=
  turn.mapCore fun core => { core with stats := change core.stats }

def modifyAdmission (turn : HubTurn) (change : AdmissionState → AdmissionState) : HubTurn :=
  turn.mapCore fun core => { core with admission := change core.admission }

@[simp]
theorem push_core (turn : HubTurn) (send : HubSend) :
    (turn.push send).core = turn.core :=
  rfl

@[simp]
theorem push_ambient (turn : HubTurn) (send : HubSend) :
    (turn.push send).ambient = turn.ambient :=
  rfl

@[simp]
theorem push_out (turn : HubTurn) (send : HubSend) :
    (turn.push send).out = turn.out ++ [⟨send, turn.core⟩] :=
  rfl

@[simp]
theorem mapCore_core (turn : HubTurn) (change : HubCore → HubCore) :
    (turn.mapCore change).core = change turn.core :=
  rfl

@[simp]
theorem mapCore_ambient (turn : HubTurn) (change : HubCore → HubCore) :
    (turn.mapCore change).ambient = turn.ambient :=
  rfl

@[simp]
theorem mapCore_out (turn : HubTurn) (change : HubCore → HubCore) :
    (turn.mapCore change).out = turn.out :=
  rfl

theorem pushAll_eq (turn : HubTurn) (sends : List HubSend) :
    turn.pushAll sends =
      { turn with
        out := turn.out ++ sends.map fun send => ⟨send, turn.core⟩ } := by
  induction sends generalizing turn with
  | nil => simp [pushAll]
  | cons send rest ih =>
      have unfolded :
          turn.pushAll (send :: rest) = (turn.push send).pushAll rest :=
        rfl
      rw [unfolded, ih]
      simp [push]

@[simp]
theorem pushAll_core (turn : HubTurn) (sends : List HubSend) :
    (turn.pushAll sends).core = turn.core := by
  rw [pushAll_eq]

@[simp]
theorem pushAll_ambient (turn : HubTurn) (sends : List HubSend) :
    (turn.pushAll sends).ambient = turn.ambient := by
  rw [pushAll_eq]

@[simp]
theorem pushAll_out (turn : HubTurn) (sends : List HubSend) :
    (turn.pushAll sends).out =
      turn.out ++ sends.map fun send => ⟨send, turn.core⟩ := by
  rw [pushAll_eq]

/-! ## Room tokens -/

/-- Draw a token for the room unless it has one. -/
def mintRoomToken (turn : HubTurn) (roomName : String) : HubTurn :=
  turn.mapCore fun core =>
    if (core.roomTokens.lookup roomName).isSome then core
    else
      { core with
        roomTokens := core.roomTokens.insert roomName core.tokensDrawn
        tokensDrawn := core.tokensDrawn + 1 }

/-- Moderation is recorded under the room's token. -/
def noteModerated (turn : HubTurn) (roomName : String) : HubTurn :=
  turn.mintRoomToken roomName

def noteRelayed (turn : HubTurn) (roomName : String) : HubTurn :=
  turn.mintRoomToken roomName

end HubTurn

/-! ## Names and permissions -/

namespace HubCore

section Names

variable [UnicodeTables]

/-- The name under which the hub keeps a room, or why there is none. -/
def normRoom (core : HubCore) (room : String) : Except String String :=
  let normalized := toLowercase (trim room)
  if normalized.isEmpty then .error "room name must not be empty"
  else if core.config.maxRoomNameBytes < normalized.utf8ByteSize then
    .error ("room name too long: " ++ toString normalized.utf8ByteSize ++
      " bytes > " ++ toString core.config.maxRoomNameBytes ++ " bytes")
  else .ok normalized

end Names

def sessionIdentity (core : HubCore) (linkId : LinkId) :
    Option IdentityHash :=
  (core.sessions.lookup linkId).bind HubSession.identity

def sessionNickname (core : HubCore) (linkId : LinkId) : Option String :=
  (core.sessions.lookup linkId).bind HubSession.nickname

/-- Whether the session of the link counts the room among its rooms. -/
def sessionInRoom (core : HubCore) (linkId : LinkId) (roomName : String) :
    Bool :=
  (core.sessions.lookup linkId).any fun session =>
    decide (roomName ∈ session.rooms)

def isRoomOp (core : HubCore) (room : HubRoom) (identity : IdentityHash) :
    Bool :=
  decide (identity ∈ core.serverOps) || decide (identity ∈ room.ops)

def isVoiced (core : HubCore) (room : HubRoom) (identity : IdentityHash) :
    Bool :=
  core.isRoomOp room identity || decide (identity ∈ room.voiced)

def identityInRoom (core : HubCore) (room : HubRoom) (identity : IdentityHash) : Bool :=
  room.members.toList.any fun member =>
    core.sessionIdentity member == some identity

/-- `+p` hides a room from outsiders. -/
def canViewRoom (core : HubCore) (room : HubRoom) (identity : IdentityHash) :
    Bool :=
  !room.isPrivate || core.isRoomOp room identity || core.identityInRoom room identity

/-- The identity is in the room through another link. -/
def identityStillInRoom (core : HubCore) (room : HubRoom)
    (identity : IdentityHash) (excluding : LinkId) : Bool :=
  room.members.toList.any fun member =>
    member != excluding && core.sessionIdentity member == some identity

/-- The identities in a room, each of them once. -/
def rosterIdentities (core : HubCore) (room : HubRoom) : List IdentityHash :=
  (room.members.toList.filterMap core.sessionIdentity).dedup

/-- The links in the room that belong to the identity. -/
def roomLinksForIdentity (core : HubCore) (roomName : String)
    (target : IdentityHash) : List LinkId :=
  match core.rooms.lookup roomName with
  | none => []
  | some room =>
      room.members.toList.filter fun member =>
        core.sessionIdentity member == some target

/-- The links of all sessions that belong to the identity. -/
def linksForIdentity (core : HubCore) (target : IdentityHash) :
    List LinkId :=
  core.sessions.keys.filter fun linkId =>
    core.sessionIdentity linkId == some target

def registeredRoomCount (core : HubCore) : Nat :=
  (FiniteMap.bindings core.rooms).countP fun entry => entry.2.registered

/-- True while a durable write is outstanding. -/
def registryDegraded (core : HubCore) : Bool :=
  core.klinesDirty || !core.pendingRemovals.isEmpty ||
    (FiniteMap.bindings core.rooms).any fun entry => entry.2.persistDirty

end HubCore

namespace HubRoom

def isInvited (room : HubRoom) (identity : IdentityHash) (now : WallTime) :
    Bool :=
  (room.invited.lookup identity).any fun expires => decide (now < expires)

def canRejoin (room : HubRoom) (identity : IdentityHash) (now : WallTime) :
    Bool :=
  (room.rejoinUntil.lookup identity).any fun expires =>
    decide (now < expires)

end HubRoom

/-! ## Notices and errors -/

namespace HubTurn

/-- An envelope from the hub itself. -/
def hubEnvelope (turn : HubTurn) (messageType : MessageType)
    (room : Option String) (body : Option Value) : Envelope :=
  { Envelope.new turn.ambient.ms messageType turn.core.hubHash with
    room := room
    body := body }

def hubNotice (turn : HubTurn) (linkId : LinkId) (text : String)
    (room : Option String) : HubSend :=
  .envelope linkId (turn.hubEnvelope .notice room (some (.text text)))

def hubError (turn : HubTurn) (linkId : LinkId) (text : String)
    (room : Option String) : HubSend :=
  .envelope linkId (turn.hubEnvelope .error room (some (.text text)))

/-- An error that echoes a room as it came off the wire, unless the packet
would not fit with it. -/
def hubErrorEcho (turn : HubTurn) (linkId : LinkId) (text : String)
    (room : Option String) : HubSend :=
  if (turn.hubEnvelope .error room (some (.text text))).encodedLen ≤
      linkPacketBudget then
    turn.hubError linkId text room
  else turn.hubError linkId text none

def pushNotice (turn : HubTurn) (linkId : LinkId) (text : String)
    (room : Option String) : HubTurn :=
  turn.push (turn.hubNotice linkId text room)

def pushError (turn : HubTurn) (linkId : LinkId) (text : String)
    (room : Option String) : HubTurn :=
  turn.push (turn.hubError linkId text room)

/-- The same notice to every member of the room. -/
def noticeMembers (turn : HubTurn) (room : HubRoom) (text : String)
    (roomName : String) : HubTurn :=
  turn.pushAll <| room.members.toList.map fun member =>
    turn.hubNotice member text (some roomName)

/-- Length of an envelope of this shape around an empty text. -/
def envelopeOverhead (turn : HubTurn) (messageType : MessageType)
    (room : Option String) : Nat :=
  (turn.hubEnvelope messageType room (some (.text ""))).encodedLen

/-- The bytes of text that fit one packet of this shape. -/
def textBodyBudget (turn : HubTurn) (messageType : MessageType) (room : Option String) : Nat :=
  linkPacketBudget - turn.envelopeOverhead messageType room - cborTextHeaderSlack

/-- The identity hashes that fit one roster packet. -/
def rosterChunkLen (turn : HubTurn) (roomName : String) : Nat :=
  max ((linkPacketBudget - turn.envelopeOverhead .joined (some roomName) - 1) / 17) 1

end HubTurn

/-- Where the lead of a notice of several packets stands. -/
inductive NoticeHeader where
  | none
  | first (lead : String)
  | every (lead : String)

namespace NoticeHeader

def lead : NoticeHeader → String
  | none => ""
  | first lead => lead
  | every lead => lead

/-- What a packet after the first one starts with. -/
def repeated : NoticeHeader → String
  | every lead => lead
  | _ => ""

end NoticeHeader

/-- Split characters into texts of at most `maxBytes` bytes; a text holds at
least one character. -/
def chunkTextFrom (maxBytes : Nat) (current : String) :
    List Char → List String
  | [] => if current.isEmpty then [] else [current]
  | char :: rest =>
      if maxBytes < current.utf8ByteSize + char.utf8Size ∧
          ¬ current.isEmpty then
        current :: chunkTextFrom maxBytes (String.singleton char) rest
      else chunkTextFrom maxBytes (current.push char) rest

def chunkText (text : String) (maxBytes : Nat) : List String :=
  chunkTextFrom maxBytes "" text.toList

/-- The longest prefix of the characters within the number of bytes. -/
def clipChars : Nat → List Char → List Char
  | _, [] => []
  | budget, char :: rest =>
      if char.utf8Size ≤ budget then
        char :: clipChars (budget - char.utf8Size) rest
      else []

/-- Clip a topic for the directory reply. -/
def clipTopic (topic : String) : String :=
  if topic.utf8ByteSize ≤ listTopicBytes then topic
  else String.ofList (clipChars listTopicBytes topic.toList) ++ "…"

/-- The texts of the packets after `current`, of which `hasEntry` says that
it holds an entry already. -/
def packEntries (budget : Nat) (header : NoticeHeader) (separator : String) :
    String → Bool → List String → List String
  | current, hasEntry, [] => if hasEntry then [current] else []
  | current, hasEntry, entry :: rest =>
      let addition := if hasEntry then separator ++ entry else entry
      if current.utf8ByteSize + addition.utf8ByteSize ≤ budget then
        packEntries budget header separator (current ++ addition) true rest
      else
        let flushed := if hasEntry then [current] else []
        let lead := header.repeated
        if lead.utf8ByteSize + entry.utf8ByteSize ≤ budget then
          flushed ++ packEntries budget header separator (lead ++ entry) true rest
        else
          -- An entry too long to stand alone is split, not dropped.
          let pieces := chunkText entry (max (budget - lead.utf8ByteSize) 1)
          flushed ++ (pieces.map fun piece => lead ++ piece) ++
            packEntries budget header separator lead false rest

/-- The texts of a notice that may not fit one packet. -/
def noticeTexts (budget : Nat) (header : NoticeHeader)
    (entries : List String) (separator : String) : List String :=
  let whole := header.lead ++ joinWith separator entries
  if whole.utf8ByteSize ≤ budget then [whole]
  else packEntries budget header separator header.lead false entries

namespace HubTurn

def pushNoticeEntries (turn : HubTurn) (linkId : LinkId)
    (header : NoticeHeader) (entries : List String) (separator : String)
    (room : Option String) : HubTurn :=
  let budget := max (turn.textBodyBudget .notice room) minNoticeBodyBytes
  turn.pushAll <| (noticeTexts budget header entries separator).map
    fun text => turn.hubNotice linkId text room

end HubTurn

end Ratspeak
