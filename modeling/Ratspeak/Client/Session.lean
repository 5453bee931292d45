import Ratspeak.Client.Directory
import Ratspeak.Client.Greeting
import Ratspeak.Client.HistoryWriter
import Ratspeak.Rrc.Wire

/-!
# The session of a client

While a client is connected to a hub it keeps the rooms that its user asked
for, each in one of four phases.  The user asks to join and to leave, the hub
answers, other members speak, and a tick gives up what was not answered in
time and joins again, one after the other, the rooms of an earlier session.

Beside its room a join may have a key that is still to prove itself.  What
becomes of such a key is handed to the store of the client as actions.

Of the log of activity only the set of the rooms that have an entry in it
bears on the session.
-/

namespace Ratspeak

open Library

def joinConfirmTimeout : Nat := 30 * 1000
def partConfirmTimeout : Nat := 15 * 1000
def directoryRefreshTimeout : Nat := 15 * 1000
def directoryRefreshCooldown : Nat := 5 * 1000
def defaultNickMaxBytes : Nat := 32
def defaultRoomMaxBytes : Nat := 64
def defaultMessageMaxBytes : Nat := 350
def transcriptLimit : Nat := 300
def noticeLimit : Nat := 100
def seenMessageLimit : Nat := 2048
def autoRejoinRoomLimit : Nat := 32
def participantObservationQueueLimit : Nat := 256
def maxJoinKeyBytes : Nat := 1024

def badRoomKeyError : String := "bad key (+k)"
def savedRoomKeyRejected : String :=
  "Saved join key was rejected. Enter the current key."
def enteredRoomKeyRejected : String :=
  "Channel key was rejected. Check it and try again."
def savedRoomKeyUnavailable : String :=
  "Saved join key is unavailable. Enter the current key."
def roomKeyRequired : String :=
  "Channel key required. Enter the current key."
def joinUnanswered : String :=
  "No confirmation arrived from the hub. " ++ "Try joining again or leave this channel."

/-- The characters that Unicode counts as letters or numbers. -/
class WordTables where
  isAlphanumeric : Char → Bool

/-! ## Errors -/

def ProtocolError.text : ProtocolError → String
  | missingField field => "missing RRC envelope field " ++ toString field
  | invalidField field => "invalid RRC envelope field " ++ toString field
  | invalidNickname => "nickname is empty or contains an invalid control character"
  | nicknameTooLong limit =>
      "nickname exceeds the hub's " ++ toString limit ++ "-byte limit"
  | invalidRoom => "room name is empty"
  | roomTooLong limit =>
      "room name exceeds the hub's " ++ toString limit ++ "-byte limit"

inductive ChannelsError where
  | notJoined (room : String)
  | alreadyJoining (room : String)
  | emptyMessage
  | messageTooLong (limit : Nat)
  | joinKeyTooLong (limit : Nat)
  | roomLimitReached
  /-- The room name breaks the protocol; the text says how. -/
  | protocol (text : String)
  /-- The envelope could not be encoded or the link did not take it. -/
  | transport (text : String)

def ChannelsError.text : ChannelsError → String
  | notJoined room => "not joined to room " ++ room
  | alreadyJoining room => "room " ++ room ++ " is already being joined"
  | emptyMessage => "message must not be empty"
  | messageTooLong limit =>
      "message exceeds the hub's " ++ toString limit ++ "-byte limit"
  | joinKeyTooLong limit =>
      "channel key exceeds the " ++ toString limit ++ "-byte client limit"
  | roomLimitReached => "the hub's room limit has been reached"
  | protocol text => "channel protocol error: " ++ text
  | transport text => "channel transport error: " ++ text

/-- What the link says to an envelope. -/
abbrev SendResult := Except ChannelsError Unit

/-! ## Rooms -/

inductive ChannelRoomPhase where
  | joining
  | joined
  | parting
  | error
deriving DecidableEq, Repr

inductive ChannelItemKind where
  | message
  | notice
  | action
  | join
  | part
  | error
  | system
deriving DecidableEq, Repr

def ChannelItemKind.history : ChannelItemKind → ChannelHistoryKind
  | message => .message
  | notice => .notice
  | action => .action
  | join => .join
  | part => .part
  | error => .error
  | system => .system

/-- A member that is known by its identity, or by its nickname only. -/
structure ChannelMemberSnapshot where
  identityHash : Option IdentityHash
  nickname : Option String
  isSelf : Bool
deriving DecidableEq

structure ChannelTranscriptItem where
  id : String
  kind : ChannelItemKind
  timestampMs : Nat
  sourceHash : Option IdentityHash
  nickname : Option String
  text : String
  ours : Bool
  mentioned : Bool
deriving DecidableEq

structure ChannelRoomSnapshot where
  name : String
  phase : ChannelRoomPhase
  phaseStartedAtMs : Nat
  members : List ChannelMemberSnapshot
  membersComplete : Bool
  registered : Option Bool
  modes : Option String
  topic : Option String
  transcript : List ChannelTranscriptItem
  lastError : Option String
deriving DecidableEq

def ChannelRoomSnapshot.joining (nowMs : Nat) (name : String) :
    ChannelRoomSnapshot where
  name := name
  phase := .joining
  phaseStartedAtMs := nowMs
  members := []
  membersComplete := false
  registered := none
  modes := none
  topic := none
  transcript := []
  lastError := none

/-- The room as it shows the failure of a rejoin. -/
def ChannelRoomSnapshot.failed (nowMs : Nat) (name error : String) :
    ChannelRoomSnapshot :=
  { ChannelRoomSnapshot.joining nowMs name with
    phase := .error
    lastError := some error }

/-- The room in a phase that begins now. -/
def ChannelRoomSnapshot.enter (nowMs : Nat) (phase : ChannelRoomPhase)
    (lastError : Option String) (room : ChannelRoomSnapshot) :
    ChannelRoomSnapshot :=
  { room with
    phase := phase
    phaseStartedAtMs := nowMs
    lastError := lastError }

inductive ChannelRoomDirectoryPhase where
  | idle
  | loading
  | ready
  | error
deriving DecidableEq, Repr

structure ChannelRoomDirectorySnapshot where
  phase : ChannelRoomDirectoryPhase
  rooms : List ChannelDirectoryRoomSnapshot
  complete : Bool
  omittedCount : Nat
  refreshedAtMs : Option Nat
  lastError : Option String

/-- A join key that has yet to prove itself. -/
inductive PendingJoinSecret where
  | userRemember (key : String)
  | userEphemeral
  | stored
deriving DecidableEq, Repr

inductive JoinSecretInput where
  | none
  | user (key : String) (remember : Bool)
  | stored (key : String)
deriving DecidableEq, Repr

namespace JoinSecretInput

def key : JoinSecretInput → Option String
  | none => .none
  | user key _ => some key
  | stored key => some key

/-- What is left to be proved once the join is on its way. -/
def pending : JoinSecretInput → Option PendingJoinSecret
  | none => .none
  | user key true => some (.userRemember key)
  | user _ false => some .userEphemeral
  | stored _ => some .stored

end JoinSecretInput

inductive RoomSecretAction where
  | persist (room key : String)
  | forgetRequired (room : String)
  | forgetRejected (room : String)
  | markRequired (room : String)
deriving DecidableEq, Repr

/-- What the client has stored for a room: a sealed key, which can be opened
or not (and is dropped on the spot then), or none, and whether the room is
known to want one. -/
inductive StoredRoomKey where
  | sealed (opened : Option String)
  | absent (required : Bool)

inductive ConnectOrigin where
  | user
  | recovery
deriving DecidableEq, Repr

structure ActiveSession where
  linkId : LinkId
  mdu : Nat
  source : IdentityHash
  destinationHash : Bytes 16
  hubIdentity : IdentityHash
  nickname : String
  supportsAction : Bool
  supportsResources : Bool
  limits : HubLimits
  rooms : FiniteMap String ChannelRoomSnapshot
  directory : ChannelRoomDirectorySnapshot
  directoryRequestDeadline : Option Nat
  directoryLastRequestedAt : Option Nat
  greeting : HubGreetingState
  /-- The transfers of greetings that some task waits for. -/
  transfers : List GreetingTransfer
  notices : List ChannelTranscriptItem
  seenIds : List MessageId
  roomActivity : FiniteSet String
  autoRejoinQueue : List String
  autoRejoining : FiniteSet String
  pendingJoinSecrets : FiniteMap String PendingJoinSecret
  roomSecretActions : List RoomSecretAction
  historyEvents : List NewChannelHistoryEvent
  participantObservations : List NewChannelParticipantObservation
  connectOrigin : ConnectOrigin

/-! ## Bounded lists and members -/

/-- The last items, as many as the limit allows. -/
def keepLast {α : Type} (limit : Nat) (items : List α) : List α :=
  items.drop (items.length - limit)

def appendBounded {α : Type} (items : List α) (item : α) (limit : Nat) :
    List α :=
  keepLast limit (items ++ [item])

/-- Where the member stands in the list, if it does: under its identity, or
under its nickname as long as no identity is known for it. -/
def memberIndex (members : List ChannelMemberSnapshot)
    (identity : Option IdentityHash) (nickname : Option String) :
    Option Nat :=
  (identity.bind fun identity =>
    members.findIdx? fun member => member.identityHash = some identity).or
  (nickname.bind fun nickname =>
    members.findIdx? fun member =>
      member.identityHash.isNone && member.nickname = some nickname)

/-- The member with what is new about it. -/
def ChannelMemberSnapshot.refresh (identity : Option IdentityHash)
    (nickname : Option String) (isSelf : Bool)
    (member : ChannelMemberSnapshot) : ChannelMemberSnapshot where
  identityHash := member.identityHash.or identity
  nickname := nickname.or member.nickname
  isSelf := member.isSelf || isSelf

/-- The list with the member in it, and whether it is new there. -/
def upsertMember (members : List ChannelMemberSnapshot)
    (identity : Option IdentityHash) (nickname : Option String)
    (isSelf : Bool) : List ChannelMemberSnapshot × Bool :=
  match memberIndex members identity nickname with
  | some index =>
      (members.modify index (ChannelMemberSnapshot.refresh identity nickname isSelf), false)
  | none => (members ++ [⟨identity, nickname, isSelf⟩], true)

/-- The queue with one more observation, unless it is of the user or of the
hub; what was seen of the same identity before is brought up to date. -/
def queueParticipantObservation (observations : List NewChannelParticipantObservation)
    (destinationHash : Bytes 16) (localIdentity hubIdentity : IdentityHash)
    (roomName : String) (participant : IdentityHash)
    (nickname : Option String) : List NewChannelParticipantObservation :=
  if participant = localIdentity ∨ participant = hubIdentity then observations
  else
    let hub := hexEncode destinationHash.val
    let identity := hexEncode participant.val
    let nickname := (nickname.map trim).filter fun name => !name.isEmpty
    match observations.findIdx? fun seen =>
        decide (seen.hubDestinationHash = hub) &&
          decide (seen.roomName = roomName) &&
          decide (seen.identityHash = identity) with
    | some index =>
        observations.modify index fun seen =>
          { seen with nickname := nickname.or seen.nickname }
    | none =>
        appendBounded observations
          { hubDestinationHash := hub
            roomName := roomName
            identityHash := identity
            nickname := nickname }
          participantObservationQueueLimit

/-! ## Mentions -/

section Mentions

variable [UnicodeTables] [WordTables]

def mentionWordContinuation (char : Char) : Bool :=
  WordTables.isAlphanumeric char || char == '_' || char == '-'

/-- Whether the needle stands in the text and is a word there; the first
argument is the character before the text. -/
def mentionStands (needle : List Char) :
    Option Char → List Char → Bool
  | _, [] => false
  | before, char :: rest =>
      needle.isPrefixOf (char :: rest) &&
          before.all (fun char => !mentionWordContinuation char) &&
          ((char :: rest).drop needle.length).head?.all
            (fun char => !mentionWordContinuation char) ||
        mentionStands needle (some char) rest

def containsExactMention (text target : String) : Bool :=
  !target.isEmpty &&
    mentionStands ("@" ++ toLowercase target).toList none (toLowercase text).toList

def channelTextMentions (text nickname : String) (identityHash : IdentityHash) : Bool :=
  containsExactMention text nickname || containsExactMention text (hexEncode identityHash.val)

end Mentions

/-! ## Items -/

def transcriptItem (envelope : Envelope) (kind : ChannelItemKind)
    (nickname : Option String) (text : String) (ours : Bool) :
    ChannelTranscriptItem where
  id := hexEncode envelope.idBytes
  kind := kind
  timestampMs := envelope.timestampMs
  sourceHash := some envelope.source
  nickname := nickname
  text := text
  ours := ours
  mentioned := false

/-- The item as an event of the history. -/
def ChannelTranscriptItem.historyEvent (destinationHash : Bytes 16)
    (roomName : String) (item : ChannelTranscriptItem) :
    NewChannelHistoryEvent where
  hubDestinationHash := hexEncode destinationHash.val
  roomName := roomName
  eventId := item.id
  kind := item.kind.history
  timestampMs := item.timestampMs
  sourceHash := item.sourceHash.map fun source => hexEncode source.val
  nickname := item.nickname
  text := item.text
  ours := item.ours
  mentioned := item.mentioned

def ChannelRoomSnapshot.withItem (item : ChannelTranscriptItem)
    (room : ChannelRoomSnapshot) : ChannelRoomSnapshot :=
  { room with
    transcript := keepLast transcriptLimit (room.transcript ++ [item]) }

/-- The user sees already that they joined. -/
def selfJoinTransitionVisible (room : ChannelRoomSnapshot) : Bool :=
  room.transcript.any fun item => item.ours && item.kind = .join

/-! ## Status notices -/

structure RrcdRoomStatus where
  registered : Bool
  modes : Option String
  topic : Option String
deriving DecidableEq, Repr

def parseRrcdRoomStatus (roomName text : String) : Option RrcdRoomStatus := do
  let status ← stripPrefix ("room " ++ roomName ++ ": ") text
  let (registration, details) ← splitOnce "; mode=" status
  let registered ←
    if trim registration = "registered" then some true
    else if trim registration = "unregistered" then some false
    else none
  let (modes, topic) ← splitOnce "; topic=" details
  return {
    registered := registered
    modes := some (trim modes) |>.filter fun modes => !modes.isEmpty
    topic := some (trim topic) |>.filter fun topic =>
      !topic.isEmpty && topic != "(none)" }

end Ratspeak
