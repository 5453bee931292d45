import Ratspeak.Client.Session
import Ratspeak.Library.Traces

/-!
# What happens to a session

One function for each command of the user, for what the hub sends and for the
tick.  Whether the link takes an envelope, what is stored of a room and what
the clocks show are arguments.
-/

namespace Ratspeak

open Library

/-- A session, and the envelopes that went out. -/
structure SessionTurn where
  session : ActiveSession
  sent : List Envelope

namespace ActiveSession

def maxRoomBytes (session : ActiveSession) : Nat :=
  session.limits.maxRoomNameBytes.getD defaultRoomMaxBytes

def maxNickBytes (session : ActiveSession) : Nat :=
  session.limits.maxNickBytes.getD defaultNickMaxBytes

def phaseOf (session : ActiveSession) (room : String) :
    Option ChannelRoomPhase :=
  (session.rooms.lookup room).map ChannelRoomSnapshot.phase

def isJoining (session : ActiveSession) (room : String) : Bool :=
  session.phaseOf room = some .joining

/-- The name of a room that is being joined, where there is one. -/
def joiningRoom (session : ActiveSession) : Option String :=
  ((FiniteMap.bindings session.rooms).find? fun entry =>
    entry.2.phase = .joining).map fun entry => entry.2.name

/-- Remember the id of a message, and whether it is new. -/
def remember (session : ActiveSession) (id : MessageId) :
    ActiveSession × Bool :=
  if id ∈ session.seenIds then (session, false)
  else
    ({ session with
        seenIds := appendBounded session.seenIds id seenMessageLimit }, true)

/-- The room with one more item, which also goes to the history. -/
def appendRoomItem (session : ActiveSession) (name : String)
    (room : ChannelRoomSnapshot) (item : ChannelTranscriptItem) :
    ActiveSession :=
  { session with
    rooms := session.rooms.insert name (room.withItem item)
    historyEvents := session.historyEvents ++
      [item.historyEvent session.destinationHash room.name] }

def appendNotice (session : ActiveSession) (item : ChannelTranscriptItem) :
    ActiveSession :=
  { session with
    notices := appendBounded session.notices item noticeLimit }

/-! ## Joining and leaving -/

/-- A room that was asked for. -/
def beginJoin (session : ActiveSession) (nowMs : Nat) (room : String) :
    ActiveSession :=
  { session with
    rooms := session.rooms.insert room (.joining nowMs room)
    roomActivity := session.roomActivity.insert room }

/-- The session without the room. -/
def dropRoom (session : ActiveSession) (room : String) : ActiveSession :=
  { session with
    rooms := session.rooms.erase room
    roomActivity := session.roomActivity.erase room }

def dropSecret (session : ActiveSession) (room : String) : ActiveSession :=
  { session with
    pendingJoinSecrets := session.pendingJoinSecrets.erase room }

def notePending (session : ActiveSession) (room : String)
    (secret : JoinSecretInput) : ActiveSession :=
  match secret.pending with
  | none => session
  | some pending =>
      { session with
        pendingJoinSecrets := session.pendingJoinSecrets.insert room pending }

def joinEnvelope (session : ActiveSession) (nowMs : Nat) (room : String)
    (key : Option String) : Envelope :=
  { Envelope.roomCommand nowMs .join session.source room session.nickname with
    body := key.map Value.text }

/-- Ask for a room that the session does not have. -/
def requestJoin (session : ActiveSession) (nowMs : Nat) (room : String)
    (secret : JoinSecretInput) (send : SendResult) :
    SessionTurn × Except ChannelsError String :=
  match session.joiningRoom with
  | some pending => (⟨session, []⟩, .error (.alreadyJoining pending))
  | none =>
      if session.limits.maxRoomsPerSession.any fun limit =>
          decide (limit ≤ FiniteMap.count
            (fun entry => entry.2.phase ≠ .error) session.rooms) then
        (⟨session, []⟩, .error .roomLimitReached)
      else
        let entered := session.beginJoin nowMs room
        if secret.key.any fun key =>
            decide (maxJoinKeyBytes < key.utf8ByteSize) then
          (⟨entered.dropRoom room, []⟩, .error (.joinKeyTooLong maxJoinKeyBytes))
        else
          match send with
          | .error error => (⟨entered.dropRoom room, []⟩, .error error)
          | .ok () =>
              (⟨entered.notePending room secret,
                [session.joinEnvelope nowMs room secret.key]⟩, .ok room)

section Names

variable [UnicodeTables]

def joinRoom (session : ActiveSession) (nowMs : Nat) (room : String)
    (secret : JoinSecretInput) (send : SendResult) :
    SessionTurn × Except ChannelsError String :=
  match normalizeRoom room session.maxRoomBytes with
  | .error error => (⟨session, []⟩, .error (.protocol error.text))
  | .ok room =>
      match session.phaseOf room with
      | some .joined => (⟨session, []⟩, .ok room)
      | some .joining | some .parting => (⟨session, []⟩, .error (.alreadyJoining room))
      | some .error =>
          -- A failed room stays for its explanation; this is a real retry.
          ((session.dropRoom room).dropSecret room).requestJoin nowMs room secret send
      | none => session.requestJoin nowMs room secret send

def partEnvelope (session : ActiveSession) (nowMs : Nat) (room : String) :
    Envelope :=
  Envelope.roomCommand nowMs .part session.source room session.nickname

def partRoom (session : ActiveSession) (nowMs : Nat) (room : String)
    (send : SendResult) : SessionTurn × Except ChannelsError Unit :=
  match normalizeRoom room session.maxRoomBytes with
  | .error error => (⟨session, []⟩, .error (.protocol error.text))
  | .ok room =>
      let session := session.dropSecret room
      match session.rooms.lookup room with
      | none => (⟨session, []⟩, .error (.notJoined room))
      | some state =>
          let session := { session with
            roomActivity := session.roomActivity.insert room }
          match send with
          | .error error =>
              -- The phase goes back; that it began now and has no error stays.
              (⟨{ session with
                  rooms := session.rooms.insert room
                    (state.enter nowMs state.phase none) }, []⟩,
                .error error)
          | .ok () =>
              (⟨{ session with
                  rooms := session.rooms.insert room (state.enter nowMs .parting none) },
                [session.partEnvelope nowMs room]⟩, .ok ())

/-- The type and the body of a text, where the hub knows actions. -/
def contentOf (supportsAction : Bool) (text : String) :
    MessageType × String :=
  if supportsAction then
    match (stripPrefix "/me " text).filter fun action =>
        !(trim action).isEmpty with
    | some action => (.action, action)
    | none => (.message, text)
  else (.message, text)

def sendRoomText (session : ActiveSession) (nowMs : Nat)
    (room text : String) (send : SendResult) :
    SessionTurn × Except ChannelsError Unit :=
  if (trim text).isEmpty then (⟨session, []⟩, .error .emptyMessage)
  else
    match normalizeRoom room session.maxRoomBytes with
    | .error error => (⟨session, []⟩, .error (.protocol error.text))
    | .ok room =>
        if session.phaseOf room ≠ some .joined then
          (⟨session, []⟩, .error (.notJoined room))
        else
          let (messageType, body) := contentOf session.supportsAction text
          let maxMessage := session.limits.maxMessageBodyBytes.getD defaultMessageMaxBytes
          if maxMessage < body.utf8ByteSize then
            (⟨session, []⟩, .error (.messageTooLong maxMessage))
          else
            match send with
            | .error error => (⟨session, []⟩, .error error)
            | .ok () =>
                (⟨session, [Envelope.roomText nowMs messageType session.source
                  room session.nickname body]⟩, .ok ())

end Names

/-! ## The directory -/

def refreshRoomDirectory (session : ActiveSession) (clock : ClientClock)
    (send : SendResult) : SessionTurn × Except ChannelsError Unit :=
  if session.directoryRequestDeadline.isSome then (⟨session, []⟩, .ok ())
  else if session.directoryLastRequestedAt.any fun last =>
      decide (clock.now - last < directoryRefreshCooldown) then
    (⟨session, []⟩, .ok ())
  else
    let session := { session with
      directoryLastRequestedAt := some clock.now }
    match send with
    | .ok () =>
        (⟨{ session with
            directory := { session.directory with
              phase := .loading
              lastError := none }
            directoryRequestDeadline :=
              some (clock.now + directoryRefreshTimeout) },
          [{ Envelope.new clock.nowMs .message session.source with
            nickname := some session.nickname
            body := some (.text "/list") }]⟩, .ok ())
    | .error error =>
        (⟨{ session with
            directory := { session.directory with
              phase := .error
              lastError :=
                some "Could not request public channels from this hub" }
            directoryRequestDeadline := none }, []⟩, .error error)

def directoryFailed (session : ActiveSession) (reason : String) :
    ActiveSession :=
  { session with
    directoryRequestDeadline := none
    directory := { session.directory with
      phase := .error
      lastError := some reason } }

def expireDirectoryRequest (session : ActiveSession) (now : Nat) :
    ActiveSession :=
  if session.directoryRequestDeadline.any fun deadline =>
      decide (deadline ≤ now) then
    session.directoryFailed "The hub did not answer the public channel request"
  else session

inductive RoomDirectoryNoticeHandling where
  | notDirectory
  | appliedVisible
  | appliedConsumed
deriving DecidableEq, Repr

def applyRoomDirectoryError (session : ActiveSession) (envelope : Envelope) :
    Option ActiveSession :=
  if session.directoryRequestDeadline.isNone ∨
      envelope.source ≠ session.hubIdentity ∨ envelope.room.isSome then none
  else
    some (session.directoryFailed "The hub rejected the public channel request")

section Names

variable [UnicodeTables]

def applyRoomDirectoryNotice (session : ActiveSession) (nowMs : Nat)
    (envelope : Envelope) : ActiveSession × RoomDirectoryNoticeHandling :=
  let pending := session.directoryRequestDeadline.isSome
  match parseRoomDirectoryNotice envelope session.hubIdentity session.maxRoomBytes with
  | .notDirectory => (session, .notDirectory)
  | .malformed =>
      if pending then
        (session.directoryFailed
          "The hub returned an invalid public channel list", .appliedConsumed)
      else (session, .appliedVisible)
  | .directory rooms omittedCount =>
      ({ session with
          directory := {
            phase := .ready
            rooms := rooms
            complete := omittedCount = 0
            omittedCount := omittedCount
            refreshedAtMs := some nowMs
            lastError := none }
          directoryRequestDeadline := none },
        if pending then .appliedConsumed else .appliedVisible)

/-! ## What the hub says about rooms -/

def normalizedEnvelopeRoom (session : ActiveSession) (envelope : Envelope) :
    Option String :=
  envelope.room.bind fun room =>
    (normalizeRoom room session.maxRoomBytes).toOption

/-- The member as it is entered from a roster. -/
def rosterNickname (session : ActiveSession) (identity : IdentityHash)
    (single : Option String) : Option String :=
  if identity = session.source then some session.nickname else single

/-- The members after a roster, and whether its last one is new. -/
def enterRoster (session : ActiveSession) (single : Option String)
    (members : List ChannelMemberSnapshot) (identities : List IdentityHash) :
    List ChannelMemberSnapshot × Bool :=
  identities.foldl (fun entered identity =>
    upsertMember entered.1 (some identity)
      (session.rosterNickname identity single)
      (identity = session.source)) (members, false)

/-- The observations that a roster gives rise to. -/
def observeRoster (session : ActiveSession) (roomName : String)
    (nicknameOf : IdentityHash → Option String)
    (identities : List IdentityHash) : ActiveSession :=
  { session with
    participantObservations :=
      identities.foldl (fun observations identity =>
        queueParticipantObservation observations session.destinationHash
          session.source session.hubIdentity roomName identity
          (nicknameOf identity)) session.participantObservations }

/-- What a JOINED does to the members: the list, whether it is complete, and
whether somebody new is in it, by identity or by nickname. -/
structure RosterChange where
  members : List ChannelMemberSnapshot
  complete : Bool
  singleInserted : Bool
  nicknameInserted : Bool

def rosterChange (session : ActiveSession) (room : ChannelRoomSnapshot)
    (identities : List IdentityHash) (nickname : Option String)
    (confirmingSelf : Bool) : RosterChange :=
  let includesSelf := identities.contains session.source
  -- Another link of the same identity joined: no roster, only a delta.
  let sameIdentityDelta :=
    room.phase = .joined && identities.length = 1 && includesSelf
  let replacesRoster := (confirmingSelf || includesSelf) && !sameIdentityDelta
  if !identities.isEmpty then
    let entered := session.enterRoster
      (if identities.length = 1 then nickname else none)
      (if replacesRoster then [] else room.members) identities
    { members := entered.1
      complete :=
        if replacesRoster then true
        else if 1 < identities.length then false
        else room.membersComplete
      singleInserted := identities.length = 1 && entered.2
      nicknameInserted := false }
  else if confirmingSelf then
    { members := (upsertMember room.members (some session.source)
        (some session.nickname) true).1
      complete := false
      singleInserted := false
      nicknameInserted := false }
  else
    match nickname with
    | none => ⟨room.members, room.membersComplete, false, false⟩
    | some nickname =>
        let entered := upsertMember room.members none (some nickname) false
        ⟨entered.1, room.membersComplete, false, entered.2⟩

/-- The line that tells of somebody who joined. -/
def joinItem (session : ActiveSession) (envelope : Envelope)
    (identities : List IdentityHash) (confirmingSelf : Bool) :
    ChannelTranscriptItem :=
  let nickname :=
    if confirmingSelf then some session.nickname else envelope.nickname
  { transcriptItem envelope .join nickname
      (if confirmingSelf then "You joined"
        else nickname.getD "A member" ++ " joined") confirmingSelf with
    sourceHash :=
      if confirmingSelf then some session.source
      else if identities.length = 1 then identities.head?
      else none }

def applyJoined (session : ActiveSession) (nowMs : Nat) (envelope : Envelope) : ActiveSession :=
  match session.normalizedEnvelopeRoom envelope with
  | none => session
  | some name =>
      let reconnectingRoom := decide (name ∈ session.autoRejoining) &&
        decide (session.connectOrigin = .recovery)
      let session := { session with
        autoRejoining := session.autoRejoining.erase name }
      match session.rooms.lookup name with
      | none => session
      | some room =>
          if room.phase = .parting then session
          else
            let identities := memberIdentities envelope
            let includesSelf := identities.contains session.source
            let confirmingSelf := room.phase = .joining || room.phase = .error && includesSelf
            if room.phase = .error ∧ confirmingSelf = false then session
            else
              let change := session.rosterChange room identities
                envelope.nickname confirmingSelf
              let single :=
                if identities.length = 1 then envelope.nickname else none
              let session := session.observeRoster name
                (fun identity => session.rosterNickname identity single)
                identities
              let joinAlreadyVisible :=
                confirmingSelf && selfJoinTransitionVisible room
              let nicknameOnlyJoin := room.phase = .joined &&
                identities.isEmpty && change.nicknameInserted &&
                envelope.nickname.any fun nickname => !nickname.isEmpty
              let isJoinEvent := confirmingSelf ||
                identities.length = 1 && !includesSelf &&
                  change.singleInserted || nicknameOnlyJoin
              let room := { room.enter nowMs .joined none with
                members := change.members
                membersComplete := change.complete }
              if joinAlreadyVisible = false ∧ isJoinEvent = true ∧
                  (reconnectingRoom && confirmingSelf) = false then
                session.appendRoomItem name room
                  (session.joinItem envelope identities confirmingSelf)
              else
                { session with rooms := session.rooms.insert name room }

/-- A status notice of the hub about a room of the session. -/
def applyRrcdRoomStatusNotice (session : ActiveSession) (nowMs : Nat)
    (envelope : Envelope) : ActiveSession × Bool :=
  if envelope.source ≠ session.hubIdentity then (session, false)
  else
    match session.normalizedEnvelopeRoom envelope with
    | none => (session, false)
    | some name =>
        match envelope.textBody.bind (parseRrcdRoomStatus name) with
        | none => (session, false)
        | some status =>
            let reconnectingRoom := decide (name ∈ session.autoRejoining) &&
              decide (session.connectOrigin = .recovery)
            let session := { session with
              autoRejoining := session.autoRejoining.erase name }
            match session.rooms.lookup name with
            | none => (session, false)
            | some room =>
                let room := { room with
                  registered := some status.registered
                  modes := status.modes
                  topic := status.topic }
                if room.phase = .joining ∨ room.phase = .error then
                  let room := { room.enter nowMs .joined none with
                    membersComplete := false
                    members := (upsertMember room.members
                      (some session.source) (some session.nickname) true).1 }
                  if reconnectingRoom = false ∧
                      selfJoinTransitionVisible room = false then
                    let item := transcriptItem envelope .join
                      (some session.nickname) "You joined" true
                    (session.appendRoomItem name room
                      { item with
                        id := item.id ++ "-joined"
                        sourceHash := some session.source }, true)
                  else
                    ({ session with
                        rooms := session.rooms.insert name room }, true)
                else
                  ({ session with
                      rooms := session.rooms.insert name room }, true)

/-- The members without those who left. -/
def withoutParted (identities : List IdentityHash)
    (nickname : Option String) (members : List ChannelMemberSnapshot) :
    List ChannelMemberSnapshot :=
  if !identities.isEmpty then
    members.filter fun member =>
      member.identityHash.all fun identity => !identities.contains identity
  else
    match nickname.bind fun nickname =>
        members.findIdx? fun member =>
          decide (member.nickname = some nickname) && !member.isSelf with
    | some index => members.eraseIdx index
    | none => members

def applyParted (session : ActiveSession) (envelope : Envelope) :
    ActiveSession :=
  match session.normalizedEnvelopeRoom envelope with
  | none => session
  | some name =>
      match session.rooms.lookup name with
      | none => session
      | some room =>
          if room.phase = .parting then
            { session with rooms := session.rooms.erase name }
          else
            let identities := memberIdentities envelope
            let single :=
              if identities.length = 1 then envelope.nickname else none
            let session := session.observeRoster name (fun _ => single)
              identities
            let item := transcriptItem envelope .part envelope.nickname
              (envelope.nickname.getD "A member" ++ " left") false
            session.appendRoomItem name
              { room with
                members := withoutParted identities envelope.nickname room.members }
              { item with
                sourceHash :=
                  if identities.length = 1 then identities.head? else none }

/-! ## Confirmations -/

/-- The key has proved itself: what the store is to do. -/
def PendingSecret.action (room : String) :
    PendingJoinSecret → Option RoomSecretAction
  | .userRemember key => some (.persist room key)
  | .userEphemeral => some (.forgetRequired room)
  | .stored => none

def completePendingJoinSecret (session : ActiveSession) (room : String) :
    ActiveSession :=
  match session.pendingJoinSecrets.lookup room with
  | none => session
  | some pending =>
      { session.dropSecret room with
        roomSecretActions := session.roomSecretActions ++
          (PendingSecret.action room pending).toList }

/-- The room that an envelope may confirm, with its phase before. -/
def confirmationContext (session : ActiveSession) (envelope : Envelope) :
    Option (String × ChannelRoomPhase) :=
  (session.normalizedEnvelopeRoom envelope).bind fun name =>
    (session.rooms.lookup name).bind fun room =>
      if name ∈ session.roomActivity then some (name, room.phase) else none

def recordJoinConfirmation (session : ActiveSession)
    (confirmation : Option (String × ChannelRoomPhase)) : ActiveSession :=
  match confirmation with
  | none => session
  | some (name, prior) =>
      if prior = .joined ∨ session.phaseOf name ≠ some .joined then session
      else session.completePendingJoinSecret name

def recordPartConfirmation (session : ActiveSession)
    (confirmation : Option (String × ChannelRoomPhase)) : ActiveSession :=
  match confirmation with
  | none => session
  | some (name, prior) =>
      if prior ≠ .parting then session
      else
        { session with roomActivity := session.roomActivity.erase name }

/-! ## Errors of the hub -/

/-- The room that an error is about. -/
def erroneousRoom (session : ActiveSession) (envelope : Envelope) :
    Option String :=
  match session.normalizedEnvelopeRoom envelope with
  | some room => some room
  | none =>
      match (FiniteMap.bindings session.rooms).filter fun entry =>
          entry.2.phase = .joining with
      | [entry] => some entry.2.name
      | _ => none

/-- What the user is told about an error. -/
def errorText (joining : Bool) (pending : Option PendingJoinSecret)
    (hubText : String) : String :=
  if joining && hubText = badRoomKeyError then
    match pending with
    | some .stored => savedRoomKeyRejected
    | some _ => enteredRoomKeyRejected
    | none => roomKeyRequired
  else hubText

/-- What the store is to do about an error. -/
def errorAction (room : String) (joining : Bool)
    (pending : Option PendingJoinSecret) (hubText : String) :
    Option RoomSecretAction :=
  if joining && hubText = badRoomKeyError then
    if pending = some .stored then some (.forgetRejected room)
    else some (.markRequired room)
  else none

def hubErrorText (envelope : Envelope) : String :=
  envelope.textBody.getD "Channel hub reported an error"

/-- The room after an error about it. -/
def ChannelRoomSnapshot.withError (nowMs : Nat) (text : String)
    (room : ChannelRoomSnapshot) : ChannelRoomSnapshot :=
  match room.phase with
  | .joining => room.enter nowMs .error (some text)
  | .parting => room.enter nowMs .joined (some text)
  | .joined | .error => room

def appendError (session : ActiveSession) (nowMs : Nat) (envelope : Envelope) : ActiveSession :=
  let hubText := hubErrorText envelope
  match session.erroneousRoom envelope with
  | none => session.appendNotice (transcriptItem envelope .error none hubText false)
  | some name =>
      let session := { session with
        autoRejoining := session.autoRejoining.erase name }
      match session.rooms.lookup name with
      | none => session.appendNotice (transcriptItem envelope .error none hubText false)
      | some room =>
          let joining : Bool := room.phase = .joining
          let pending :=
            if joining then session.pendingJoinSecrets.lookup name else none
          let text := errorText joining pending hubText
          let session :=
            if joining then session.dropSecret name else session
          { session with
            roomSecretActions := session.roomSecretActions ++
              (errorAction name joining pending hubText).toList }
            |>.appendRoomItem name
              (ChannelRoomSnapshot.withError nowMs text room)
              (transcriptItem envelope .error none text false)

/-! ## Content -/

section Content

variable [WordTables]

/-- The room after content: who spoke in it is a member of it. -/
def heardMember (session : ActiveSession) (envelope : Envelope)
    (name : String) (room : ChannelRoomSnapshot) :
    ActiveSession × ChannelRoomSnapshot :=
  if room.phase = .joined ∧ (envelope.messageType = .message ∨
      envelope.messageType = .action) ∧
      envelope.source ≠ session.hubIdentity then
    let nickname := envelope.nickname.bind fun nickname =>
      (normalizeNickname nickname session.maxNickBytes).toOption
    let entered := upsertMember room.members (some envelope.source) nickname
      (envelope.source = session.source)
    (session.observeRoster name (fun _ => nickname) [envelope.source],
      { room with
        members := entered.1
        membersComplete := room.membersComplete && !entered.2 })
  else (session, room)

def contentItem (session : ActiveSession) (envelope : Envelope)
    (text : String) : ChannelTranscriptItem :=
  let kind : ChannelItemKind :=
    match envelope.messageType with
    | .notice => .notice
    | .action => .action
    | _ => .message
  { transcriptItem envelope kind envelope.nickname text
      (envelope.source = session.source) with
    mentioned :=
      envelope.source ≠ session.source &&
        (envelope.messageType = .message || envelope.messageType = .action) &&
        channelTextMentions text session.nickname session.source }

def appendContent (session : ActiveSession) (clock : ClientClock)
    (envelope : Envelope) (encodedBytes : Nat) : ActiveSession :=
  match envelope.textBody with
  | none => session
  | some text =>
      let item := session.contentItem envelope text
      match envelope.room.bind fun name =>
          (session.rooms.lookup name).map fun room => (name, room) with
      | some (name, room) =>
          let heard := session.heardMember envelope name room
          heard.1.appendRoomItem name heard.2 item
      | none =>
          if envelope.messageType ≠ .notice then session
          else
            match session.greeting.applyRoomlessNotice
                (envelope.source = session.hubIdentity) session.mdu
                encodedBytes clock text with
            | some greeting => { session with greeting := greeting }
            | none =>
                { session with
                  greeting := { session.greeting with
                    hubGreetingNoticeMayContinue := false } }
                  |>.appendNotice item

/-! ## Envelopes -/

/-- Only the hub itself may send these. -/
def isHubControl : MessageType → Bool
  | .welcome | .joined | .parted | .ping | .error | .resourceEnvelope => true
  | _ => false

def applyWelcome (session : ActiveSession) (envelope : Envelope) :
    ActiveSession :=
  let welcome := parseWelcome envelope
  let limits := welcome.limits
  { session with
    supportsAction :=
      (welcome.capabilities.get capAction).getD session.supportsAction
    supportsResources :=
      (welcome.capabilities.get capResourceEnvelope).getD session.supportsResources
    limits :=
      if limits.maxNickBytes.isNone && limits.maxRoomNameBytes.isNone &&
          limits.maxMessageBodyBytes.isNone &&
          limits.maxRoomsPerSession.isNone &&
          limits.rateMessagesPerMinute.isNone then session.limits
      else limits }

def applyNotice (session : ActiveSession) (clock : ClientClock)
    (envelope : Envelope) (encodedBytes : Nat) : ActiveSession :=
  let directory := session.applyRoomDirectoryNotice clock.nowMs envelope
  match directory.2 with
  | .appliedConsumed =>
      { directory.1 with
        greeting := { directory.1.greeting with
          hubGreetingNoticeMayContinue := false } }
  | .appliedVisible => directory.1.appendContent clock envelope encodedBytes
  | .notDirectory =>
      let confirmation := directory.1.confirmationContext envelope
      let status := directory.1.applyRrcdRoomStatusNotice clock.nowMs envelope
      if status.2 then status.1.recordJoinConfirmation confirmation
      else status.1.appendContent clock envelope encodedBytes

/-- An envelope that is new, may come from where it comes, and is of a known
type other than the announcement of a resource. -/
def applyEnvelope (session : ActiveSession) (clock : ClientClock)
    (envelope : Envelope) (encodedBytes : Nat) : ActiveSession :=
  match envelope.messageType with
  | .welcome => session.applyWelcome envelope
  | .joined =>
      let confirmation := session.confirmationContext envelope
      (session.applyJoined clock.nowMs envelope).recordJoinConfirmation confirmation
  | .parted =>
      let confirmation := session.confirmationContext envelope
      (session.applyParted envelope).recordPartConfirmation confirmation
  | .message | .action => session.appendContent clock envelope encodedBytes
  | .notice => session.applyNotice clock envelope encodedBytes
  | .error =>
      match session.applyRoomDirectoryError envelope with
      | some rejected => rejected
      | none => session.appendError clock.nowMs envelope
  | .ping | .pong | .hello | .join | .part | .resourceEnvelope
  | .unknown _ => session

/-- The notices of a greeting may go on after this envelope. -/
def preservesNoticeBurst (session : ActiveSession) (envelope : Envelope) :
    Bool :=
  envelope.messageType = .ping || envelope.messageType = .pong ||
    envelope.messageType = .notice && envelope.room.isNone &&
      envelope.source = session.hubIdentity

def handleEnvelope (session : ActiveSession) (clock : ClientClock)
    (envelope : Envelope) (encodedBytes : Nat) (send : SendResult) :
    SessionTurn :=
  if isHubControl envelope.messageType = true ∧
      envelope.source ≠ session.hubIdentity then ⟨session, []⟩
  else
    let envelope := { envelope with
      timestampMs :=
        sanitizeDisplayTimestampMs envelope.timestampMs clock.nowMs }
    let remembered := session.remember envelope.messageId
    let session := remembered.1
    if remembered.2 = false then ⟨session, []⟩
    else
      match envelope.messageType with
      | .unknown _ => ⟨session, []⟩
      | .resourceEnvelope =>
          ⟨{ session with
            greeting := session.greeting.acceptHubGreetingResourceEnvelope
              session.supportsResources clock.now envelope }, []⟩
      | messageType =>
          let session := { session with
            greeting := { session.greeting with
              hubGreetingNoticeMayContinue :=
                session.greeting.hubGreetingNoticeMayContinue &&
                  session.preservesNoticeBurst envelope } }
          ⟨session.applyEnvelope clock envelope encodedBytes,
            if messageType = .ping ∧ send.isOk then
              [Envelope.pong clock.nowMs session.source envelope]
            else []⟩

end Content

/-! ## The tick -/

/-- The join of a room was not answered in time. -/
def joinTimedOut (nowMs : Nat) (room : ChannelRoomSnapshot) : Bool :=
  room.phase = .joining && joinConfirmTimeout ≤ nowMs - room.phaseStartedAtMs

def partTimedOut (nowMs : Nat) (room : ChannelRoomSnapshot) : Bool :=
  room.phase = .parting && partConfirmTimeout ≤ nowMs - room.phaseStartedAtMs

def expireRoom (nowMs : Nat) (room : ChannelRoomSnapshot) :
    ChannelRoomSnapshot :=
  if joinTimedOut nowMs room then room.enter nowMs .error (some joinUnanswered)
  else room

def expireRoomTransitions (session : ActiveSession) (nowMs : Nat) :
    ActiveSession :=
  { session with
    rooms := FiniteMap.mapValues (fun _ room => expireRoom nowMs room)
      (FiniteMap.retain (fun _ room => !partTimedOut nowMs room)
        session.rooms)
    roomActivity := session.roomActivity.filter fun name =>
      (session.rooms.lookup name).all fun room => !partTimedOut nowMs room }

/-- A room whose rejoin failed. -/
def insertAutoRejoinError (session : ActiveSession) (nowMs : Nat)
    (room error : String) : ActiveSession :=
  { session with
    rooms := session.rooms.insert room (.failed nowMs room error) }

/-- What a join answered to the driver of the rejoins. -/
def SessionTurn.concludeRejoin (nowMs : Nat) (room : String)
    (answer : SessionTurn × Except ChannelsError String) : SessionTurn where
  session :=
    match answer.2 with
    | .ok joined =>
        { answer.1.session with
          autoRejoining := answer.1.session.autoRejoining.insert joined }
    | .error error =>
        answer.1.session.insertAutoRejoinError nowMs room
          ("Automatic rejoin failed: " ++ error.text)
  sent := answer.1.sent

/-- Join the next room of the queue that is not joined yet. -/
def rejoinNext (session : ActiveSession) (nowMs : Nat)
    (stored : String → StoredRoomKey) (send : SendResult) :
    List String → SessionTurn
  | [] => ⟨{ session with autoRejoinQueue := [] }, []⟩
  | room :: rest =>
      if session.phaseOf room = some .joined then
        session.rejoinNext nowMs stored send rest
      else
        let session := { session with autoRejoinQueue := rest }
        match stored room with
        | .sealed none =>
            ⟨session.insertAutoRejoinError nowMs room savedRoomKeyUnavailable, []⟩
        | .absent true => ⟨session.insertAutoRejoinError nowMs room roomKeyRequired, []⟩
        | .sealed (some key) =>
            SessionTurn.concludeRejoin nowMs room
              (session.joinRoom nowMs room (.stored key) send)
        | .absent false =>
            SessionTurn.concludeRejoin nowMs room (session.joinRoom nowMs room .none send)

def driveAutoRejoin (session : ActiveSession) (nowMs : Nat)
    (stored : String → StoredRoomKey) (send : SendResult) : SessionTurn :=
  if (FiniteMap.bindings session.rooms).any fun entry =>
      entry.2.phase = .joining then ⟨session, []⟩
  else session.rejoinNext nowMs stored send session.autoRejoinQueue

/-- The rooms of an earlier session that are to be joined again. -/
def prepareAutoRejoin (session : ActiveSession) (desired : List String) :
    ActiveSession :=
  { session with
    autoRejoinQueue := desired.take
      (min (session.limits.maxRoomsPerSession.getD autoRejoinRoomLimit) autoRejoinRoomLimit)
    autoRejoining := ∅ }

def tick (session : ActiveSession) (clock : ClientClock)
    (stored : String → StoredRoomKey) (send : SendResult) : SessionTurn :=
  let session := (session.expireRoomTransitions clock.nowMs)
    |>.expireDirectoryRequest clock.now
  let session := { session with
    greeting := session.greeting.expireHubGreetingResourceState clock.now
    autoRejoining := session.autoRejoining.filter session.isJoining
    pendingJoinSecrets := FiniteMap.retain (fun room _ => session.isJoining room)
      session.pendingJoinSecrets }
  session.driveAutoRejoin clock.nowMs stored send

/-! ## Whole steps -/

def adoptRenamedNickname (sessionNickname previous current : String)
    (maxBytes : Nat) : Option String :=
  if previous.isEmpty ∨ sessionNickname ≠ previous then none
  else
    (normalizeNickname current maxBytes).toOption.filter fun adopted =>
      adopted ≠ sessionNickname

/-- Hand the history and as many observations as the writer has room for
over. -/
def enqueuePersistence (session : ActiveSession) (taken : Nat) :
    ActiveSession :=
  { session with
    historyEvents := []
    participantObservations := session.participantObservations.drop taken }

end Names

/-- A session that has just come up. -/
def new (linkId : LinkId) (mdu : Nat) (source : IdentityHash)
    (destinationHash : Bytes 16) (hubIdentity : IdentityHash)
    (nickname : String) (supportsAction supportsResources : Bool)
    (limits : HubLimits) (now : Nat) : ActiveSession where
  linkId := linkId
  mdu := mdu
  source := source
  destinationHash := destinationHash
  hubIdentity := hubIdentity
  nickname := nickname
  supportsAction := supportsAction
  supportsResources := supportsResources
  limits := limits
  rooms := ∅
  directory := ⟨.idle, [], false, 0, none, none⟩
  directoryRequestDeadline := none
  directoryLastRequestedAt := none
  greeting := .new now
  transfers := []
  notices := []
  seenIds := []
  roomActivity := ∅
  autoRejoinQueue := []
  autoRejoining := ∅
  pendingJoinSecrets := ∅
  roomSecretActions := []
  historyEvents := []
  participantObservations := []
  connectOrigin := .user

end ActiveSession

/-- What can happen to a session. -/
inductive SessionInput where
  | join (clock : ClientClock) (room : String) (secret : JoinSecretInput)
      (send : SendResult)
  | part (clock : ClientClock) (room : String) (send : SendResult)
  | text (clock : ClientClock) (room text : String) (send : SendResult)
  | refreshDirectory (clock : ClientClock) (send : SendResult)
  | renamed (previous current : String)
  /-- The session is up: join what an earlier one had. -/
  | ready (clock : ClientClock) (origin : ConnectOrigin)
      (desired : List String) (stored : String → StoredRoomKey)
      (send : SendResult)
  /-- A packet of the link holds this envelope; the writer of the history
  then takes so many observations. -/
  | packet (clock : ClientClock) (envelope : Envelope) (encodedBytes : Nat)
      (send : SendResult) (taken : Nat)
  | offer (clock : ClientClock) (offer : ResourceOffer) (accepted : Bool)
      (answeredAt : Nat)
  /-- The transfer at this place has ended. -/
  | transferEnded (clock : ClientClock) (index : Nat)
      (result : Option ReceivedResource)
  | tick (clock : ClientClock) (stored : String → StoredRoomKey)
      (send : SendResult) (taken : Nat)

/-- A session after an input, what went out over the link, and the actions
on join keys that were queued for the store. -/
structure SessionReport where
  session : ActiveSession
  sent : List Envelope
  secrets : List RoomSecretAction

/-- The session that met an input, and the report on it. -/
structure SessionRecord where
  session : ActiveSession
  report : SessionReport

namespace ActiveSession

section Steps

variable [UnicodeTables] [WordTables]

/-- The actions on join keys leave the session. -/
def applyRoomSecretActions (turn : SessionTurn) : SessionReport where
  session := { turn.session with roomSecretActions := [] }
  sent := turn.sent
  secrets := turn.session.roomSecretActions

/-- An offer of a resource; a transfer that starts gets a task. -/
def receiveOffer (session : ActiveSession) (clock : ClientClock)
    (offer : ResourceOffer) (accepted : Bool) (answeredAt : Nat) :
    ActiveSession :=
  let answer := session.greeting.handleHubGreetingResourceOffer session.linkId
    clock.now offer accepted answeredAt
  { session with
    greeting := answer.1
    transfers := session.transfers ++ answer.2.toList }

def endTransfer (session : ActiveSession) (sha256 : List UInt8 → Bytes 32)
    (clock : ClientClock) (index : Nat) (result : Option ReceivedResource) :
    ActiveSession :=
  match session.transfers[index]? with
  | none => session
  | some transfer =>
      { session with
        transfers := session.transfers.eraseIdx index
        greeting := session.greeting.applyHubGreetingResourceCompletion sha256
          session.linkId clock transfer result }

/-- One turn of the loop of the manager that serves the session. -/
def step (sha256 : List UInt8 → Bytes 32) (session : ActiveSession) :
    SessionInput → SessionReport
  | .join clock room secret send =>
      let turn := (session.joinRoom clock.nowMs room secret send).1
      ⟨turn.session, turn.sent, []⟩
  | .part clock room send =>
      let turn := (session.partRoom clock.nowMs room send).1
      ⟨turn.session, turn.sent, []⟩
  | .text clock room text send =>
      let turn := (session.sendRoomText clock.nowMs room text send).1
      ⟨turn.session, turn.sent, []⟩
  | .refreshDirectory clock send =>
      let turn := (session.refreshRoomDirectory clock send).1
      ⟨turn.session, turn.sent, []⟩
  | .renamed previous current =>
      match adoptRenamedNickname session.nickname previous current session.maxNickBytes with
      | none => ⟨session, [], []⟩
      | some adopted => ⟨{ session with nickname := adopted }, [], []⟩
  | .ready clock origin desired stored send =>
      let turn := ({ session with connectOrigin := origin }
        |>.prepareAutoRejoin desired).driveAutoRejoin clock.nowMs stored send
      ⟨turn.session, turn.sent, []⟩
  | .packet clock envelope encodedBytes send taken =>
      let turn := session.handleEnvelope clock envelope encodedBytes send
      applyRoomSecretActions ⟨turn.session.enqueuePersistence taken, turn.sent⟩
  | .offer clock offer accepted answeredAt =>
      ⟨session.receiveOffer clock offer accepted answeredAt, [], []⟩
  | .transferEnded clock index result =>
      ⟨session.endTransfer sha256 clock index result, [], []⟩
  | .tick clock stored send taken =>
      let turn := session.tick clock stored send
      ⟨turn.session.enqueuePersistence taken, turn.sent, []⟩

/-- The session after a list of inputs. -/
def run (sha256 : List UInt8 → Bytes 32) (session : ActiveSession)
    (inputs : List SessionInput) : ActiveSession :=
  runFrom (fun session input => (session.step sha256 input).session) session
    inputs

/-- What the session did at an input. -/
def record (sha256 : List UInt8 → Bytes 32) (session : ActiveSession)
    (input : SessionInput) : SessionRecord where
  session := session
  report := session.step sha256 input

/-- What happened to the session, input by input. -/
def trace (sha256 : List UInt8 → Bytes 32) (session : ActiveSession)
    (inputs : List SessionInput) : List (SessionInput × SessionRecord) :=
  traceFrom (record sha256) (fun record => record.report.session) session
    inputs

end Steps

end ActiveSession

end Ratspeak
