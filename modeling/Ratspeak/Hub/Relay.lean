import Ratspeak.Hub.Commands

/-!
# Relaying

Messages, notices and actions of one link go out to every member of the room,
the sender included, under the sender's authenticated identity.  A notice may
also be addressed to one identity, or be delivered as a resource that the
link announced before.
-/

namespace Ratspeak

open Library

namespace HubCore

/-- Why nothing of this link is relayed into the room, if that is so.  A
`+n` room is closed to those outside it, and only once it is known to them. -/
def relayRefusal (core : HubCore) (linkId : LinkId)
    (identity : IdentityHash) (roomName : String) : Option String :=
  let room := core.rooms.lookup roomName
  let outside : Option String :=
    if core.sessionInRoom linkId roomName then none
    else
      match room with
      | none => some "no such room"
      | some room =>
          if !core.canViewRoom room identity then some "no such room"
          else if room.noOutsideMsgs then some "no outside messages (+n)"
          else none
  match outside, room with
  | some text, _ => some text
  | none, none => none
  | none, some room =>
      if identity ∈ room.bans then some "banned from room"
      else if room.moderated && !core.isVoiced room identity then
        some "room is moderated (+m)"
      else none

end HubCore

/-- Drop the nickname of an envelope that does not fit with it. -/
def Envelope.shedNickname (envelope : Envelope) : Envelope :=
  if linkPacketBudget < envelope.encodedLen ∧ envelope.nickname.isSome then
    { envelope with nickname := none }
  else envelope

namespace HubTurn

/-- Go on if the link may relay into the room. -/
def withRelayGate (turn : HubTurn) (linkId : LinkId)
    (identity : IdentityHash) (roomName : String)
    (refused next : HubTurn → HubTurn) : HubTurn :=
  match turn.core.relayRefusal linkId identity roomName with
  | some text => refused (turn.pushError linkId text (some roomName))
  | none => next turn

/-- A valid nickname of an inbound envelope becomes that of the session; an
invalid one is stripped; without one the session's own goes along. -/
def relayNickname (core : HubCore) (linkId : LinkId) (envelope : Envelope) : Option String :=
  let maxBytes := core.config.maxNickBytes
  match core.sessions.lookup linkId with
  | none => envelope.nickname
  | some session =>
      match envelope.nickname with
      | some nickname => (normalizeNickname nickname maxBytes).toOption
      | none =>
          session.nickname.bind fun nickname =>
            (normalizeNickname nickname maxBytes).toOption

def rememberNickname (turn : HubTurn) (linkId : LinkId) (envelope : Envelope) : HubTurn :=
  match envelope.nickname with
  | none => turn
  | some nickname =>
      match normalizeNickname nickname turn.core.config.maxNickBytes with
      | .error _ => turn
      | .ok normalized =>
          turn.modifySession linkId fun session =>
            { session with nickname := some normalized }

/-- The envelope as the hub passes it on. -/
def relayedEnvelope (core : HubCore) (linkId : LinkId)
    (identity : IdentityHash) (room : Option String) (envelope : Envelope) : Envelope :=
  Envelope.shedNickname
    { envelope with
      source := identity
      room := room
      nickname := relayNickname core linkId envelope }

def countForwarded (messageType : MessageType) (stats : HubStats) :
    HubStats :=
  if messageType = .message then
    { stats with messagesForwarded := stats.messagesForwarded + 1 }
  else if messageType = .action then
    { stats with actionsForwarded := stats.actionsForwarded + 1 }
  else { stats with noticesForwarded := stats.noticesForwarded + 1 }

/-- Send one envelope to every member of the room. -/
def fanOut (turn : HubTurn) (room : HubRoom) (envelope : Envelope) :
    HubTurn :=
  turn.pushAll <| room.members.toList.map fun member =>
    .envelope member envelope

/-- Relay an envelope that passed the gates. -/
def relayInto (turn : HubTurn) (linkId : LinkId) (identity : IdentityHash)
    (roomName : String) (envelope : Envelope) : HubTurn :=
  let relayed := relayedEnvelope turn.core linkId identity (some roomName) envelope
  let turn := turn.rememberNickname linkId envelope
  if linkPacketBudget < relayed.encodedLen then
    turn.pushError linkId
      ("message too large for " ++ roomName ++ ": " ++
        toString relayed.encodedLen ++ " bytes > " ++
        toString linkPacketBudget ++ " bytes") (some roomName)
  else
    let turn := turn.modifyStats (countForwarded envelope.messageType)
    match turn.core.rooms.lookup roomName with
    | none => turn
    | some room => (turn.fanOut room relayed).noteRelayed roomName

/-- A notice to one identity. -/
def onDirectNotice (turn : HubTurn) (linkId : LinkId)
    (identity : IdentityHash) (envelope : Envelope) : HubTurn :=
  if envelope.room.isSome then
    turn.pushError linkId "direct notice must not include room" none
  else
    match envelope.destination with
    | none => turn.pushError linkId "direct notice requires destination identity" none
    | some destination =>
        match turn.core.byIdentity.lookup destination with
        | none => turn.pushError linkId "destination not connected" none
        | some targetLink =>
            let relayed := relayedEnvelope turn.core linkId identity envelope.room envelope
            let turn := turn.rememberNickname linkId envelope
            if linkPacketBudget < relayed.encodedLen then
              turn.pushError linkId
                ("message too large: " ++ toString relayed.encodedLen ++
                  " bytes > " ++ toString linkPacketBudget ++ " bytes") none
            else
              (turn.modifyStats fun stats =>
                { stats with directNotices := stats.directNotices + 1 }).push
                (.envelope targetLink relayed)

/-- Whether the text is meant as a command. -/
def isSlashText (envelope : Envelope) : Bool :=
  envelope.textBody.any fun text =>
    envelope.messageType != .action && startsWithChar '/' (trimStart text)

section Relay

variable [UnicodeTables] [HubCrypto]

/-- Pass an envelope on into its room, if the gates allow it. -/
def relayToRoom (turn : HubTurn) (linkId : LinkId) (identity : IdentityHash)
    (envelope : Envelope) : HubTurn :=
  match turn.core.normRoom (envelope.room.getD "") with
  | .error reason => turn.pushError linkId reason none
  | .ok roomName =>
      turn.withRelayGate linkId identity roomName id fun turn =>
        turn.relayInto linkId identity roomName envelope

def onRelay (turn : HubTurn) (linkId : LinkId) (received : Envelope) :
    HubTurn :=
  match turn.core.sessionIdentity linkId with
  | none => turn
  | some identity =>
      let envelope := { received with
        timestampMs := sanitizeDisplayTimestampMs received.timestampMs turn.ambient.ms }
      if isSlashText envelope then
        match turn.handleSlashCommand linkId identity envelope with
        | some turn => turn
        | none => turn.pushError linkId "unrecognized command" envelope.room
      else if envelope.messageType = .message ∨
          envelope.messageType = .action then
        if (namedRoom envelope).isNone then
          turn.pushError linkId "message requires room name" none
        else
          let bodyBytes := (envelope.textBody.map String.utf8ByteSize).getD 0
          if turn.core.config.maxMessageBodyBytes < bodyBytes then
            turn.pushError linkId
              ("message too large: " ++ toString bodyBytes ++ " bytes > " ++
                toString turn.core.config.maxMessageBodyBytes ++ " bytes")
              none
          else turn.relayToRoom linkId identity envelope
      else if envelope.destination.isSome then
        turn.onDirectNotice linkId identity envelope
      else if (namedRoom envelope).isNone then turn
      else turn.relayToRoom linkId identity envelope

end Relay

/-! ## Resources -/

/-- Refuse something about a resource, and count it. -/
def rejectResource (turn : HubTurn) (linkId : LinkId) (text : String)
    (room : Option String) : HubTurn :=
  let turn := turn.modifyAdmission AdmissionState.noteRejected
  turn.push (turn.hubErrorEcho linkId text room)

def resourceEnvelopeError : ProtocolError → String
  | .missingField field | .invalidField field =>
      if field = resourceId then "resource envelope missing id"
      else if field = resourceKind then "resource envelope missing kind"
      else if field = resourceSize then "resource envelope invalid size"
      else if field = resourceSha256 then "resource envelope invalid sha256"
      else "invalid resource envelope body"
  | _ => "invalid resource envelope body"

/-- The notice cap, never above the absolute ceiling. -/
def inboundResourceCap (config : ChannelHubConfig) : Nat :=
  min config.maxResourceNoticeBytes config.maxResourceBytes

/-- Take a token for one packet; false when the bucket is empty. -/
def notePacket (turn : HubTurn) (linkId : LinkId) : HubTurn × Bool :=
  match turn.core.sessions.lookup linkId with
  | none => (turn, true)
  | some session =>
      -- An unidentified link is dropped before it is accounted for.
      if session.identity.isNone then (turn, true)
      else
        let allowed := session.rate.allow turn.ambient.instant
          turn.core.config.rateMessagesPerMinute
        (turn.modifySession linkId fun session =>
          { session with rate := allowed.1 }, allowed.2)

/-- Take a token for each of several packets. -/
def notePackets (turn : HubTurn) (linkId : LinkId) : Nat → HubTurn × Bool
  | 0 => (turn, true)
  | count + 1 =>
      let taken := turn.notePacket linkId
      let rest := taken.1.notePackets linkId count
      (rest.1, taken.2 && rest.2)

section Resources

variable [UnicodeTables]

/-- The announcement of a transfer: it buys a slot of matching size only. -/
def onResourceEnvelope (turn : HubTurn) (linkId : LinkId) (envelope : Envelope) : HubTurn :=
  let raw := envelope.room
  if !turn.core.config.resourceAcceptEnabled then
    turn.rejectResource linkId "resource transfer disabled" raw
  else
    match turn.core.sessionIdentity linkId with
    | none => turn
    | some identity =>
    match parseResourceEnvelope envelope with
    | .error error => turn.rejectResource linkId (resourceEnvelopeError error) raw
    | .ok body =>
        let cap := inboundResourceCap turn.core.config
        if body.kind ≠ "notice" then
          turn.rejectResource linkId "unsupported resource kind" raw
        else if cap < body.size then
          turn.rejectResource linkId
            ("resource too large: " ++ toString body.size ++ " > " ++ toString cap) raw
        else
          match namedRoom envelope with
          | none => turn.rejectResource linkId "notice resource requires room name" none
          | some roomRaw =>
          match turn.core.normRoom roomRaw with
          | .error reason => turn.rejectResource linkId reason raw
          | .ok roomName =>
              turn.withRelayGate linkId identity roomName
                (fun turn =>
                  turn.modifyAdmission AdmissionState.noteRejected)
                fun turn =>
                  let (admission, accepted) := turn.core.admission.expect
                    linkId
                    { id := body.id
                      size := body.size
                      sha256 := body.sha256
                      encoding := body.encoding
                      room := roomName
                      createdAt := turn.ambient.instant }
                  let turn := turn.modifyAdmission fun _ => admission
                  if accepted then turn
                  else
                    turn.rejectResource linkId "too many pending resource expectations" raw

end Resources

/-- The bytes of text that fit one notice relayed into the room. -/
def relayedNoticeBudget (turn : HubTurn) (source : IdentityHash)
    (roomName : String) (nickname : Option String) : Nat :=
  let probe : Envelope :=
    { Envelope.new turn.ambient.ms .notice source with
      room := some roomName
      nickname := nickname
      body := some (.text "") }
  linkPacketBudget - probe.encodedLen - cborTextHeaderSlack

/-- Send a notice that came as a resource into the room, split to packets.
Each packet costs the sender a token. -/
def fanOutResourceNotice (turn : HubTurn) (linkId : LinkId)
    (identity : IdentityHash) (roomName text : String) : HubTurn :=
  let nickname := (turn.core.sessionNickname linkId).bind fun nickname =>
    (normalizeNickname nickname turn.core.config.maxNickBytes).toOption
  let budget := turn.relayedNoticeBudget identity roomName nickname
  let shed := decide (budget < minNoticeBodyBytes) && nickname.isSome
  let nickname := if shed then none else nickname
  let budget := if shed then
      turn.relayedNoticeBudget identity roomName none
    else budget
  let chunks := chunkText text (max budget minNoticeBodyBytes)
  let (turn, allowed) := turn.notePackets linkId chunks.length
  if !allowed then
    let turn := turn.modifyStats fun stats =>
      { stats with rateLimited := stats.rateLimited + 1 }
    turn.push (turn.hubErrorEcho linkId "rate limited" (some roomName))
  else
    match turn.core.rooms.lookup roomName with
    | none => turn
    | some room =>
        let turn := turn.modifyStats fun stats =>
          { stats with
            noticesForwarded := stats.noticesForwarded + 1
            resourcesReceived := stats.resourcesReceived + 1
            resourceBytesReceived :=
              stats.resourceBytesReceived + text.utf8ByteSize }
        (chunks.foldl
          (fun turn chunk => turn.fanOut room
            { Envelope.new turn.ambient.ms .notice identity with
              room := some roomName
              nickname := nickname
              body := some (.text chunk) })
          turn).noteRelayed roomName

section Completion

variable [HubCrypto]

/-- A delivered payload, whose bytes are checked in full. -/
def onResourceCompleted (turn : HubTurn) (linkId : LinkId)
    (resourceHash : Bytes 32) (data : List UInt8) (hasMetadata : Bool) :
    HubTurn :=
  let turn := turn.modifyAdmission fun admission =>
    admission.retire linkId resourceHash
  let rejected := turn.modifyAdmission AdmissionState.noteRejected
  if !turn.core.config.resourceAcceptEnabled then turn
  else
    match turn.core.sessionIdentity linkId with
    | none => turn
    | some identity =>
        if hasMetadata ∨ data.isEmpty ∨
            inboundResourceCap turn.core.config < data.length then rejected
        else
          let taken := turn.core.admission.takeMatching linkId data.length
            (HubCrypto.sha256 data) turn.ambient.instant
          let turn := turn.modifyAdmission fun _ => taken.1
          let rejected := turn.modifyAdmission AdmissionState.noteRejected
          match taken.2 with
          | none => rejected
          | some expectation =>
              let readable := expectation.encoding.all (eqIgnoreAsciiCase · "utf-8")
              let text := if readable then
                  String.fromUTF8? ⟨data.toArray⟩
                else none
              match text with
              | none => rejected
              | some text =>
                  if startsWithChar '/' (trimStart text) then
                    turn.rejectResource linkId
                      "commands must be sent as a message, not a resource"
                      (some expectation.room)
                  else
                    -- A ban or `+m` set in the meantime has to win.
                    turn.withRelayGate linkId identity expectation.room
                      (fun turn =>
                        turn.modifyAdmission AdmissionState.noteRejected)
                      fun turn =>
                        turn.fanOutResourceNotice linkId identity expectation.room text

end Completion

/-- Release the slot of an inbound transfer that ended. -/
def onInboundResourceConcluded (turn : HubTurn) (linkId : LinkId)
    (resourceHash : Bytes 32) : HubTurn :=
  turn.modifyAdmission fun admission => admission.retire linkId resourceHash

/-- What the shell learned of a transfer it started. -/
def onResourceStarted (turn : HubTurn) (linkId : LinkId)
    (resourceHash : Option (Bytes 32)) : HubTurn :=
  turn.modifySession linkId fun session =>
    { session with
      outboundResource :=
        match resourceHash with
        | none => none
        | some hash => session.outboundResource.map fun outbound =>
            { outbound with resourceHash := some hash } }

/-- Release the slot of an outbound transfer that ended. -/
def onOutboundResourceConcluded (turn : HubTurn) (linkId : LinkId)
    (resourceHash : Bytes 32) : HubTurn :=
  turn.modifySession linkId fun session =>
    { session with
      outboundResource := session.outboundResource.filter fun outbound =>
        !outbound.resourceHash.all (· == resourceHash) }

/-- Free the slots of transfers that never concluded. -/
def resourceCycle (turn : HubTurn) : HubTurn :=
  (turn.mapCore fun core =>
    { core with
      sessions := FiniteMap.mapValues
        (fun _ session =>
          { session with
            outboundResource := session.outboundResource.filter
              fun outbound =>
                !decide (outboundResourceTimeout < turn.ambient.instant - outbound.startedAt) })
        core.sessions }).modifyAdmission fun admission =>
    admission.prune turn.ambient.instant

end HubTurn

end Ratspeak
