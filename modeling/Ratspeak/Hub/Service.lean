import Ratspeak.Hub.Admin
import Ratspeak.Hub.Relay

/-!
# The service loop

The hub waits for events of its links, of its clocks and of its owner, and
handles them one at a time.  After each, the shell applies the queued writes
in one go, reports those that failed, and then sends.
-/

namespace Ratspeak

open Library

namespace HubCore

def welcomeInfo (core : HubCore) : WelcomeInfo where
  hubName := some core.config.hubName
  hubVersion := some hubVersion
  capabilities :=
    (if core.config.resourceSendEnabled then
      [(capResourceEnvelope, true)] else []) ++
    [(capAction, true), (capDirectNotice, true)] ++
    (if 0 < core.config.rejoinGraceSecs then
      [(capRejoinGrace, true)] else [])
  limits :=
    { maxNickBytes := some core.config.maxNickBytes
      maxRoomNameBytes := some core.config.maxRoomNameBytes
      maxMessageBodyBytes := some core.config.maxMessageBodyBytes
      maxRoomsPerSession := some core.config.maxRoomsPerSession
      rateMessagesPerMinute := some core.config.rateMessagesPerMinute }

end HubCore

namespace HubTurn

/-! ## Links -/

/-- A session for the link, unless it has one. -/
def openSession (turn : HubTurn) (linkId : LinkId) : HubTurn :=
  match turn.core.sessions.lookup linkId with
  | some _ => turn
  | none =>
      turn.mapCore fun core =>
        { core with
          sessions := core.sessions.insert linkId
            (HubSession.new turn.ambient.instant core.config.rateMessagesPerMinute) }

def onLinkEstablished (turn : HubTurn) (linkId : LinkId) : HubTurn :=
  turn.openSession linkId

/-- Turn away a link that identified as a banned identity. -/
def refuseLink (turn : HubTurn) (linkId : LinkId) : HubTurn :=
  ((turn.pushError linkId "banned" none).push (.close linkId)).mapCore
    fun core =>
      { core with
        sessions := core.sessions.erase linkId
        admission := core.admission.forgetLink linkId }

/-- Bind a link to the identity it proved. -/
def bindIdentity (turn : HubTurn) (linkId : LinkId) (identity : IdentityHash) : HubTurn :=
  ((turn.openSession linkId).modifySession linkId fun session =>
    { session with identity := some identity }).mapCore fun core =>
    { core with byIdentity := core.byIdentity.insert identity linkId }

/-- Identification may arrive before establishment. -/
def onLinkIdentified (turn : HubTurn) (linkId : LinkId) (identity : IdentityHash) : HubTurn :=
  if identity ∈ turn.core.klines then turn.refuseLink linkId
  else turn.bindIdentity linkId identity

section Greeting

variable [HubCrypto]

/-- Announce the greeting as a resource, one transfer a link at a time;
nothing when it must be sent in packets instead. -/
def pushGreetingResource (turn : HubTurn) (linkId : LinkId)
    (greeting : String) : Option HubTurn :=
  let config := turn.core.config
  let payload := utf8 greeting
  if !config.resourceSendEnabled then none
  else if config.maxOutboundResourceBytes < payload.length ∨
      config.maxResourceBytes < payload.length then none
  else
    match turn.core.sessions.lookup linkId with
    | none => none
    | some session =>
        if !session.supportsResources || session.outboundResource.isSome then
          none
        else
          let envelope := Envelope.new turn.ambient.ms .resourceEnvelope turn.core.hubHash
          let body := resourceEnvelopeBody envelope.idBytes
            { id := envelope.messageId
              kind := "motd"
              size := payload.length
              sha256 := some (HubCrypto.sha256 payload)
              encoding := some "utf-8" }
          some <|
            (turn.modifySession linkId fun session =>
              { session with
                outboundResource := some
                  { resourceHash := none
                    startedAt := turn.ambient.instant } }).push
              (.resource linkId { envelope with body := some body } payload)

/-- The greeting is the only reply that may travel as a resource. -/
def pushGreeting (turn : HubTurn) (linkId : LinkId) (greeting : String) :
    HubTurn :=
  let budget := max (turn.textBodyBudget .notice none) minNoticeBodyBytes
  let chunked := turn.pushNoticeEntries linkId .none [greeting] "" none
  if budget < greeting.utf8ByteSize then
    (turn.pushGreetingResource linkId greeting).getD chunked
  else chunked

def welcomeEnvelope (turn : HubTurn) : Envelope :=
  turn.hubEnvelope .welcome none (some (welcomeBody turn.core.welcomeInfo))

/-- A session counts as welcomed only if the packet can go out. -/
def onHello (turn : HubTurn) (linkId : LinkId) (envelope : Envelope) :
    HubTurn :=
  match turn.core.sessions.lookup linkId with
  | none => turn
  | some session =>
      let nickname := envelope.nickname.bind fun nickname =>
        (normalizeNickname nickname turn.core.config.maxNickBytes).toOption
      let turn := turn.modifySession linkId fun session =>
        { session with
          capabilities := helloCapabilities envelope
          nickname := nickname.or session.nickname }
      let welcome := turn.welcomeEnvelope
      if linkPacketBudget < welcome.encodedLen then
        turn.pushError linkId "hub configuration error" none
      else
        let turn := (turn.modifySession linkId fun session =>
          { session with welcomed := true }).push (.envelope linkId welcome)
        match turn.core.config.greeting with
        | none => turn
        | some greeting =>
            if session.welcomed then turn
            else turn.pushGreeting linkId greeting

end Greeting

section Envelopes

variable [UnicodeTables] [HubCrypto]

/-- An envelope of a link that was welcomed. -/
def onWelcomedEnvelope (turn : HubTurn) (linkId : LinkId) (envelope : Envelope) : HubTurn :=
  match envelope.messageType with
  | .join =>
      (turn.modifyStats fun stats =>
        { stats with joins := stats.joins + 1 }).onJoin linkId envelope
  | .part =>
      (turn.modifyStats fun stats =>
        { stats with parts := stats.parts + 1 }).onPart linkId envelope
  | .message | .notice | .action => turn.onRelay linkId envelope
  | .resourceEnvelope => turn.onResourceEnvelope linkId envelope
  | _ => turn

/-- An inbound envelope.  What an unidentified link sends is dropped, and so
is an envelope whose id was seen before on the link. -/
def onEnvelope (turn : HubTurn) (linkId : LinkId) (envelope : Envelope) :
    HubTurn :=
  match turn.core.sessions.lookup linkId with
  | none => turn
  | some session =>
      if session.identity.isNone then turn
      else if envelope.messageId ∈ session.seenIds then
        turn.modifyStats fun stats =>
          { stats with duplicates := stats.duplicates + 1 }
      else
        let turn := turn.modifySession linkId fun session =>
          session.remember envelope.messageId
        match envelope.messageType with
        | .ping =>
            turn.push (.envelope linkId
              (Envelope.pong turn.ambient.ms turn.core.hubHash envelope))
        | .pong =>
            (turn.modifySession linkId fun session =>
              { session with awaitingPongSince := none }).modifyStats
              fun stats => { stats with pongsIn := stats.pongsIn + 1 }
        | .hello => turn.onHello linkId envelope
        | _ =>
            if session.welcomed then
              turn.onWelcomedEnvelope linkId envelope
            else turn.pushError linkId "send HELLO first" none

/-- An inbound packet, decoded if it can be.  It costs a token first. -/
def onPacket (turn : HubTurn) (linkId : LinkId) (decoded : Option Envelope) : HubTurn :=
  let (turn, allowed) := turn.notePacket linkId
  if !allowed then
    (turn.pushError linkId "rate limited" none).modifyStats fun stats =>
      { stats with rateLimited := stats.rateLimited + 1 }
  else
    match decoded with
    | some envelope => turn.onEnvelope linkId envelope
    | none =>
        (turn.modifyStats fun stats =>
          { stats with badPackets := stats.badPackets + 1 }).pushError linkId
          "bad message: invalid envelope" none

end Envelopes

/-! ## Keepalive -/

/-- Why the session is to be closed at this tick, if it is. -/
def pingVerdict (core : HubCore) (now : Instant) (session : HubSession) :
    Option HubSessionCloseReason :=
  let timeout := seconds (max core.config.pingTimeoutSecs 1)
  if !session.welcomed then
    if timeout < now - session.establishedAt then some .handshakeTimeout
    else none
  else if core.config.pingIntervalSecs = 0 then none
  else
    match session.awaitingPongSince with
    | none => none
    | some since =>
        if timeout < now - since then some .pingTimeout else none

/-- Whether the session gets a PING at this tick. -/
def pingDue (core : HubCore) (session : HubSession) : Bool :=
  session.welcomed && decide (0 < core.config.pingIntervalSecs) &&
    session.awaitingPongSince.isNone

def pingLink (turn : HubTurn) (linkId : LinkId) : HubTurn :=
  ((turn.modifySession linkId fun session =>
    { session with
      awaitingPongSince := some turn.ambient.instant }).modifyStats
    fun stats => { stats with pingsOut := stats.pingsOut + 1 }).push
    (.envelope linkId (turn.hubEnvelope .ping none
      (some (.bytes (bigEndian 8 turn.ambient.ms)))))

/-- Close a session that timed out. -/
def reapLink (turn : HubTurn) (dead : LinkId × HubSessionCloseReason) : HubTurn :=
  (turn.closeSession dead.1 dead.2).push (.close dead.1)

/-- The sessions that have timed out, and why. -/
def deadLinks (core : HubCore) (now : Instant) :
    List (LinkId × HubSessionCloseReason) :=
  (FiniteMap.bindings core.sessions).filterMap fun entry =>
    (pingVerdict core now entry.2).map fun reason => (entry.1, reason)

/-- Expire leases, ping idle sessions, and close those that timed out. -/
def pingCycle (turn : HubTurn) : HubTurn :=
  let core := turn.core
  let expired := turn.mapCore fun core =>
    { core with
      rooms := FiniteMap.mapValues
        (fun _ room =>
          { room with
            rejoinUntil := FiniteMap.retain
              (fun _ expires => turn.ambient.unix < expires)
              room.rejoinUntil })
        core.rooms }
  let due := ((FiniteMap.bindings core.sessions).filter fun entry =>
    pingDue core entry.2).map Prod.fst
  (deadLinks core turn.ambient.instant).foldl reapLink (due.foldl pingLink expired)

/-- The prune tick: prune, write activity, and retry failed writes. -/
def pruneTick (turn : HubTurn) : HubTurn :=
  turn.pruneRegistry.flushDirtyLastUsed.retryFailedPersists

end HubTurn

/-! ## Events -/

/-- What the service loop waits for, and what its shell reports back. -/
inductive HubEvent where
  | adminMutation (actor : IdentityHash) (mutation : ChannelHubAdminMutation)
  | linkEstablished (linkId : LinkId)
  | linkIdentified (linkId : LinkId) (identity : IdentityHash)
  | linkPacket (linkId : LinkId) (decoded : Option Envelope)
  | linkClosed (linkId : LinkId)
  | outboundConcluded (linkId : LinkId) (resourceHash : Bytes 32)
  | inboundConcluded (linkId : LinkId) (resourceHash : Bytes 32)
  | resourceCompleted (linkId : LinkId) (resourceHash : Bytes 32)
      (data : List UInt8) (hasMetadata : Bool)
  | resourceAdvertised (linkId : LinkId) (adv : ResourceAdvertisement)
  | resourceStarted (linkId : LinkId) (resourceHash : Option (Bytes 32))
  | resourceTick
  | pingTick
  | pruneTick
  | noteOversize (count : Nat)

section Handle

variable [UnicodeTables] [HubCrypto]

/-- Handle one event. -/
def HubTurn.handle (turn : HubTurn) : HubEvent → HubTurn
  | .adminMutation actor mutation =>
      match turn.adminMutate actor mutation with
      | .error _ => turn
      | .ok turn => turn
  | .linkEstablished linkId => turn.onLinkEstablished linkId
  | .linkIdentified linkId identity => turn.onLinkIdentified linkId identity
  | .linkPacket linkId decoded => turn.onPacket linkId decoded
  | .linkClosed linkId => turn.onLinkClosed linkId
  | .outboundConcluded linkId resourceHash =>
      turn.onOutboundResourceConcluded linkId resourceHash
  | .inboundConcluded linkId resourceHash =>
      turn.onInboundResourceConcluded linkId resourceHash
  | .resourceCompleted linkId resourceHash data hasMetadata =>
      turn.onResourceCompleted linkId resourceHash data hasMetadata
  | .resourceAdvertised linkId adv =>
      turn.modifyAdmission fun admission =>
        (admission.admitAdvertised linkId adv turn.ambient.instant).1
  | .resourceStarted linkId resourceHash => turn.onResourceStarted linkId resourceHash
  | .resourceTick => turn.resourceCycle
  | .pingTick => turn.pingCycle
  | .pruneTick => turn.pruneTick
  | .noteOversize count =>
      turn.modifyStats fun stats =>
        { stats with oversize := stats.oversize + count }

/-- The turn that an event starts in a state. -/
def HubCore.turn (core : HubCore) (ambient : Ambient) : HubTurn where
  ambient := ambient
  core := core
  out := []

/-- An event together with what the hub reads while it handles it. -/
structure HubInput where
  ambient : Ambient
  event : HubEvent

/-- The turn in which the hub handles an input. -/
def HubCore.handle (core : HubCore) (input : HubInput) : HubTurn :=
  (core.turn input.ambient).handle input.event

/-- The state after an input. -/
def HubCore.step (core : HubCore) (input : HubInput) : HubCore :=
  (core.handle input).core

end Handle

/-! ## Writing -/

/-- The writes a turn queued, in order. -/
def persistOps (out : List Sent) : List HubRoomOp :=
  out.filterMap fun sent =>
    match sent.send with
    | .persist persist => some persist.op
    | _ => none

/-- The hub and its database. -/
structure HubService where
  core : HubCore
  store : HubStore

/-- Apply queued writes in order; a failed one is reported back. -/
def HubService.write (service : HubService) :
    List (HubRoomOp × Bool) → HubService
  | [] => service
  | (op, true) :: rest => { service with store := service.store.apply op }.write rest
  | (op, false) :: rest =>
      { service with core := service.core.notePersistFailed op }.write rest

/-- The outcome of each write, given which of them fail. -/
def outcomes (fails : Nat → Bool) (ops : List HubRoomOp) :
    List (HubRoomOp × Bool) :=
  ops.zipIdx.map fun (op, index) => (op, !fails index)

/-- An input of the service: one of the hub, and which of the writes that it
queues will fail. -/
structure ServiceInput where
  input : HubInput
  fails : Nat → Bool

section Service

variable [UnicodeTables] [HubCrypto]

/-- The outcomes of the writes that an input queues. -/
def HubCore.written (core : HubCore) (input : ServiceInput) :
    List (HubRoomOp × Bool) :=
  outcomes input.fails (persistOps (core.handle input.input).out)

/-- The hub alone: handle an input and learn which writes failed. -/
def HubCore.serve (core : HubCore) (input : ServiceInput) : HubCore :=
  (core.written input).foldl
    (fun core outcome =>
      if outcome.2 then core else core.notePersistFailed outcome.1)
    (core.step input.input)

/-- Handle an input and apply the writes it queued. -/
def HubService.step (service : HubService) (input : ServiceInput) :
    HubService :=
  { service with core := service.core.step input.input }.write (service.core.written input)

end Service

end Ratspeak
