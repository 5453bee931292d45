import Ratspeak.Library.FiniteMap
import Ratspeak.Rrc

/-!
# The state of a hub

The configuration of a channel hub, its sessions, rooms and counters, and
what it asks its shell to do: send an envelope or a resource, close a link,
or write to the durable registry.

Durations and clock readings are counted in nanoseconds.  The local monotonic
clock is a natural number; the wall clock may stand before its epoch in a
stored row, hence an integer.  What the hub only records for its owner
(activity events and the evidence ring) is not part of this state.
-/

namespace Ratspeak

open Library

/-! ## Code that is not part of the program -/

/-- The hash functions the program is linked with. -/
class HubCrypto where
  sha256 : List UInt8 → Bytes 32
  hmacSha256 : Bytes 32 → List UInt8 → Bytes 32
  /-- Compares in constant time. -/
  hmacVerify : Bytes 32 → List UInt8 → Bytes 32 → Bool
  hmacVerify_iff : ∀ key message mac,
    hmacVerify key message mac = true ↔ hmacSha256 key message = mac

/-! ## Time -/

/-- A reading of the monotonic clock. -/
abbrev Instant := Nat

/-- A reading of the wall clock. -/
abbrev WallTime := Int

/-- A number of seconds, in nanoseconds. -/
def seconds (count : Nat) : Nat :=
  count * 10 ^ 9

/-- What the hub reads of its surroundings while it handles one event: the
two clocks, the wall clock in milliseconds, and sixteen random bytes. -/
structure Ambient where
  instant : Instant
  unix : WallTime
  ms : Nat
  salt : Bytes 16

/-! ## Configuration -/

def linkPacketBudget : Nat := 431
def cborTextHeaderSlack : Nat := 2
def minNoticeBodyBytes : Nat := 32
def listTopicBytes : Nat := 48
def outboundResourceTimeout : Nat := seconds 40
def resourceExpectationTtl : Nat := seconds 30
def maxPendingExpectations : Nat := 8
def maxInboundResourcesPerLink : Nat := 4
def inboundResourceTimeout : Nat := seconds 300
def seenIdLimit : Nat := 512
def minRoomKeyBytes : Nat := 8
def maxAdminRoomKeyBytes : Nat := 128
def hubVersion : String := "1.0.41"

structure ChannelHubConfig where
  hubName : String := "Ratspeak hub"
  greeting : Option String := none
  pingIntervalSecs : Nat := 55
  pingTimeoutSecs : Nat := 120
  maxNickBytes : Nat := 32
  maxRoomNameBytes : Nat := 64
  maxMessageBodyBytes : Nat := 350
  maxRoomsPerSession : Nat := 32
  rateMessagesPerMinute : Nat := 240
  includeMemberList : Bool := true
  resourceSendEnabled : Bool := true
  resourceAcceptEnabled : Bool := false
  maxOutboundResourceBytes : Nat := 16 * 1024
  maxResourceNoticeBytes : Nat := 4096
  maxResourceBytes : Nat := 256 * 1024
  /-- Implicit operators of every room. -/
  serverOperators : List IdentityHash := []
  bannedIdentities : List IdentityHash := []
  inviteTimeoutSecs : Nat := 900
  rejoinGraceSecs : Nat := 5 * 60
  roomRegistryPruneAfterSecs : Nat := 30 * 24 * 3600
  roomRegistryPruneIntervalSecs : Nat := 3600
  maxRegisteredRooms : Nat := 256

structure HubStats where
  joins : Nat := 0
  parts : Nat := 0
  messagesForwarded : Nat := 0
  noticesForwarded : Nat := 0
  actionsForwarded : Nat := 0
  directNotices : Nat := 0
  rateLimited : Nat := 0
  badPackets : Nat := 0
  duplicates : Nat := 0
  pingsOut : Nat := 0
  pongsIn : Nat := 0
  resourcesReceived : Nat := 0
  resourceBytesReceived : Nat := 0
  oversize : Nat := 0

/-! ## Room keys -/

/-- A room join key as it is held and stored: salted and verify-only. -/
structure RoomKeyDigest where
  salt : Bytes 16
  mac : Bytes 32
  pepperId : Bytes 8
  deriving DecidableEq

def roomKeyTag : List UInt8 :=
  "ratspeak-rrc-roomkey-v1".toList.map fun char => UInt8.ofNat char.toNat

/-- The UTF-8 form of a text. -/
def utf8 (text : String) : List UInt8 :=
  text.toList.flatMap String.utf8EncodeChar

/-- The pepper id is part of the preimage: a digest written under another hub
identity cannot verify. -/
def roomKeyPreimage (pepperId : Bytes 8) (room key : String) (salt : Bytes 16) : List UInt8 :=
  roomKeyTag ++ salt.val ++ pepperId.val ++
    bigEndian 4 room.utf8ByteSize ++ utf8 room ++ utf8 key

section Keys

variable [HubCrypto]

def roomKeyDigest (pepper : Bytes 32) (pepperId : Bytes 8)
    (room key : String) (salt : Bytes 16) : RoomKeyDigest where
  salt := salt
  mac := HubCrypto.hmacSha256 pepper (roomKeyPreimage pepperId room key salt)
  pepperId := pepperId

def roomKeyMatches (pepper : Bytes 32) (room provided : String)
    (digest : RoomKeyDigest) : Bool :=
  HubCrypto.hmacVerify pepper
    (roomKeyPreimage digest.pepperId room provided digest.salt) digest.mac

end Keys

/-! ## Rate limiting -/

/-- One token, in the unit that a nanosecond refills at one packet a
minute. -/
def rateToken : Nat := 60 * 10 ^ 9

/-- A token bucket that holds a minute's worth of packets. -/
structure RateBucket where
  tokens : Nat
  refilledAt : Instant

namespace RateBucket

def new (now : Instant) (perMinute : Nat) : RateBucket where
  tokens := perMinute * rateToken
  refilledAt := now

/-- Take one token, after the refill that is due. -/
def allow (bucket : RateBucket) (now : Instant) (perMinute : Nat) :
    RateBucket × Bool :=
  if perMinute = 0 then (bucket, true)
  else
    let tokens := min
      (bucket.tokens + (now - bucket.refilledAt) * perMinute)
      (perMinute * rateToken)
    if rateToken ≤ tokens then
      ({ tokens := tokens - rateToken, refilledAt := now }, true)
    else ({ tokens := tokens, refilledAt := now }, false)

end RateBucket

/-! ## Inbound resources -/

/-- A payload a link has announced and not yet delivered. -/
structure InboundExpectation where
  id : MessageId
  size : Nat
  sha256 : Option (Bytes 32)
  encoding : Option String
  room : String
  createdAt : Instant

/-- What the transport says of a transfer that a peer wants to start. -/
structure ResourceAdvertisement where
  resourceHash : Bytes 32
  dataSize : Nat
  totalSegments : Nat
  split : Bool
  hasMetadata : Bool
  metadataSize : Nat

structure AdmissionState where
  enabled : Bool
  maxBytes : Nat
  expectations : FiniteMap LinkId (List InboundExpectation)
  live : FiniteMap LinkId (FiniteMap (Bytes 32) Instant)
  rejected : Nat

namespace AdmissionState

def new (enabled : Bool) (maxBytes : Nat) : AdmissionState where
  enabled := enabled
  maxBytes := maxBytes
  expectations := ∅
  live := ∅
  rejected := 0

def prune (state : AdmissionState) (now : Instant) : AdmissionState :=
  { state with
    expectations := FiniteMap.retain (fun _ pending => !pending.isEmpty)
      (FiniteMap.mapValues
        (fun _ pending => pending.filter fun expectation =>
          now - expectation.createdAt ≤ resourceExpectationTtl)
        state.expectations)
    live := FiniteMap.retain (fun _ running => !running.keys.isEmpty)
      (FiniteMap.mapValues
        (fun _ running => FiniteMap.retain
          (fun _ started => now - started ≤ inboundResourceTimeout) running)
        state.live) }

/-- Record an announced payload; false when the link's budget is full. -/
def expect (state : AdmissionState) (linkId : LinkId)
    (expectation : InboundExpectation) : AdmissionState × Bool :=
  let state := state.prune expectation.createdAt
  let pending := (state.expectations.lookup linkId).getD []
  -- A repeat announcement of the same id refreshes rather than stacks.
  if pending.any fun known => known.id == expectation.id then
    ({ state with
        expectations := state.expectations.insert linkId
          (pending.replaceF fun known =>
            if known.id = expectation.id then some expectation else none) },
      true)
  else if maxPendingExpectations ≤ pending.length then
    ({ state with
        expectations := state.expectations.insert linkId pending }, false)
  else
    ({ state with
        expectations := state.expectations.insert linkId (pending ++ [expectation]) }, true)

def admitInner (state : AdmissionState) (linkId : LinkId)
    (adv : ResourceAdvertisement) (now : Instant) : AdmissionState × Bool :=
  if !state.enabled then (state, false)
  else if 1 < adv.totalSegments ∨ adv.split then (state, false)
  else if adv.hasMetadata ∨ 0 < adv.metadataSize then (state, false)
  else if adv.dataSize = 0 ∨ state.maxBytes < adv.dataSize then (state, false)
  else if ((state.live.lookup linkId).bind fun running =>
      running.lookup adv.resourceHash).isSome then (state, true)
  else
    let state := state.prune now
    let announced := ((state.expectations.lookup linkId).getD []).any
      fun expectation => expectation.size == adv.dataSize
    if !announced then (state, false)
    else
      let running := (state.live.lookup linkId).getD ∅
      if maxInboundResourcesPerLink ≤ running.keys.length then
        ({ state with live := state.live.insert linkId running }, false)
      else
        ({ state with
            live := state.live.insert linkId (running.insert adv.resourceHash now) }, true)

/-- The gate for an advertised transfer; a refusal is counted. -/
def admitAdvertised (state : AdmissionState) (linkId : LinkId)
    (adv : ResourceAdvertisement) (now : Instant) : AdmissionState × Bool :=
  match state.admitInner linkId adv now with
  | (state, true) => (state, true)
  | (state, false) => ({ state with rejected := state.rejected + 1 }, false)

/-- Claim the first expectation that a delivered payload satisfies. -/
def takeMatching (state : AdmissionState) (linkId : LinkId) (size : Nat)
    (digest : Bytes 32) (now : Instant) :
    AdmissionState × Option InboundExpectation :=
  let state := state.prune now
  let matching := fun expectation : InboundExpectation =>
    expectation.size == size && (expectation.sha256.all (· == digest))
  match state.expectations.lookup linkId with
  | none => (state, none)
  | some pending =>
      match pending.find? matching with
      | none => (state, none)
      | some found =>
          ({ state with
              expectations := state.expectations.insert linkId
                (pending.eraseP matching) }, some found)

def retire (state : AdmissionState) (linkId : LinkId)
    (resourceHash : Bytes 32) : AdmissionState :=
  match state.live.lookup linkId with
  | none => state
  | some running =>
      let running := running.erase resourceHash
      { state with
        live := if running.keys.isEmpty then state.live.erase linkId
          else state.live.insert linkId running }

def forgetLink (state : AdmissionState) (linkId : LinkId) :
    AdmissionState :=
  { state with
    expectations := state.expectations.erase linkId
    live := state.live.erase linkId }

def noteRejected (state : AdmissionState) : AdmissionState :=
  { state with rejected := state.rejected + 1 }

end AdmissionState

/-! ## Sessions -/

structure OutboundResource where
  resourceHash : Option (Bytes 32)
  startedAt : Instant

/-- One link to the hub.  It is of use only after it identified and was
welcomed. -/
structure HubSession where
  identity : Option IdentityHash
  welcomed : Bool
  nickname : Option String
  capabilities : Capabilities
  rooms : FiniteSet String
  establishedAt : Instant
  awaitingPongSince : Option Instant
  rate : RateBucket
  seenIds : List MessageId
  outboundResource : Option OutboundResource

namespace HubSession

def new (now : Instant) (perMinute : Nat) : HubSession where
  identity := none
  welcomed := false
  nickname := none
  capabilities := []
  rooms := ∅
  establishedAt := now
  awaitingPongSince := none
  rate := RateBucket.new now perMinute
  seenIds := []
  outboundResource := none

def supportsResources (session : HubSession) : Bool :=
  (session.capabilities.get capResourceEnvelope).getD false

/-- The session with one more id in its window of ids. -/
def remember (session : HubSession) (id : MessageId) : HubSession :=
  let seenIds := session.seenIds ++ [id]
  { session with
    seenIds := if seenIdLimit < seenIds.length then seenIds.tail
      else seenIds }

end HubSession

/-! ## Rooms -/

structure HubRoom where
  topic : Option String := none
  key : Option RoomKeyDigest := none
  ops : FiniteSet IdentityHash := ∅
  voiced : FiniteSet IdentityHash := ∅
  bans : FiniteSet IdentityHash := ∅
  invited : FiniteMap IdentityHash WallTime := ∅
  /-- Leases that pass `+i` after an unexpected disconnect. -/
  rejoinUntil : FiniteMap IdentityHash WallTime := ∅
  moderated : Bool := false
  inviteOnly : Bool := false
  topicOpsOnly : Bool := false
  noOutsideMsgs : Bool := false
  isPrivate : Bool := false
  registered : Bool := false
  lastUsed : WallTime := 0
  lastUsedDirty : Bool := false
  persistDirty : Bool := false
  /-- Links, not identities. -/
  members : FiniteSet LinkId := ∅

/-- The flags in their fixed order, which clients read. -/
def HubRoom.modeString (room : HubRoom) : String :=
  let flags := (if room.inviteOnly then "i" else "") ++
    (if room.key.isSome then "k" else "") ++
    (if room.moderated then "m" else "") ++
    (if room.noOutsideMsgs then "n" else "") ++
    (if room.isPrivate then "p" else "") ++
    (if room.registered then "r" else "") ++
    (if room.topicOpsOnly then "t" else "")
  if flags.isEmpty then "(none)" else "+" ++ flags

/-! ## The durable registry -/

/-- A stored room.  A grant is its kind, the subject in hexadecimal and the
time it expires. -/
structure HubRoomRow where
  roomName : String
  topic : String
  keySalt : String
  keyMac : String
  keyPepperId : String
  moderated : Bool
  inviteOnly : Bool
  topicOpsOnly : Bool
  noOutsideMsgs : Bool
  isPrivate : Bool
  lastUsed : WallTime
  grants : List (String × String × WallTime)

inductive HubRoomOp where
  | upsert (room : HubRoomRow)
  | touched (roomName : String) (lastUsed : WallTime)
  | removed (roomName : String)
  | replaceKlines (subjects : List String)
  | gcInvites (before : WallTime)

/-- A durable write, with the link and the room that a failure concerns. -/
structure HubPersist where
  op : HubRoomOp
  origin : Option LinkId
  room : Option String

/-- What the hub asks the shell to do. -/
inductive HubSend where
  | envelope (linkId : LinkId) (envelope : Envelope)
  | resource (linkId : LinkId) (envelope : Envelope) (payload : List UInt8)
  | close (linkId : LinkId)
  | persist (persist : HubPersist)

/-! ## The core -/

structure HubCore where
  config : ChannelHubConfig
  hubHash : IdentityHash
  sessions : FiniteMap LinkId HubSession
  rooms : FiniteMap String HubRoom
  /-- The last link that identified, for each identity. -/
  byIdentity : FiniteMap IdentityHash LinkId
  serverOps : FiniteSet IdentityHash
  klines : FiniteSet IdentityHash
  admission : AdmissionState
  pepper : Bytes 32
  pepperId : Bytes 8
  startedWall : WallTime
  klinesDirty : Bool
  pendingRemovals : FiniteSet String
  stats : HubStats
  startedAt : Instant
  /-- Opaque tokens of rooms, numbered as they are drawn. -/
  roomTokens : FiniteMap String Nat
  tokensDrawn : Nat

end Ratspeak
