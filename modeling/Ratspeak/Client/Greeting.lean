import Ratspeak.Rrc
import Ratspeak.Chat.Extension

/-!
# The greeting of a hub

A hub greets either in plain notices, which have no last one, or with a
resource, which it announces in an envelope before it offers it.  The client
accepts an offer only where it fits what was announced, has at most one
transfer running, and shows what arrived only where size, digest and encoding
are the announced ones.
-/

namespace Ratspeak

open Library

def hubGreetingWindow : Nat := 30 * 1000
def hubGreetingResourceMaxBytes : Nat := 16 * 1024
def hubGreetingResourceTransferSlack : Nat := 256
def hubGreetingResourceTimeout : Nat := 30 * 1000
def hubGreetingNoticeMduSlack : Nat := 64

/-- The two clocks that the client reads, in milliseconds: one that only
advances, and the time of day. -/
structure ClientClock where
  now : Nat
  nowMs : Nat

inductive ChannelHubGreetingDelivery where
  | notice
  | resource
deriving DecidableEq, Repr

structure ChannelHubGreetingSnapshot where
  text : String
  receivedAtMs : Nat
  delivery : ChannelHubGreetingDelivery

structure HubGreetingResourceExpectation where
  announcementId : MessageId
  size : Nat
  sha256 : Option (Bytes 32)
  encoding : Option String
  createdAt : Nat

structure HubGreetingResourceInFlight where
  resourceId : Bytes 32
  startedAt : Nat

/-- What the link says of a resource that the hub offers. -/
structure ResourceOffer where
  linkId : LinkId
  resourceId : Bytes 32
  dataSize : Nat
  transferSize : Nat
  totalSegments : Nat
  hasRequestId : Bool
  isRequest : Bool
  isResponse : Bool

/-- What the link hands over when a transfer has ended. -/
structure ReceivedResource where
  linkId : LinkId
  resourceId : Bytes 32
  data : List UInt8
  hasMetadata : Bool
  totalSegments : Nat
  hasRequestId : Bool
  isRequest : Bool
  isResponse : Bool

/-- A transfer that was accepted, as the task that waits for it holds it. -/
structure GreetingTransfer where
  linkId : LinkId
  resourceId : Bytes 32
  expectation : HubGreetingResourceExpectation

structure HubGreetingState where
  hubGreeting : Option ChannelHubGreetingSnapshot
  hubGreetingDeadline : Nat
  hubGreetingNoticeMayContinue : Bool
  greetingResourceExpectation : Option HubGreetingResourceExpectation
  greetingResourceInFlight : Option HubGreetingResourceInFlight

namespace HubGreetingState

/-- The greeting of a session that has just come up. -/
def new (now : Nat) : HubGreetingState where
  hubGreeting := none
  hubGreetingDeadline := now + hubGreetingWindow
  hubGreetingNoticeMayContinue := false
  greetingResourceExpectation := none
  greetingResourceInFlight := none

end HubGreetingState

/-- The encoding is absent or spells UTF-8. -/
def isUtf8Encoding (encoding : Option String) : Bool :=
  encoding.all fun encoding => eqIgnoreAsciiCase encoding "utf-8"

/-- What an envelope announces, where it announces a greeting. -/
def hubGreetingResourceExpectation (now : Nat) (envelope : Envelope) :
    Option HubGreetingResourceExpectation :=
  if envelope.room.isSome then none
  else
    match parseResourceEnvelope envelope with
    | .error _ => none
    | .ok body =>
        if body.kind ≠ "motd" ∨ hubGreetingResourceMaxBytes < body.size ∨
            isUtf8Encoding body.encoding = false then none
        else
          some {
            announcementId := body.id
            size := body.size
            sha256 := body.sha256
            encoding := body.encoding
            createdAt := now }

namespace HubGreetingState

/-- An envelope that announces a resource. -/
def acceptHubGreetingResourceEnvelope (greeting : HubGreetingState)
    (supportsResources : Bool) (now : Nat) (envelope : Envelope) :
    HubGreetingState :=
  let greeting := { greeting with hubGreetingNoticeMayContinue := false }
  if supportsResources = false ∨ greeting.hubGreetingDeadline < now ∨
      greeting.greetingResourceInFlight.isSome then greeting
  else
    match hubGreetingResourceExpectation now envelope with
    | none => greeting
    | some expectation =>
        if greeting.greetingResourceExpectation.any fun pending =>
            decide (pending.announcementId ≠ expectation.announcementId) then
          greeting
        else
          { greeting with greetingResourceExpectation := some expectation }

def greetingResourceOfferMatches (greeting : HubGreetingState)
    (linkId : LinkId) (now : Nat) (offer : ResourceOffer)
    (expectation : HubGreetingResourceExpectation) : Bool :=
  offer.linkId = linkId && greeting.greetingResourceInFlight.isNone &&
    now ≤ greeting.hubGreetingDeadline &&
    now - expectation.createdAt ≤ hubGreetingResourceTimeout &&
    offer.dataSize = expectation.size && 0 < offer.transferSize &&
    offer.transferSize ≤ expectation.size + hubGreetingResourceTransferSlack &&
    offer.totalSegments = 1 && !offer.hasRequestId && !offer.isRequest &&
    !offer.isResponse

/-- An offer, and whether the link could accept it and when it said so; the
transfer that runs now, where one does. -/
def handleHubGreetingResourceOffer (greeting : HubGreetingState)
    (linkId : LinkId) (now : Nat) (offer : ResourceOffer) (accepted : Bool)
    (answeredAt : Nat) : HubGreetingState × Option GreetingTransfer :=
  match greeting.greetingResourceExpectation with
  | none => (greeting, none)
  | some expectation =>
      if greeting.greetingResourceOfferMatches linkId now offer
          expectation = false then (greeting, none)
      else if accepted then
        ({ greeting with
            greetingResourceExpectation := none
            greetingResourceInFlight := some ⟨offer.resourceId, answeredAt⟩ },
          some ⟨offer.linkId, offer.resourceId, expectation⟩)
      else if answeredAt - expectation.createdAt ≤
          hubGreetingResourceTimeout then (greeting, none)
      else ({ greeting with greetingResourceExpectation := none }, none)

/-- Whether what arrived is what was announced. -/
def resourceIsExpected (sha256 : List UInt8 → Bytes 32)
    (transfer : GreetingTransfer) (received : ReceivedResource) : Bool :=
  received.linkId = transfer.linkId &&
    received.resourceId = transfer.resourceId &&
    received.data.length = transfer.expectation.size &&
    !received.data.isEmpty &&
    received.data.length ≤ hubGreetingResourceMaxBytes &&
    !received.hasMetadata && received.totalSegments = 1 &&
    !received.hasRequestId && !received.isRequest && !received.isResponse &&
    (transfer.expectation.sha256.all fun expected =>
      expected = sha256 received.data) &&
    isUtf8Encoding transfer.expectation.encoding

/-- The end of a transfer. -/
def applyHubGreetingResourceCompletion (greeting : HubGreetingState)
    (sha256 : List UInt8 → Bytes 32) (linkId : LinkId) (clock : ClientClock)
    (transfer : GreetingTransfer) (result : Option ReceivedResource) :
    HubGreetingState :=
  match greeting.greetingResourceInFlight with
  | none => greeting
  | some inFlight =>
      if transfer.linkId ≠ linkId ∨ transfer.resourceId ≠ inFlight.resourceId then greeting
      else
        let ended := { greeting with greetingResourceInFlight := none }
        if hubGreetingResourceTimeout < clock.now - inFlight.startedAt then
          ended
        else
          match result with
          | none => ended
          | some received =>
              if resourceIsExpected sha256 transfer received = false then ended
              else
                match Chat.fromUtf8 received.data with
                | none => ended
                | some text =>
                    { ended with
                      hubGreetingNoticeMayContinue := false
                      greetingResourceExpectation := none
                      hubGreeting := some ⟨text, clock.nowMs, .resource⟩ }

def expireHubGreetingResourceState (greeting : HubGreetingState) (now : Nat) :
    HubGreetingState where
  hubGreeting := greeting.hubGreeting
  hubGreetingDeadline := greeting.hubGreetingDeadline
  hubGreetingNoticeMayContinue :=
    greeting.hubGreetingNoticeMayContinue &&
      decide (now ≤ greeting.hubGreetingDeadline)
  greetingResourceExpectation :=
    greeting.greetingResourceExpectation.filter fun pending =>
      decide (now ≤ greeting.hubGreetingDeadline) &&
        decide (now - pending.createdAt ≤ hubGreetingResourceTimeout)
  greetingResourceInFlight :=
    greeting.greetingResourceInFlight.filter fun inFlight =>
      decide (now - inFlight.startedAt ≤ hubGreetingResourceTimeout)

/-- A notice of the hub outside of any room: it begins the greeting, goes on
with it, or is none of it. -/
def applyRoomlessNotice (greeting : HubGreetingState) (fromHub : Bool)
    (mdu encodedBytes : Nat) (clock : ClientClock) (text : String) :
    Option HubGreetingState :=
  let continuing := greeting.hubGreetingNoticeMayContinue &&
    greeting.hubGreeting.any fun shown => shown.delivery = .notice
  if fromHub = true ∧ clock.now ≤ greeting.hubGreetingDeadline ∧
      greeting.greetingResourceInFlight.isNone ∧
      (greeting.hubGreeting.isNone ∨ continuing = true) then
    let mayContinue := decide (mdu ≤ encodedBytes + hubGreetingNoticeMduSlack)
    match greeting.hubGreeting with
    | none =>
        some { greeting with
          greetingResourceExpectation := none
          hubGreeting := some ⟨text, clock.nowMs, .notice⟩
          hubGreetingNoticeMayContinue := mayContinue }
    | some shown =>
        some { greeting with
          hubGreeting := some { shown with text := shown.text ++ text }
          hubGreetingNoticeMayContinue := mayContinue }
  else none

end HubGreetingState

end Ratspeak
