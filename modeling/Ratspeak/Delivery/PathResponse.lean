import Ratspeak.Delivery.Recovery

/-!
# Pending path responses

The requests for a path to the own destination that wait to be answered.  A
request is bounded in time and belongs to the identity, the transport and the
runtime that it came in under.  A pass over the queue builds what is not built
yet and hands it to the channel of the transport when nothing has changed.

The state that the tasks share may change between any two readings of it.  So
every reading that the code makes has a state of its own.
-/

namespace Ratspeak.Delivery

open Library

def retryInterval : Nat := 250 * 10 ^ 6
def coalescedRetry : Nat := 10 ^ 9
def requestLifetime : Nat := 30 * 10 ^ 9
def maxPending : Nat := 16

inductive BuildError where
  | coalesced | busy | failed
deriving DecidableEq, Repr

/-- `AnnounceSemanticRevision` -/
structure AnnounceRevision where
  identity : Nat
  content : Nat
  interface : Nat
deriving DecidableEq, Repr

/-- What the queue of a channel says to a message. -/
inductive SendOutcome where
  | queued | full | closed
deriving DecidableEq, Repr

/-- The transport channel and the shutdown signal of a running manager. -/
structure RuntimeHandle where
  transport : Nat
  shutdown : Nat
deriving DecidableEq, Repr

/-- What the shared state says at one reading of it.  The builder is the code
that asks the delivery ratchets for a packet. -/
structure SharedState (Message : Type) where
  identitySession : Nat
  contentRevision : Nat
  interfaceRevision : Nat
  manager : Option RuntimeHandle
  triggered : Nat → Bool
  channelClosed : Nat → Bool
  switchEpoch : Nat
  instant : Instant
  build : Option Nat → Option (List UInt8) → Except BuildError Message
  trySend : Nat → SendOutcome

variable {Message : Type}

/-- `announce_semantic_revision` -/
def SharedState.revision (state : SharedState Message) : AnnounceRevision :=
  { identity := state.identitySession
    content := state.contentRevision
    interface := state.interfaceRevision }

/-- A pending request, and the number of its admission, which the code does
not have. -/
structure PendingResponse (Message : Type) where
  admission : Nat
  identityGeneration : Nat
  transport : Nat
  runtimeShutdown : Nat
  attachedInterface : Option Nat
  tag : Option (List UInt8)
  expires : Instant
  nextAttempt : Instant
  message : Option (Message × AnnounceRevision)

namespace PendingResponse

def isCurrent (request : PendingResponse Message) (state : SharedState Message) : Bool :=
  !state.triggered request.runtimeShutdown &&
    !state.channelClosed request.transport &&
    state.identitySession == request.identityGeneration &&
    state.manager.any fun manager => manager.transport == request.transport

/-- What tells two requests apart. -/
def key (request : PendingResponse Message) :
    Nat × Nat × Option Nat × Option (List UInt8) :=
  (request.identityGeneration, request.transport, request.attachedInterface, request.tag)

/-- The request is to be tried again after some time. -/
def deferred (request : PendingResponse Message) (nextAttempt : Instant) :
    PendingResponse Message :=
  { request with nextAttempt }

end PendingResponse

/-! ## Admission -/

/-- The readings of `admit`: one for each pending request, and those for the
new one. -/
structure AdmitReadings (Message : Type) where
  retained : PendingResponse Message → SharedState Message
  identity : SharedState Message
  manager : SharedState Message

def retain (readings : AdmitReadings Message) (now : Instant)
    (requests : List (PendingResponse Message)) :
    List (PendingResponse Message) :=
  requests.filter fun request =>
    decide (now < request.expires) && request.isCurrent (readings.retained request)

/-- The request that `admit` may add. -/
def arriving (readings : AdmitReadings Message) (manager : RuntimeHandle)
    (admission : Nat) (attachedInterface : Option Nat)
    (tag : Option (List UInt8)) (now : Instant) : PendingResponse Message :=
  { admission
    identityGeneration := readings.identity.identitySession
    transport := manager.transport
    runtimeShutdown := manager.shutdown
    attachedInterface, tag
    expires := now + requestLifetime
    nextAttempt := now
    message := none }

/-- `PendingPathResponses::admit`, with the request that was added. -/
def admitRequest (readings : AdmitReadings Message) (admission : Nat)
    (attachedInterface : Option Nat) (tag : Option (List UInt8))
    (now : Instant) (requests : List (PendingResponse Message)) :
    List (PendingResponse Message) × Option (PendingResponse Message) :=
  let kept := retain readings now requests
  match readings.manager.manager with
  | none => (kept, none)
  | some manager =>
      let request :=
        arriving readings manager admission attachedInterface tag now
      if kept.any fun other => other.key == request.key then (kept, none)
      else if kept.length = maxPending then (kept, none)
      else (kept ++ [request], some request)

/-! ## Service -/

/-- The readings of one turn of `service`, in the order of the code. -/
structure ServiceReadings (Message : Type) where
  first : SharedState Message
  epoch : SharedState Message
  revision : SharedState Message
  builder : SharedState Message
  again : SharedState Message
  epochAgain : SharedState Message
  revisionAgain : SharedState Message
  sending : SharedState Message

/-- How a turn ends. -/
inductive Turn (Message : Type) where
  | dropped
  | kept (request : PendingResponse Message)
  | sent (request : PendingResponse Message) (message : Message)
      (revision : AnnounceRevision)

/-- The part of a turn after the message was built. -/
def deliver (readings : ServiceReadings Message) (sessionShutdown : Nat)
    (now : Instant) (request : PendingResponse Message) (message : Message)
    (revision : AnnounceRevision) : Turn Message :=
  let built := { request with message := some (message, revision) }
  if readings.again.triggered sessionShutdown ||
      !built.isCurrent readings.again ||
      decide (built.expires ≤ max now readings.again.instant) then .dropped
  else if readings.epochAgain.switchEpoch ≠ readings.epoch.switchEpoch then
    .kept (built.deferred (now + retryInterval))
  else if revision ≠ readings.revisionAgain.revision then .dropped
  else
    match readings.sending.trySend built.transport with
    | .queued => .sent built message revision
    | .full => .kept (built.deferred (now + retryInterval))
    | .closed => .dropped

/-- The turn of one request. -/
def turn (readings : ServiceReadings Message) (sessionShutdown : Nat)
    (now : Instant) (request : PendingResponse Message) : Turn Message :=
  if readings.first.triggered sessionShutdown || !request.isCurrent readings.first then .dropped
  else if request.expires ≤ now then .dropped
  else if now < request.nextAttempt then .kept request
  else if readings.epoch.switchEpoch % 2 ≠ 0 then
    .kept (request.deferred (now + retryInterval))
  else
    match request.message with
    | some (message, revision) =>
        deliver readings sessionShutdown now request message revision
    | none =>
        match readings.builder.build request.attachedInterface request.tag with
        | .ok message =>
            deliver readings sessionShutdown now request message readings.revision.revision
        | .error .coalesced => .kept (request.deferred (now + coalescedRetry))
        | .error .busy => .kept (request.deferred (now + retryInterval))
        | .error .failed => .dropped

/-- A message that was handed to the channel, and the turn that did it. -/
structure SentResponse (Message : Type) where
  request : PendingResponse Message
  message : Message
  revision : AnnounceRevision
  readings : ServiceReadings Message
  sessionShutdown : Nat
  now : Instant

/-- The request that stays in the queue after its turn. -/
def keptOf (readings : PendingResponse Message → ServiceReadings Message)
    (sessionShutdown : Nat) (now : Instant)
    (request : PendingResponse Message) : Option (PendingResponse Message) :=
  match turn (readings request) sessionShutdown now request with
  | .kept later => some later
  | _ => none

/-- What a turn hands to the channel. -/
def sentOf (readings : PendingResponse Message → ServiceReadings Message)
    (sessionShutdown : Nat) (now : Instant)
    (request : PendingResponse Message) : Option (SentResponse Message) :=
  match turn (readings request) sessionShutdown now request with
  | .sent request' message revision =>
      some
        { request := request', message, revision
          readings := readings request, sessionShutdown, now }
  | _ => none

/-- The loop of `service` with as many rounds as the queue was long: take the
first request, and put it back where it stays. -/
def serviceRounds (readings : PendingResponse Message → ServiceReadings Message)
    (sessionShutdown : Nat) (now : Instant) :
    Nat → List (PendingResponse Message) → List (SentResponse Message) →
      List (PendingResponse Message) × List (SentResponse Message)
  | 0, requests, sent => (requests, sent)
  | _ + 1, [], sent => ([], sent)
  | rounds + 1, request :: rest, sent =>
      serviceRounds readings sessionShutdown now rounds
        (rest ++ (keptOf readings sessionShutdown now request).toList)
        (sent ++ (sentOf readings sessionShutdown now request).toList)

/-- `PendingPathResponses::service`, with what it sent. -/
def service (readings : PendingResponse Message → ServiceReadings Message)
    (sessionShutdown : Nat) (now : Instant) (requests : List (PendingResponse Message)) :
    List (PendingResponse Message) × List (SentResponse Message) :=
  serviceRounds readings sessionShutdown now requests.length requests []

end Ratspeak.Delivery
