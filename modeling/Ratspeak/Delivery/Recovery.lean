import Ratspeak.Library.Bytes
import Ratspeak.Library.FiniteMap
import Ratspeak.Library.Runs

/-!
# Recovering paths

Where a delivery fails on the network, the manager asks the transport to drop
the route that failed and to find another one.  At most one recovery is
pending for a destination; later requests join it, and one for another failed
attempt starts it over.  What a recovery reports is an observation only: where
the route was dropped or no path is left, the entry waits for a snapshot of
the routes that began afterwards.

What the transport answers is given with every poll.  `observe` is the
manager with the clock that its instants are read from.
-/

namespace Ratspeak.Delivery

open Library

/-- Nanoseconds of the monotonic clock. -/
abbrev Instant := Nat

abbrev Destination := Bytes 16

/-- The failed attempt of a recovery. -/
inductive Attempt where
  | link (id : Bytes 16)
  | packet (hash : Bytes 32)
  deriving DecidableEq

structure PathRecoveryOutcome where
  hasPath : Bool
  pathDropped : Bool

inductive PathRecoveryError where
  | full
  | closed
  deriving DecidableEq

structure PendingPathRecovery where
  failedAttempt : Option Attempt
  startedAt : Instant
  /-- An answer is to come. -/
  reply : Bool
  awaitingSnapshot : Option Instant

structure PathTableEntry where
  hash : Destination
  hops : Nat
  deriving DecidableEq

/-- A message of the router, with its next attempt in milliseconds. -/
structure OutboundMessage where
  destinationHash : Destination
  nextDeliveryAttempt : Int
  deliveryAttempts : Nat

def maxPendingRecoveries : Nat := 256

def recoveryWaitLimit : Nat := 10000000000

/-- What the manager knows of routes and their recovery. -/
structure LxmfManager where
  /-- There is a transport that recovers paths. -/
  pathRecovery : Bool
  pendingPathRecoveries : FiniteMap Destination PendingPathRecovery
  routeEntries : FiniteMap Destination PathTableEntry
  routeHops : FiniteMap Destination Nat
  routeSnapshotStarted : Instant
  pathRecoveryRefreshNeeded : Bool
  pendingOutbound : List OutboundMessage
  /-- Paths that a raw mailbox was asked for. -/
  requestedPaths : List Destination

/-- The answer of an admission: no error where it is admitted. -/
abbrev Admission := Option PathRecoveryError

/-- What is received of an answer. -/
inductive Received where
  | value (outcome : PathRecoveryOutcome)
  | empty
  | closed

/-- One turn of the poll, with the instants that are read in it. -/
structure Look where
  elapsedAt : Instant
  admitted : Admission
  received : Received
  observedAt : Instant

namespace LxmfManager

def new (created : Instant) : LxmfManager where
  pathRecovery := false
  pendingPathRecoveries := ∅
  routeEntries := ∅
  routeHops := ∅
  routeSnapshotStarted := created
  pathRecoveryRefreshNeeded := false
  pendingOutbound := []
  requestedPaths := []

/-! ## Requests -/

def setPathRecoveryHandle (state : LxmfManager) (now : Instant) :
    LxmfManager :=
  { state with
    pathRecovery := true
    pendingPathRecoveries := ∅
    routeEntries := ∅
    routeHops := ∅
    routeSnapshotStarted := now
    pathRecoveryRefreshNeeded := true }

def takePathRecoveryRefresh (state : LxmfManager) : LxmfManager :=
  { state with pathRecoveryRefreshNeeded := false }

def setPending (state : LxmfManager) (dest : Destination)
    (pending : PendingPathRecovery) : LxmfManager :=
  { state with
    pendingPathRecoveries :=
      state.pendingPathRecoveries.insert dest pending }

def removePending (state : LxmfManager) (dest : Destination) : LxmfManager :=
  { state with
    pendingPathRecoveries := state.pendingPathRecoveries.erase dest }

def removeRoute (state : LxmfManager) (dest : Destination) : LxmfManager :=
  { state with
    routeEntries := state.routeEntries.erase dest
    routeHops := state.routeHops.erase dest }

def needRefresh (state : LxmfManager) : LxmfManager :=
  { state with pathRecoveryRefreshNeeded := true }

/-- Another failed attempt starts a pending recovery over. -/
def coalesce (pending : PendingPathRecovery)
    (failedAttempt : Option Attempt) : PendingPathRecovery :=
  if failedAttempt.isSome ∧ pending.failedAttempt ≠ failedAttempt then
    { pending with
      failedAttempt := failedAttempt
      reply := false
      awaitingSnapshot := none }
  else pending

/-- A request, with the answers of the mailbox and of the admission. -/
def requestPathAttemptRecovery (state : LxmfManager) (dest : Destination)
    (failedAttempt : Option Attempt) (mailboxTakes : Bool)
    (admitted : Admission) (now : Instant) : LxmfManager :=
  if !state.pathRecovery then
    if mailboxTakes then
      { state with requestedPaths := state.requestedPaths ++ [dest] }
    else state
  else
    match state.pendingPathRecoveries.lookup dest with
    | some pending => state.setPending dest (coalesce pending failedAttempt)
    | none =>
        if state.pendingPathRecoveries.keys.length ≥ maxPendingRecoveries then
          state
        else state.setPending dest ⟨failedAttempt, now, admitted.isNone, none⟩

/-! ## Polls -/

/-- Receive what an admitted recovery answers. -/
def receive (state : LxmfManager) (dest : Destination)
    (pending : PendingPathRecovery) (look : Look) : LxmfManager :=
  match look.received with
  | .value outcome =>
      if outcome.pathDropped ∨ !outcome.hasPath then
        (state.removeRoute dest).needRefresh.setPending dest
          { pending with
            reply := false
            awaitingSnapshot := some look.observedAt }
      else state.needRefresh.removePending dest
  | .empty => state.setPending dest { pending with reply := true }
  | .closed => state.needRefresh.removePending dest

/-- One destination of the poll. -/
def pollPathRecovery (state : LxmfManager) (dest : Destination) (look : Look) : LxmfManager :=
  match state.pendingPathRecoveries.lookup dest with
  | none => state
  | some pending =>
      if look.elapsedAt - pending.startedAt ≥ recoveryWaitLimit then
        ((state.removePending dest).removeRoute dest).needRefresh
      else
        match pending.awaitingSnapshot with
        | some started =>
            if state.routeSnapshotStarted > started then
              state.removePending dest
            else state
        | none =>
            if pending.reply then state.receive dest pending look
            else
              match look.admitted with
              | none => state.receive dest pending look
              | some .full => state
              | some _ => state.removePending dest

/-- Poll the destinations in the order in which they are visited. -/
def pollPathRecoveries (state : LxmfManager)
    (looks : List (Destination × Look)) : LxmfManager :=
  if state.pathRecovery then
    looks.foldl (fun state look => state.pollPathRecovery look.1 look.2) state
  else state

def holdMessagesForPathRecovery (state : LxmfManager) (now : Int) :
    LxmfManager :=
  { state with
    pendingOutbound := state.pendingOutbound.map fun message =>
      if (state.pendingPathRecoveries.lookup message.destinationHash).isSome ∧
          message.nextDeliveryAttempt ≤ now then
        { message with nextDeliveryAttempt := now + 500 }
      else message }

/-! ## Snapshots and messages -/

def replaceRoutesObservedAt (state : LxmfManager)
    (entries : List PathTableEntry) (started : Instant) : LxmfManager :=
  if started < state.routeSnapshotStarted then state
  else
    { state with
      routeSnapshotStarted := started
      routeHops := entries.foldl
        (fun table entry => table.insert entry.hash (max entry.hops 1)) ∅
      routeEntries := entries.foldl (fun table entry => table.insert entry.hash entry) ∅ }

/-- A path table that was asked for earlier counts as begun when it is
installed. -/
def replaceRouteHopsFromPathTable (state : LxmfManager)
    (entries : List PathTableEntry) (now : Instant) : LxmfManager :=
  state.replaceRoutesObservedAt entries now

/-- The router is left with some messages, after one is completed or
cancelled. -/
def retireMessages (state : LxmfManager) (left : List OutboundMessage) :
    LxmfManager :=
  { state with
    pendingOutbound := left
    pendingPathRecoveries := state.pendingPathRecoveries.retain fun dest _ =>
      left.any fun message => message.destinationHash = dest }

end LxmfManager

/-- What happens to the manager. -/
inductive Event where
  | request (dest : Destination) (failedAttempt : Option Attempt)
      (mailboxTakes : Bool) (admitted : Admission)
  | poll (looks : List (Destination × Look))
  | hold (now : Int)
  | routes (entries : List PathTableEntry) (started : Instant)
  | takeRefresh
  | replaceTransport
  | retire (left : List OutboundMessage)
  /-- The router attempts, takes up and gives up messages. -/
  | outbound (messages : List OutboundMessage)

def LxmfManager.step (state : LxmfManager) (event : Event) (now : Instant) :
    LxmfManager :=
  match event with
  | .request dest failedAttempt mailboxTakes admitted =>
      state.requestPathAttemptRecovery dest failedAttempt mailboxTakes admitted now
  | .poll looks => state.pollPathRecoveries looks
  | .hold time => state.holdMessagesForPathRecovery time
  | .routes entries started => state.replaceRoutesObservedAt entries started
  | .takeRefresh => state.takePathRecoveryRefresh
  | .replaceTransport => state.setPathRecoveryHandle now
  | .retire left => state.retireMessages left
  | .outbound messages => { state with pendingOutbound := messages }

/-- So it is a snapshot with the instant of its arrival as its start. -/
theorem LxmfManager.step_pathTable (state : LxmfManager)
    (entries : List PathTableEntry) (now : Instant) :
    state.step (.routes entries now) now = state.replaceRouteHopsFromPathTable entries now :=
  rfl

/-- The manager, and the last instant that was read. -/
structure Observed where
  clock : Instant
  manager : LxmfManager

/-- An event, and the instant at its end. -/
structure Moment where
  instant : Instant
  event : Event

def Observed.step (observed : Observed) (moment : Moment) : Observed where
  clock := moment.instant
  manager := observed.manager.step moment.event moment.instant

/-- The clock does not run backwards, a poll visits every pending recovery
once, and a snapshot began before it arrives. -/
def Timely (observed : Observed) (moment : Moment) : Prop :=
  observed.clock ≤ moment.instant ∧
    match moment.event with
    | .poll looks =>
        (looks.map Prod.fst).Perm
            observed.manager.pendingPathRecoveries.keys ∧
          ∀ look ∈ looks, observed.clock ≤ look.2.elapsedAt ∧
            look.2.elapsedAt ≤ look.2.observedAt ∧
            look.2.observedAt ≤ moment.instant
    | .routes _ started => started ≤ moment.instant
    | _ => True

instance (observed : Observed) (moment : Moment) :
    Decidable (Timely observed moment) := by
  unfold Timely
  cases moment.event with
  | poll looks => infer_instance
  | routes entries started => infer_instance
  | _ => infer_instance

end Ratspeak.Delivery
