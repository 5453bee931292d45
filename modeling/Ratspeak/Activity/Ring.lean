import Ratspeak.Library.Decimal
import Ratspeak.Library.Loops
import Ratspeak.Library.Retention

/-!
# The activity ring

The queue of stored events that is bounded in number and in bytes, with the
counter of the bytes that are charged to it.  Numbers are those of a `usize`
of 64 bits, and additions to them saturate.

Of a stored event the ring uses the sequence number, the charge and the masked
form.  An event is stored only after its masked form was encoded.
-/

namespace Ratspeak.Activity

open Ratspeak.Library (whileLoop u64Max saturatingAdd)
open Ratspeak.Library.Tally (totalSize)

structure RingLimits where
  maxEvents : UInt64
  maxBytes : UInt64
deriving DecidableEq, Repr

inductive RingError where
  | eventExceedsByteLimit
  | invalidLimits
deriving DecidableEq, Repr

/-- `RingLimits::new` -/
def RingLimits.new (maxEvents maxBytes : UInt64) :
    Except RingError RingLimits :=
  if maxEvents = 0 ∨ maxBytes = 0 then .error .invalidLimits
  else .ok { maxEvents, maxBytes }

structure RingPush where
  evictedForCountEvents : Nat
  evictedForCountBytes : Nat
  evictedForByteLimitEvents : Nat
  evictedForByteLimitBytes : Nat
deriving DecidableEq, Repr

def RingPush.none : RingPush :=
  { evictedForCountEvents := 0, evictedForCountBytes := 0
    evictedForByteLimitEvents := 0, evictedForByteLimitBytes := 0 }

/-- A masked event, with its sequence number and whatever else it holds. -/
structure WireEvent (Content : Type) where
  sequence : Nat
  content : Content
deriving DecidableEq, Repr

/-- `serde_json::to_vec` of a masked event: the length of its encoding. -/
abbrev EncodedLength (Content : Type) : Type := WireEvent Content → Option Nat

/-- `StoredEventV1`, which was encoded when it was made. -/
structure RingEvent {Content : Type} (toVec : EncodedLength Content) where
  wire : WireEvent Content
  chargedBytes : Nat
  encodes : (toVec wire).isSome = true

variable {Content : Type} {toVec : EncodedLength Content}

def RingEvent.sequence (event : RingEvent toVec) : Nat :=
  event.wire.sequence

def RingEvent.masked (event : RingEvent toVec) : WireEvent Content :=
  event.wire

structure ActivityRing (toVec : EncodedLength Content) where
  entries : List (RingEvent toVec)
  chargedBytes : Nat
  backingBytes : Nat
  limits : RingLimits

/-- What the queue allocates: its capacity when made for a number of entries,
and the size of one of its slots. -/
structure Allocation where
  capacity : Nat → Nat
  slotBytes : Nat

/-- The allocation of the queue (`saturating_mul`). -/
def Allocation.backing (allocation : Allocation) (maxEvents : Nat) : Nat :=
  min (allocation.capacity maxEvents * allocation.slotBytes) u64Max

namespace ActivityRing

/-- `ActivityRing::new` -/
def new (allocation : Allocation) (limits : RingLimits) :
    Except RingError (ActivityRing toVec) :=
  let backingBytes := allocation.backing limits.maxEvents.toNat
  if limits.maxBytes.toNat < backingBytes then .error .invalidLimits
  else
    .ok { entries := [], chargedBytes := backingBytes, backingBytes, limits }

def popFront (ring : ActivityRing toVec) :
    Option (Nat × ActivityRing toVec) :=
  match ring.entries with
  | [] => none
  | event :: rest =>
      some (event.chargedBytes,
        { ring with
          entries := rest
          chargedBytes := ring.chargedBytes - event.chargedBytes })

/-- The variables of the loops of `push`. -/
structure Eviction (toVec : EncodedLength Content) where
  ring : ActivityRing toVec
  effect : RingPush
  /-- The loop was left by `return Err`. -/
  refused : Bool

def countRound (eviction : Eviction toVec) : Option (Eviction toVec) :=
  match eviction.ring.popFront with
  | none => some eviction
  | some (evicted, ring) =>
      some
        { eviction with
          ring
          effect :=
            { eviction.effect with
              evictedForCountEvents :=
                saturatingAdd eviction.effect.evictedForCountEvents 1
              evictedForCountBytes :=
                saturatingAdd eviction.effect.evictedForCountBytes evicted } }

def byteRound (eviction : Eviction toVec) : Option (Eviction toVec) :=
  match eviction.ring.popFront with
  | none => some { eviction with refused := true }
  | some (evicted, ring) =>
      some
        { eviction with
          ring
          effect :=
            { eviction.effect with
              evictedForByteLimitEvents :=
                saturatingAdd eviction.effect.evictedForByteLimitEvents 1
              evictedForByteLimitBytes :=
                saturatingAdd eviction.effect.evictedForByteLimitBytes evicted } }

def overCount (eviction : Eviction toVec) : Bool :=
  eviction.ring.limits.maxEvents.toNat ≤ eviction.ring.entries.length

def overBytes (eventBytes : Nat) (eviction : Eviction toVec) : Bool :=
  !eviction.refused &&
    eviction.ring.limits.maxBytes.toNat < saturatingAdd eviction.ring.chargedBytes eventBytes

/-- `push`, with the ring after it.  There is no result when a loop does not
end. -/
def push (ring : ActivityRing toVec) (event : RingEvent toVec) :
    Option (Except RingError RingPush × ActivityRing toVec) :=
  if ring.limits.maxBytes.toNat <
      saturatingAdd ring.backingBytes event.chargedBytes then
    some (.error .eventExceedsByteLimit, ring)
  else
    (whileLoop overCount countRound (ring.entries.length + 1)
      { ring, effect := RingPush.none, refused := false }).bind
    fun counted =>
    (whileLoop (overBytes event.chargedBytes) byteRound
      (counted.ring.entries.length + 1) counted).map fun fitted =>
    if fitted.refused then (.error .eventExceedsByteLimit, fitted.ring)
    else
      (.ok fitted.effect,
        { fitted.ring with
          chargedBytes :=
            saturatingAdd fitted.ring.chargedBytes event.chargedBytes
          entries := fitted.ring.entries ++ [event] })

def clear (ring : ActivityRing toVec) : ActivityRing toVec :=
  { ring with entries := [], chargedBytes := ring.backingBytes }

/-! ## Replay pages -/

/-- The loop of `snapshot_after` over the events that are newer. -/
def page (maxEvents maxBytes : Nat) :
    List (RingEvent toVec) → List (WireEvent Content) → Nat → List (WireEvent Content)
  | [], events, _ => events
  | stored :: rest, events, encodedBytes =>
      if maxEvents ≤ events.length then events
      else
        match toVec stored.masked with
        | none => events
        | some eventBytes =>
            let separator := if events.isEmpty then 0 else 1
            let bytes :=
              saturatingAdd (saturatingAdd encodedBytes separator) eventBytes
            if !events.isEmpty && maxBytes < bytes then events
            else page maxEvents maxBytes rest (events ++ [stored.masked]) bytes

/-- The events after a cursor. -/
def newer (ring : ActivityRing toVec) (after : Option Nat) :
    List (RingEvent toVec) :=
  ring.entries.filter fun event =>
    match after with
    | none => true
    | some cursor => cursor < event.sequence

/-- `snapshot_after` -/
def snapshotAfter (ring : ActivityRing toVec) (after : Option Nat)
    (maxEvents maxBytes : Nat) : List (WireEvent Content) :=
  page maxEvents maxBytes (ring.newer after) [] 2

end ActivityRing

end Ratspeak.Activity
