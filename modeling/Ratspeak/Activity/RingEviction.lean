import Mathlib.Data.Option.Basic
import Ratspeak.Activity.Ring
import Ratspeak.Library.Window

/-!
# Evictions from the activity ring

A push evicts the shortest front that makes room, first for the number of
events and then for their bytes.  So the counter stays exact, what is reported
as evicted adds up, and what is retained is the longest suffix within both
limits.
-/

namespace Ratspeak.Activity

open Ratspeak.Library (whileLoop whileLoop_total u64Max saturatingAdd
  saturatingAdd_of_le lt_saturatingAdd_iff LongestSuffix)
open Ratspeak.Library.Tally (totalSize totalSize_cons totalSize_append)

variable {Content : Type} {toVec : EncodedLength Content}

/-- The bytes charged for some events. -/
def chargeOf (entries : List (RingEvent toVec)) : Nat :=
  totalSize RingEvent.chargedBytes entries

namespace ActivityRing

theorem chargeOf_nil : chargeOf ([] : List (RingEvent toVec)) = 0 :=
  rfl

theorem chargeOf_cons (event : RingEvent toVec) (rest : List (RingEvent toVec)) :
    chargeOf (event :: rest) = event.chargedBytes + chargeOf rest :=
  totalSize_cons event rest

theorem chargeOf_append (first second : List (RingEvent toVec)) :
    chargeOf (first ++ second) = chargeOf first + chargeOf second :=
  totalSize_append first second

theorem chargeOf_single (event : RingEvent toVec) :
    chargeOf [event] = event.chargedBytes :=
  chargeOf_cons event []

/-- Some events that a ring may hold. -/
def WithinLimits (limits : RingLimits) (backingBytes : Nat)
    (entries : List (RingEvent toVec)) : Prop :=
  entries.length ≤ limits.maxEvents.toNat ∧
    backingBytes + chargeOf entries ≤ limits.maxBytes.toNat

/-- The counter is exact and the ring is within its limits. -/
structure Sound (ring : ActivityRing toVec) : Prop where
  charged : ring.chargedBytes = ring.backingBytes + chargeOf ring.entries
  within : WithinLimits ring.limits ring.backingBytes ring.entries
  someEvents : 0 < ring.limits.maxEvents.toNat
  /-- The byte limit is not the largest number there is. -/
  below : ring.limits.maxBytes.toNat < u64Max

theorem sound_new {allocation : Allocation} {limits : RingLimits}
    {maxEvents maxBytes : UInt64} {ring : ActivityRing toVec}
    (valid : RingLimits.new maxEvents maxBytes = .ok limits)
    (below : limits.maxBytes.toNat < u64Max) (made : new allocation limits = .ok ring) :
    Sound ring ∧ ring.entries = [] ∧ ring.limits = limits ∧
      ring.backingBytes = allocation.backing limits.maxEvents.toNat := by
  unfold new at made
  by_cases tooLarge : limits.maxBytes.toNat < allocation.backing limits.maxEvents.toNat
  · rw [if_pos tooLarge] at made
    cases made
  · rw [if_neg tooLarge] at made
    cases made
    unfold RingLimits.new at valid
    by_cases zero : maxEvents = 0 ∨ maxBytes = 0
    · rw [if_pos zero] at valid
      cases valid
    · rw [if_neg zero] at valid
      cases valid
      have positive : 0 < maxEvents.toNat := by
        refine Nat.pos_of_ne_zero ?_
        intro none
        exact zero (Or.inl (UInt64.toNat_inj.mp none))
      refine ⟨⟨rfl, ⟨Nat.zero_le _, ?_⟩, positive, below⟩, rfl, rfl, rfl⟩
      exact Nat.not_lt.mp tooLarge

/-! ## Evicting -/

/-- What a loop has evicted, and what its ring has left of it. -/
structure Evicted (start now : ActivityRing toVec)
    (dropped : List (RingEvent toVec)) : Prop where
  entries : start.entries = dropped ++ now.entries
  charged : now.chargedBytes = now.backingBytes + chargeOf now.entries
  backing : now.backingBytes = start.backingBytes
  limits : now.limits = start.limits

theorem Evicted.pop {start now : ActivityRing toVec}
    {dropped rest : List (RingEvent toVec)} {event : RingEvent toVec}
    (evicted : Evicted start now dropped) (first : now.entries = event :: rest) :
    Evicted start
      { now with
        entries := rest
        chargedBytes := now.chargedBytes - event.chargedBytes }
      (dropped ++ [event]) := by
  refine ⟨?_, ?_, evicted.backing, evicted.limits⟩
  · rw [evicted.entries, first, List.append_assoc]
    rfl
  · change now.chargedBytes - event.chargedBytes =
      now.backingBytes + chargeOf rest
    rw [evicted.charged, first, chargeOf_cons]
    omega

theorem popFront_cons {ring : ActivityRing toVec}
    {rest : List (RingEvent toVec)} {event : RingEvent toVec}
    (first : ring.entries = event :: rest) :
    ring.popFront = some (event.chargedBytes,
      { ring with
        entries := rest
        chargedBytes := ring.chargedBytes - event.chargedBytes }) := by
  unfold popFront
  rw [first]

/-- The ring after its first event was evicted. -/
abbrev afterPop (ring : ActivityRing toVec) (event : RingEvent toVec)
    (rest : List (RingEvent toVec)) : ActivityRing toVec :=
  { ring with
    entries := rest
    chargedBytes := ring.chargedBytes - event.chargedBytes }

theorem countRound_cons {eviction : Eviction toVec}
    {rest : List (RingEvent toVec)} {event : RingEvent toVec}
    (first : eviction.ring.entries = event :: rest) :
    countRound eviction =
      some
        { eviction with
          ring := afterPop eviction.ring event rest
          effect :=
            { eviction.effect with
              evictedForCountEvents :=
                saturatingAdd eviction.effect.evictedForCountEvents 1
              evictedForCountBytes :=
                saturatingAdd eviction.effect.evictedForCountBytes
                  event.chargedBytes } } := by
  unfold countRound
  rw [popFront_cons first]

theorem byteRound_cons {eviction : Eviction toVec}
    {rest : List (RingEvent toVec)} {event : RingEvent toVec}
    (first : eviction.ring.entries = event :: rest) :
    byteRound eviction =
      some
        { eviction with
          ring := afterPop eviction.ring event rest
          effect :=
            { eviction.effect with
              evictedForByteLimitEvents :=
                saturatingAdd eviction.effect.evictedForByteLimitEvents 1
              evictedForByteLimitBytes :=
                saturatingAdd eviction.effect.evictedForByteLimitBytes
                  event.chargedBytes } } := by
  unfold byteRound
  rw [popFront_cons first]

section Push

variable {ring : ActivityRing toVec}

theorem Sound.length_le (sound : Sound ring) :
    ring.entries.length ≤ u64Max := by
  have small := ring.limits.maxEvents.toNat_lt
  have count := sound.within.1
  have max : u64Max = 2 ^ 64 - 1 := rfl
  omega

/-- What the loop for the number of events has done. -/
structure CountDone (start : ActivityRing toVec)
    (eviction : Eviction toVec) (dropped : List (RingEvent toVec)) :
    Prop where
  evicted : Evicted start eviction.ring dropped
  accepted : eviction.refused = false
  effect : eviction.effect =
    { RingPush.none with
      evictedForCountEvents := dropped.length
      evictedForCountBytes := chargeOf dropped }
  /-- The last event was evicted where there was no room for one more. -/
  needed : dropped ≠ [] → start.limits.maxEvents.toNat ≤ eviction.ring.entries.length + 1

/-- What is counted as evicted stays exact when one more is evicted. -/
theorem count_pop {dropped rest entries : List (RingEvent toVec)}
    {event : RingEvent toVec} {bound : Nat} (whole : entries = dropped ++ [event] ++ rest)
    (few : entries.length ≤ u64Max) (charge : bound + chargeOf entries ≤ u64Max) :
    saturatingAdd dropped.length 1 = (dropped ++ [event]).length ∧
      saturatingAdd (chargeOf dropped) event.chargedBytes =
        chargeOf (dropped ++ [event]) := by
  rw [whole, List.length_append] at few
  rw [whole, chargeOf_append, chargeOf_append, chargeOf_single] at charge
  rw [chargeOf_append, chargeOf_single]
  rw [List.length_append, List.length_singleton] at few ⊢
  refine ⟨?_, ?_⟩
  · exact saturatingAdd_of_le (Nat.le_of_add_right_le few) (Nat.le_refl _)
  · have small : chargeOf dropped + event.chargedBytes ≤ u64Max := by omega
    exact saturatingAdd_of_le small (Nat.le_refl _)

theorem CountDone.round (sound : Sound ring) {eviction : Eviction toVec}
    {dropped : List (RingEvent toVec)} (done : CountDone ring eviction dropped)
    (going : overCount eviction = true) :
    ∃ next, countRound eviction = some next ∧
      (∃ more, CountDone ring next more) ∧
      next.ring.entries.length < eviction.ring.entries.length := by
  have full : ring.limits.maxEvents.toNat ≤ eviction.ring.entries.length := by
    rw [← done.evicted.limits]
    simpa [overCount] using going
  have positive := sound.someEvents
  cases entries : eviction.ring.entries with
  | nil =>
      rw [entries, List.length_nil] at full
      omega
  | cons event rest =>
      have pop := done.evicted.pop entries
      have charge := Nat.le_trans sound.within.2 (Nat.le_of_lt sound.below)
      obtain ⟨count, bytes⟩ := count_pop pop.entries sound.length_le charge
      refine ⟨_, countRound_cons entries, ⟨dropped ++ [event], pop, done.accepted, ?_, ?_⟩, ?_⟩
      · rw [done.effect, ← count, ← bytes]
      · intro _
        rw [entries, List.length_cons] at full
        exact full
      · exact Nat.lt_succ_self _

theorem countLoop (sound : Sound ring) :
    ∃ counted dropped,
      whileLoop overCount countRound (ring.entries.length + 1)
        { ring, effect := RingPush.none, refused := false } = some counted ∧
        CountDone ring counted dropped ∧
        counted.ring.entries.length < ring.limits.maxEvents.toNat := by
  have start : CountDone ring
      { ring, effect := RingPush.none, refused := false } [] :=
    ⟨⟨rfl, sound.charged, rfl, rfl⟩, rfl, rfl, by simp⟩
  have round : ∀ eviction, (∃ dropped, CountDone ring eviction dropped) →
      overCount eviction = true →
      ∃ next, countRound eviction = some next ∧
        (∃ more, CountDone ring next more) ∧
        next.ring.entries.length < eviction.ring.entries.length := by
    intro eviction ⟨dropped, done⟩ going
    exact done.round sound going
  obtain ⟨counted, ends, ⟨dropped, done⟩, stopped⟩ :=
    whileLoop_total _ _ round ⟨[], start⟩ (Nat.le_succ ring.entries.length)
  refine ⟨counted, dropped, ends, done, ?_⟩
  rw [← done.evicted.limits]
  simpa [overCount] using stopped

/-- What the loop for the bytes has done after the other one. -/
structure ByteDone (start : ActivityRing toVec) (eventBytes : Nat)
    (earlier : RingPush) (eviction : Eviction toVec)
    (dropped : List (RingEvent toVec)) : Prop where
  evicted : Evicted start eviction.ring dropped
  accepted : eviction.refused = false
  effect : eviction.effect =
    { earlier with
      evictedForByteLimitEvents := dropped.length
      evictedForByteLimitBytes := chargeOf dropped }
  /-- The last event was evicted where the new one did not fit. -/
  needed : ∀ front last, dropped = front ++ [last] →
    start.limits.maxBytes.toNat < start.backingBytes +
      chargeOf (last :: eviction.ring.entries) + eventBytes

/-- What a ring keeps to while room is made for bytes that can fit. -/
structure Fitting (start : ActivityRing toVec) (eventBytes : Nat) :
    Prop where
  within : start.backingBytes + chargeOf start.entries ≤ start.limits.maxBytes.toNat
  few : start.entries.length ≤ u64Max
  below : start.limits.maxBytes.toNat < u64Max
  fits : start.backingBytes + eventBytes ≤ start.limits.maxBytes.toNat

/-- The loop for the bytes goes on where the new event does not fit. -/
theorem ByteDone.overBytes_iff {start : ActivityRing toVec}
    {eventBytes : Nat} {earlier : RingPush} {eviction : Eviction toVec}
    {dropped : List (RingEvent toVec)}
    (done : ByteDone start eventBytes earlier eviction dropped)
    (below : start.limits.maxBytes.toNat < u64Max) :
    overBytes eventBytes eviction = true ↔
      start.limits.maxBytes.toNat <
        start.backingBytes + chargeOf eviction.ring.entries +
          eventBytes := by
  unfold overBytes
  rw [done.accepted, done.evicted.limits, done.evicted.charged, done.evicted.backing]
  simp only [Bool.not_false, Bool.true_and, decide_eq_true_eq]
  exact lt_saturatingAdd_iff below

theorem ByteDone.round {start : ActivityRing toVec} {eventBytes : Nat}
    {earlier : RingPush} {eviction : Eviction toVec}
    {dropped : List (RingEvent toVec)} (fitting : Fitting start eventBytes)
    (done : ByteDone start eventBytes earlier eviction dropped)
    (going : overBytes eventBytes eviction = true) :
    ∃ next, byteRound eviction = some next ∧
      (∃ more, ByteDone start eventBytes earlier next more) ∧
      next.ring.entries.length < eviction.ring.entries.length := by
  have full := (done.overBytes_iff fitting.below).mp going
  have fits := fitting.fits
  cases entries : eviction.ring.entries with
  | nil =>
      rw [entries, chargeOf_nil] at full
      omega
  | cons event rest =>
      have pop := done.evicted.pop entries
      have charge := Nat.le_trans fitting.within (Nat.le_of_lt fitting.below)
      obtain ⟨count, bytes⟩ := count_pop pop.entries fitting.few charge
      refine ⟨_, byteRound_cons entries, ⟨dropped ++ [event], pop, done.accepted, ?_, ?_⟩, ?_⟩
      · rw [done.effect, ← count, ← bytes]
      · intro front last same
        have isLast : event = last :=
          List.singleton_inj.mp (List.append_inj' same rfl).2
        rw [← isLast]
        rw [entries] at full
        exact full
      · exact Nat.lt_succ_self _

theorem byteLoop {counted : Eviction toVec} {eventBytes : Nat}
    (fitting : Fitting counted.ring eventBytes) (charged : counted.ring.chargedBytes =
      counted.ring.backingBytes + chargeOf counted.ring.entries)
    (accepted : counted.refused = false) (fresh : counted.effect =
      { counted.effect with
        evictedForByteLimitEvents := 0
        evictedForByteLimitBytes := 0 }) :
    ∃ fitted dropped,
      whileLoop (overBytes eventBytes) byteRound
        (counted.ring.entries.length + 1) counted = some fitted ∧
        ByteDone counted.ring eventBytes counted.effect fitted dropped ∧
        fitted.ring.chargedBytes + eventBytes ≤
          counted.ring.limits.maxBytes.toNat := by
  have start : ByteDone counted.ring eventBytes counted.effect counted [] :=
    ⟨⟨rfl, charged, rfl, rfl⟩, accepted, fresh, by simp⟩
  have round : ∀ eviction,
      (∃ dropped, ByteDone counted.ring eventBytes counted.effect eviction dropped) →
      overBytes eventBytes eviction = true →
      ∃ next, byteRound eviction = some next ∧
        (∃ more, ByteDone counted.ring eventBytes counted.effect next more) ∧
        next.ring.entries.length < eviction.ring.entries.length := by
    intro eviction ⟨dropped, done⟩ going
    exact done.round fitting going
  obtain ⟨fitted, ends, ⟨dropped, done⟩, stopped⟩ :=
    whileLoop_total _ _ round ⟨[], start⟩ (Nat.le_succ counted.ring.entries.length)
  refine ⟨fitted, dropped, ends, done, ?_⟩
  have room := mt (done.overBytes_iff fitting.below).mpr (by simp [stopped])
  rw [done.evicted.charged, done.evicted.backing]
  omega

/-- What an accepted push has done. -/
structure Accepted (ring after : ActivityRing toVec)
    (event : RingEvent toVec) (effect : RingPush) : Prop where
  window : LongestSuffix (WithinLimits ring.limits ring.backingBytes)
    (ring.entries ++ [event]) after.entries
  newest : ∃ kept, after.entries = kept ++ [event]
  events : effect.evictedForCountEvents + effect.evictedForByteLimitEvents +
    after.entries.length = ring.entries.length + 1
  bytes : effect.evictedForCountBytes + effect.evictedForByteLimitBytes +
    chargeOf after.entries = chargeOf ring.entries + event.chargedBytes

theorem WithinLimits.front {limits : RingLimits} {backingBytes : Nat}
    {front : List (RingEvent toVec)} {event : RingEvent toVec}
    (within : WithinLimits limits backingBytes (front ++ [event])) :
    WithinLimits limits backingBytes front := by
  obtain ⟨count, charge⟩ := within
  rw [List.length_append] at count
  rw [chargeOf_append] at charge
  exact ⟨by omega, by omega⟩

/-- No longer suffix is within the limits when the last event evicted for
either limit was in the way. -/
theorem longest_of_needed {limits : RingLimits} {backingBytes : Nat}
    {first second kept : List (RingEvent toVec)} {event : RingEvent toVec}
    (within : WithinLimits limits backingBytes (kept ++ [event])) (count : first ≠ [] →
      limits.maxEvents.toNat ≤ (second ++ kept).length + 1)
    (charge : ∀ front last, second = front ++ [last] →
      limits.maxBytes.toNat < backingBytes + chargeOf (last :: kept) + event.chargedBytes) :
    LongestSuffix (WithinLimits limits backingBytes)
      (first ++ (second ++ kept) ++ [event]) (kept ++ [event]) := by
  refine ⟨⟨first ++ second, by simp⟩, within, ?_⟩
  intro other suffix ⟨otherCount, otherCharge⟩
  by_contra longer
  have isSuffix : kept ++ [event] <:+ other :=
    List.suffix_of_suffix_length_le ⟨first ++ second, by simp⟩ suffix
      (by omega)
  obtain ⟨more, whole⟩ := isSuffix
  have someMore : more ≠ [] := by
    intro none
    rw [none, List.nil_append] at whole
    rw [whole] at longer
    exact longer (Nat.le_refl _)
  have moreSuffix : more <:+ first ++ second := by
    obtain ⟨start, equal⟩ := suffix
    rw [← whole] at equal
    have parts : (start ++ more) ++ (kept ++ [event]) =
        (first ++ second) ++ (kept ++ [event]) := by
      simpa [List.append_assoc] using equal
    exact ⟨start, List.append_cancel_right parts⟩
  obtain ⟨front, last, isLast⟩ :
      ∃ front last, more = front ++ [last] := by
    rcases List.eq_nil_or_concat more with none | ⟨front, last, isLast⟩
    · exact absurd none someMore
    · exact ⟨front, last, by rw [isLast, List.concat_eq_append]⟩
  rcases List.eq_nil_or_concat second with none | ⟨start, final, isSecond⟩
  · have someFirst : first ≠ [] := by
      intro empty
      rw [empty, none, List.append_nil, List.suffix_nil] at moreSuffix
      exact someMore moreSuffix
    have full := count someFirst
    rw [none, List.nil_append] at full
    rw [← whole, isLast] at otherCount
    simp only [List.length_append, List.length_singleton] at otherCount
    omega
  · rw [List.concat_eq_append] at isSecond
    have same : last = final := by
      obtain ⟨before, equal⟩ := moreSuffix
      rw [isLast, isSecond, ← List.append_assoc, ← List.append_assoc] at equal
      simpa using (List.append_inj' equal rfl).2
    have beyond := charge start final isSecond
    rw [← whole, isLast, same] at otherCharge
    simp only [chargeOf_append, chargeOf_single] at otherCharge
    rw [chargeOf_cons] at beyond
    omega

/-- Every push has a result.  When it is refused, nothing has changed. -/
theorem push_sound (sound : Sound ring) (event : RingEvent toVec) :
    ∃ outcome after, push ring event = some (outcome, after) ∧
      Sound after ∧ after.limits = ring.limits ∧
      after.backingBytes = ring.backingBytes ∧
      (∀ error, outcome = .error error → after = ring) ∧
      (∀ effect, outcome = .ok effect →
        Accepted ring after event effect) := by
  have below := sound.below
  unfold push
  by_cases tooLarge : ring.limits.maxBytes.toNat <
      saturatingAdd ring.backingBytes event.chargedBytes
  · rw [if_pos tooLarge]
    refine ⟨_, ring, rfl, sound, rfl, rfl, fun _ _ => rfl, ?_⟩
    intro effect impossible
    cases impossible
  · rw [if_neg tooLarge]
    have fits : ring.backingBytes + event.chargedBytes ≤
        ring.limits.maxBytes.toNat := by
      rw [lt_saturatingAdd_iff below] at tooLarge
      omega
    obtain ⟨counted, first, countEnds, countDone, room⟩ := countLoop sound
    have entries := countDone.evicted.entries
    have limits := countDone.evicted.limits
    have backing := countDone.evicted.backing
    have charge := sound.within.2
    have few := sound.length_le
    rw [entries, chargeOf_append] at charge
    rw [entries, List.length_append] at few
    have fitting : Fitting counted.ring event.chargedBytes := by
      refine ⟨?_, by omega, by rw [limits]; exact below, ?_⟩
      · rw [limits, backing]
        omega
      · rw [limits, backing]
        exact fits
    obtain ⟨fitted, second, byteEnds, byteDone, space⟩ :=
      byteLoop fitting countDone.evicted.charged countDone.accepted
        (by rw [countDone.effect]; rfl)
    have laterEntries := byteDone.evicted.entries
    have laterLimits := byteDone.evicted.limits.trans limits
    have laterBacking := byteDone.evicted.backing.trans backing
    have laterCharged := byteDone.evicted.charged
    rw [limits] at space
    rw [laterEntries, List.length_append] at room
    have sum : saturatingAdd fitted.ring.chargedBytes event.chargedBytes =
        fitted.ring.chargedBytes + event.chargedBytes :=
      saturatingAdd_of_le space (Nat.le_of_lt below)
    have within : WithinLimits ring.limits ring.backingBytes
        (fitted.ring.entries ++ [event]) := by
      refine ⟨?_, ?_⟩
      · rw [List.length_append, List.length_singleton]
        omega
      · rw [chargeOf_append, chargeOf_single]
        rw [laterCharged, laterBacking] at space
        omega
    refine ⟨.ok fitted.effect,
      { fitted.ring with
        chargedBytes := fitted.ring.chargedBytes + event.chargedBytes
        entries := fitted.ring.entries ++ [event] },
      ?_, ?_, laterLimits, laterBacking, ?_, ?_⟩
    · rw [countEnds, Option.bind_some, byteEnds, Option.map_some,
        byteDone.accepted, sum]
      rfl
    · refine ⟨?_, ?_, ?_, ?_⟩
      · change fitted.ring.chargedBytes + event.chargedBytes =
          fitted.ring.backingBytes + chargeOf (fitted.ring.entries ++ [event])
        rw [chargeOf_append, chargeOf_single, laterCharged]
        omega
      · change WithinLimits fitted.ring.limits fitted.ring.backingBytes
          (fitted.ring.entries ++ [event])
        rw [laterLimits, laterBacking]
        exact within
      · change 0 < fitted.ring.limits.maxEvents.toNat
        rw [laterLimits]
        exact sound.someEvents
      · change fitted.ring.limits.maxBytes.toNat < u64Max
        rw [laterLimits]
        exact below
    · intro error impossible
      cases impossible
    · intro effect same
      cases same
      refine ⟨?_, ⟨fitted.ring.entries, rfl⟩, ?_, ?_⟩
      · rw [entries, laterEntries]
        refine longest_of_needed within ?_ ?_
        · intro some
          have full := countDone.needed some
          rw [laterEntries] at full
          exact full
        · intro front last isSecond
          have full := byteDone.needed front last isSecond
          rw [limits, backing] at full
          exact full
      · change fitted.effect.evictedForCountEvents +
          fitted.effect.evictedForByteLimitEvents + (fitted.ring.entries ++ [event]).length = _
        rw [byteDone.effect, countDone.effect, entries, laterEntries]
        simp only [List.length_append, List.length_singleton]
        omega
      · change fitted.effect.evictedForCountBytes +
          fitted.effect.evictedForByteLimitBytes + chargeOf (fitted.ring.entries ++ [event]) = _
        rw [byteDone.effect, countDone.effect, entries, laterEntries]
        simp only [chargeOf_append, chargeOf_single]
        omega

theorem clear_sound (sound : Sound ring) : Sound ring.clear := by
  refine ⟨?_, ⟨?_, ?_⟩, sound.someEvents, sound.below⟩
  · change ring.backingBytes = ring.backingBytes + chargeOf []
    rw [chargeOf_nil]
    rfl
  · exact Nat.zero_le _
  · change ring.backingBytes + chargeOf [] ≤ ring.limits.maxBytes.toNat
    have charge := sound.within.2
    rw [chargeOf_nil]
    omega

end Push

end ActivityRing

end Ratspeak.Activity
