import Ratspeak.Activity.RingEviction

/-!
# Runs of the activity ring

Over pushes and clears the ring retains the longest suffix of the accepted
events that is within both limits, and what was reported as evicted is all
that it retains no longer.  A reader that asks for page after page gets every
event that is still there, once and in order.
-/

namespace Ratspeak.Activity

open Ratspeak.Library (u64Max saturatingAdd LongestSuffix)

variable {Content : Type} {toVec : EncodedLength Content}

namespace ActivityRing

/-! ## Pages -/

/-- An event comes after a cursor. -/
def IsNewer (after : Option Nat) (sequence : Nat) : Prop :=
  ∀ cursor, after = some cursor → cursor < sequence

theorem mem_newer {ring : ActivityRing toVec} {after : Option Nat} {event : RingEvent toVec} :
    event ∈ ring.newer after ↔
      event ∈ ring.entries ∧ IsNewer after event.sequence := by
  unfold newer IsNewer
  rw [List.mem_filter]
  cases after with
  | none => simp
  | some cursor => simp

/-- A page holds the first of the newer events. -/
theorem page_eq (maxEvents maxBytes : Nat) (rest : List (RingEvent toVec))
    (events : List (WireEvent Content)) (encodedBytes : Nat) :
    ∃ count, page maxEvents maxBytes rest events encodedBytes =
      events ++ (rest.take count).map RingEvent.masked := by
  induction rest generalizing events encodedBytes with
  | nil => exact ⟨0, by simp [page]⟩
  | cons stored rest ih =>
      have stops : ∃ count, events =
          events ++ ((stored :: rest).take count).map RingEvent.masked :=
        ⟨0, by simp⟩
      rw [page]
      by_cases full : maxEvents ≤ events.length
      · rw [if_pos full]
        exact stops
      · rw [if_neg full]
        cases toVec stored.masked with
        | none => exact stops
        | some eventBytes =>
            generalize (if events.isEmpty = true then 0 else 1) = separator
            dsimp only
            generalize saturatingAdd (saturatingAdd encodedBytes separator) eventBytes = bytes
            by_cases large : (!events.isEmpty && decide (maxBytes < bytes)) = true
            · rw [if_pos large]
              exact stops
            · rw [if_neg large]
              obtain ⟨count, equal⟩ := ih (events ++ [stored.masked]) bytes
              refine ⟨count + 1, ?_⟩
              rw [equal, List.take_succ_cons, List.map_cons, List.append_assoc]
              rfl

/-- The first newer event is on the page, however large it is. -/
theorem page_ne_nil {maxEvents : Nat} (positive : 0 < maxEvents)
    (maxBytes encodedBytes : Nat) (stored : RingEvent toVec) (rest : List (RingEvent toVec)) :
    page maxEvents maxBytes (stored :: rest) [] encodedBytes ≠ [] := by
  obtain ⟨eventBytes, encoded⟩ := Option.isSome_iff_exists.mp stored.encodes
  have encodedMasked : toVec stored.masked = some eventBytes := encoded
  have room : ¬maxEvents ≤ ([] : List (WireEvent Content)).length := by
    rw [List.length_nil]
    omega
  rw [page, if_neg room, encodedMasked]
  dsimp only
  rw [if_neg (by simp)]
  obtain ⟨count, equal⟩ := page_eq maxEvents maxBytes rest
    ([] ++ [stored.masked])
    (saturatingAdd (saturatingAdd encodedBytes
      (if ([] : List (WireEvent Content)).isEmpty = true then 0 else 1))
      eventBytes)
  rw [equal]
  simp

theorem snapshotAfter_eq (ring : ActivityRing toVec) (after : Option Nat)
    (maxEvents maxBytes : Nat) :
    ∃ count, ring.snapshotAfter after maxEvents maxBytes =
      ((ring.newer after).take count).map RingEvent.masked :=
  page_eq maxEvents maxBytes (ring.newer after) [] 2

/-- A page is empty only where nothing newer is retained. -/
theorem snapshotAfter_eq_nil_iff {ring : ActivityRing toVec}
    {after : Option Nat} {maxEvents maxBytes : Nat} (positive : 0 < maxEvents) :
    ring.snapshotAfter after maxEvents maxBytes = [] ↔
      ∀ event ∈ ring.entries, ¬IsNewer after event.sequence := by
  unfold snapshotAfter
  constructor
  · intro empty event among newer
    have member : event ∈ ring.newer after := mem_newer.mpr ⟨among, newer⟩
    cases events : ring.newer after with
    | nil =>
        rw [events] at member
        cases member
    | cons first rest =>
        rw [events] at empty
        exact page_ne_nil positive maxBytes 2 first rest empty
  · intro none
    have nothing : ring.newer after = [] := by
      rw [List.eq_nil_iff_forall_not_mem]
      intro event member
      obtain ⟨among, newer⟩ := mem_newer.mp member
      exact none event among newer
    rw [nothing]
    rfl

end ActivityRing

/-! ## Runs -/

/-- What happens to a ring and to its reader. -/
inductive RingOp (toVec : EncodedLength Content) where
  | push (event : RingEvent toVec)
  | clear
  | read (maxEvents maxBytes : Nat)

/-- A ring and a reader.  What was accepted and what was reported as evicted
counts from the last time the ring was cleared. -/
structure Capture (toVec : EncodedLength Content) where
  ring : ActivityRing toVec
  accepted : List (RingEvent toVec)
  evictedEvents : Nat
  evictedBytes : Nat
  cursor : Option Nat
  returned : List (WireEvent Content)

def Capture.start (ring : ActivityRing toVec) (after : Option Nat) :
    Capture toVec :=
  { ring, accepted := [], evictedEvents := 0, evictedBytes := 0
    cursor := after, returned := [] }

/-- The cursor after a page. -/
def nextCursor (page : List (WireEvent Content)) (cursor : Option Nat) :
    Option Nat :=
  (page.getLast?.map WireEvent.sequence).or cursor

/-- The events and the bytes that a push reports as evicted. -/
def RingPush.events (effect : RingPush) : Nat :=
  effect.evictedForCountEvents + effect.evictedForByteLimitEvents

def RingPush.bytes (effect : RingPush) : Nat :=
  effect.evictedForCountBytes + effect.evictedForByteLimitBytes

def Capture.step (capture : Capture toVec) :
    RingOp toVec → Option (Capture toVec)
  | .push event =>
      (capture.ring.push event).map fun result =>
      match result.1 with
      | .error _ => { capture with ring := result.2 }
      | .ok effect =>
          { capture with
            ring := result.2
            accepted := capture.accepted ++ [event]
            evictedEvents := capture.evictedEvents + effect.events
            evictedBytes := capture.evictedBytes + effect.bytes }
  | .clear =>
      some
        { capture with
          ring := capture.ring.clear
          accepted := [], evictedEvents := 0, evictedBytes := 0 }
  | .read maxEvents maxBytes =>
      let page :=
        capture.ring.snapshotAfter capture.cursor maxEvents maxBytes
      some
        { capture with
          returned := capture.returned ++ page
          cursor := nextCursor page capture.cursor }

def Capture.run (capture : Capture toVec) :
    List (RingOp toVec) → Option (Capture toVec)
  | [] => some capture
  | op :: ops => (capture.step op).bind fun next => next.run ops

/-- The events that are pushed, in order. -/
def pushedBy (ops : List (RingOp toVec)) : List (RingEvent toVec) :=
  ops.filterMap fun op =>
    match op with
    | .push event => some event
    | .clear => none
    | .read _ _ => none

/-- The state of the ring accounts for all that was accepted. -/
structure Accounts (limits : RingLimits) (backingBytes : Nat)
    (capture : Capture toVec) : Prop where
  sound : capture.ring.Sound
  sameLimits : capture.ring.limits = limits
  sameBacking : capture.ring.backingBytes = backingBytes
  window : LongestSuffix (ActivityRing.WithinLimits limits backingBytes)
    capture.accepted capture.ring.entries
  events : capture.evictedEvents + capture.ring.entries.length = capture.accepted.length
  bytes : capture.evictedBytes + chargeOf capture.ring.entries = chargeOf capture.accepted

theorem Accounts.step {limits : RingLimits} {backingBytes : Nat} {capture : Capture toVec}
    (accounts : Accounts limits backingBytes capture) (op : RingOp toVec) :
    ∃ next, capture.step op = some next ∧
      Accounts limits backingBytes next := by
  cases op with
  | push event =>
      obtain ⟨outcome, after, pushed, sound, sameLimits, sameBacking,
        refused, accepted⟩ := ActivityRing.push_sound accounts.sound event
      refine ⟨_, by rw [Capture.step, pushed, Option.map_some], ?_⟩
      cases outcome with
      | error error =>
          have same : after = capture.ring := refused error rfl
          rw [same]
          exact accounts
      | ok effect =>
          have done := accepted effect rfl
          have window := done.window
          have events := done.events
          have bytes := done.bytes
          rw [accounts.sameLimits, accounts.sameBacking] at window
          have oldEvents := accounts.events
          have oldBytes := accounts.bytes
          refine ⟨sound, sameLimits.trans accounts.sameLimits,
            sameBacking.trans accounts.sameBacking,
            accounts.window.push (fun front => ActivityRing.WithinLimits.front)
              window, ?_, ?_⟩
          · change capture.evictedEvents + effect.events +
              after.entries.length = (capture.accepted ++ [event]).length
            rw [List.length_append, List.length_singleton, RingPush.events]
            omega
          · change capture.evictedBytes + effect.bytes +
              chargeOf after.entries = chargeOf (capture.accepted ++ [event])
            rw [ActivityRing.chargeOf_append, ActivityRing.chargeOf_single, RingPush.bytes]
            omega
  | clear =>
      have sound := ActivityRing.clear_sound accounts.sound
      refine ⟨_, rfl, sound, accounts.sameLimits, accounts.sameBacking, ?_, rfl, rfl⟩
      refine LongestSuffix.nil ?_
      have within := sound.within
      change ActivityRing.WithinLimits capture.ring.limits
        capture.ring.backingBytes [] at within
      rw [accounts.sameLimits, accounts.sameBacking] at within
      exact within
  | read maxEvents maxBytes =>
      exact ⟨_, rfl, accounts.sound, accounts.sameLimits,
        accounts.sameBacking, accounts.window, accounts.events,
        accounts.bytes⟩

theorem Accounts.run {limits : RingLimits} {backingBytes : Nat} {capture : Capture toVec}
    (accounts : Accounts limits backingBytes capture) (ops : List (RingOp toVec)) :
    ∃ final, capture.run ops = some final ∧
      Accounts limits backingBytes final := by
  induction ops generalizing capture with
  | nil => exact ⟨capture, rfl, accounts⟩
  | cons op ops ih =>
      obtain ⟨next, stepped, kept⟩ := accounts.step op
      obtain ⟨final, ran, holds⟩ := ih kept
      refine ⟨final, ?_, holds⟩
      rw [Capture.run, stepped, Option.bind_some, ran]

/-! ## Replay -/

/-- One event has a smaller sequence number than another. -/
def RingEvent.Before (first second : RingEvent toVec) : Prop :=
  first.sequence < second.sequence

/-- What a reader that began after some cursor has been given, where the
events that are still to be pushed are known. -/
structure Replays (after : Option Nat) (remaining : List (RingEvent toVec))
    (capture : Capture toVec) : Prop where
  ordered : (capture.ring.entries ++ remaining).Pairwise RingEvent.Before
  once : capture.returned.Pairwise fun first second =>
    first.sequence < second.sequence
  past : ∀ wire ∈ capture.returned, ¬ActivityRing.IsNewer capture.cursor wire.sequence
  future : ∀ event ∈ remaining,
    ActivityRing.IsNewer after event.sequence →
      ActivityRing.IsNewer capture.cursor event.sequence
  complete : ∀ event ∈ capture.ring.entries,
    ActivityRing.IsNewer after event.sequence →
      ActivityRing.IsNewer capture.cursor event.sequence ∨ event.masked ∈ capture.returned

theorem Replays.start (ring : ActivityRing toVec) (after : Option Nat)
    {remaining : List (RingEvent toVec)} (empty : ring.entries = [])
    (increasing : remaining.Pairwise RingEvent.Before) :
    Replays after remaining (Capture.start ring after) := by
  refine ⟨?_, List.Pairwise.nil, by simp [Capture.start], ?_, ?_⟩
  · change (ring.entries ++ remaining).Pairwise RingEvent.Before
    rw [empty, List.nil_append]
    exact increasing
  · intro event _ newer
    exact newer
  · intro event _ newer
    exact Or.inl newer

/-- A reader misses nothing when the ring only gives up events. -/
theorem Replays.of_sublist {after : Option Nat}
    {remaining : List (RingEvent toVec)} {capture next : Capture toVec}
    (replays : Replays after remaining capture)
    (fewer : next.ring.entries.Sublist capture.ring.entries)
    (returned : next.returned = capture.returned) (cursor : next.cursor = capture.cursor) :
    Replays after remaining next := by
  refine ⟨?_, ?_, ?_, ?_, ?_⟩
  · exact replays.ordered.sublist (fewer.append (List.Sublist.refl remaining))
  · rw [returned]
    exact replays.once
  · rw [returned, cursor]
    exact replays.past
  · rw [cursor]
    exact replays.future
  · rw [returned, cursor]
    intro event among newer
    exact replays.complete event (fewer.subset among) newer

theorem Replays.push {after : Option Nat}
    {remaining : List (RingEvent toVec)} {capture next : Capture toVec}
    {event : RingEvent toVec} (replays : Replays after (event :: remaining) capture)
    (fewer : next.ring.entries.Sublist (capture.ring.entries ++ [event]))
    (returned : next.returned = capture.returned) (cursor : next.cursor = capture.cursor) :
    Replays after remaining next := by
  have grown : Replays after remaining
      { capture with
        ring :=
          { capture.ring with entries := capture.ring.entries ++ [event] } } := by
    refine ⟨?_, replays.once, replays.past, ?_, ?_⟩
    · change (capture.ring.entries ++ [event] ++ remaining).Pairwise
        RingEvent.Before
      rw [List.append_assoc]
      exact replays.ordered
    · intro later among newer
      exact replays.future later (List.mem_cons_of_mem event among) newer
    · intro stored among newer
      rcases List.mem_append.mp among with old | isNew
      · exact replays.complete stored old newer
      · rw [List.mem_singleton.mp isNew] at newer ⊢
        exact Or.inl (replays.future event List.mem_cons_self newer)
  exact grown.of_sublist fewer returned cursor

/-- The events on a page and those after it. -/
theorem page_parts {ring : ActivityRing toVec} (cursor : Option Nat)
    (maxEvents maxBytes : Nat) (increasing : ring.entries.Pairwise RingEvent.Before) :
    ∃ events rest, ring.newer cursor = events ++ rest ∧
      ring.snapshotAfter cursor maxEvents maxBytes = events.map RingEvent.masked ∧
      (events ++ rest).Pairwise RingEvent.Before := by
  obtain ⟨count, page⟩ :=
    ring.snapshotAfter_eq cursor maxEvents maxBytes
  refine ⟨(ring.newer cursor).take count, (ring.newer cursor).drop count,
    (List.take_append_drop count _).symm, page, ?_⟩
  rw [List.take_append_drop]
  exact increasing.sublist List.filter_sublist

theorem nextCursor_concat (events : List (RingEvent toVec))
    (last : RingEvent toVec) (cursor : Option Nat) :
    nextCursor ((events ++ [last]).map RingEvent.masked) cursor =
      some last.sequence := by
  unfold nextCursor
  rw [List.map_append, List.map_singleton, List.getLast?_concat]
  rfl

theorem isNewer_some {cursor sequence : Nat} :
    ActivityRing.IsNewer (some cursor) sequence ↔ cursor < sequence := by
  unfold ActivityRing.IsNewer
  simp

theorem Replays.read {after : Option Nat}
    {remaining : List (RingEvent toVec)} {capture : Capture toVec}
    (replays : Replays after remaining capture) (maxEvents maxBytes : Nat) :
    Replays after remaining
      { capture with
        returned := capture.returned ++
          capture.ring.snapshotAfter capture.cursor maxEvents maxBytes
        cursor := nextCursor
          (capture.ring.snapshotAfter capture.cursor maxEvents maxBytes)
          capture.cursor } := by
  obtain ⟨retained, _, across⟩ := List.pairwise_append.mp replays.ordered
  obtain ⟨events, rest, newer, page, sorted⟩ :=
    page_parts capture.cursor maxEvents maxBytes retained
  rw [page]
  rcases List.eq_nil_or_concat events with none | ⟨front, last, whole⟩
  · rw [none, List.map_nil, List.append_nil]
    exact replays
  · rw [List.concat_eq_append] at whole
    have cursorLast : nextCursor (events.map RingEvent.masked)
        capture.cursor = some last.sequence := by
      rw [whole]
      exact nextCursor_concat front last capture.cursor
    rw [cursorLast]
    obtain ⟨inPage, _, pageBefore⟩ := List.pairwise_append.mp sorted
    have onPage : ∀ event ∈ events, event ∈ capture.ring.entries ∧
        ActivityRing.IsNewer capture.cursor event.sequence := by
      intro event among
      refine ActivityRing.mem_newer.mp ?_
      rw [newer]
      exact List.mem_append_left rest among
    have lastOnPage : last ∈ events := by
      rw [whole]
      exact List.mem_append_right front (List.mem_singleton_self last)
    have atMost : ∀ event ∈ events, event.sequence ≤ last.sequence := by
      rw [whole] at inPage ⊢
      intro event among
      rcases List.mem_append.mp among with earlier | isLast
      · have before := (List.pairwise_append.mp inPage).2.2 event earlier
          last (List.mem_singleton_self last)
        exact Nat.le_of_lt before
      · rw [List.mem_singleton.mp isLast]
    have returnedBefore : ∀ wire ∈ capture.returned, ∀ event ∈ events,
        wire.sequence < event.sequence := by
      intro wire given event among
      have notNewer := replays.past wire given
      have isNewer := (onPage event among).2
      cases cursor : capture.cursor with
      | none =>
          rw [cursor] at notNewer
          exact absurd nofun notNewer
      | some position =>
          rw [cursor, isNewer_some] at notNewer isNewer
          omega
    refine ⟨replays.ordered, ?_, ?_, ?_, ?_⟩
    · refine List.pairwise_append.mpr ⟨replays.once, ?_, ?_⟩
      · exact List.pairwise_map.mpr inPage
      · intro wire given other onIt
        obtain ⟨event, among, same⟩ := List.mem_map.mp onIt
        rw [← same]
        exact returnedBefore wire given event among
    · intro wire given
      rw [isNewer_some]
      rcases List.mem_append.mp given with old | onIt
      · have before := returnedBefore wire old last lastOnPage
        omega
      · obtain ⟨event, among, same⟩ := List.mem_map.mp onIt
        have small := atMost event among
        rw [← same]
        exact Nat.not_lt.mpr small
    · intro event among _
      rw [isNewer_some]
      exact across last (onPage last lastOnPage).1 event among
    · intro event among isNewer
      rcases replays.complete event among isNewer with later | given
      · have inNewer : event ∈ events ++ rest := by
          rw [← newer]
          exact ActivityRing.mem_newer.mpr ⟨among, later⟩
        rcases List.mem_append.mp inNewer with onIt | behind
        · exact Or.inr (List.mem_append_right _ (List.mem_map_of_mem onIt))
        · refine Or.inl ?_
          rw [isNewer_some]
          exact pageBefore last lastOnPage event behind
      · exact Or.inr (List.mem_append_left _ given)

theorem Replays.step {after : Option Nat} {limits : RingLimits}
    {backingBytes : Nat} {capture next : Capture toVec}
    {op : RingOp toVec} {ops : List (RingOp toVec)}
    (accounts : Accounts limits backingBytes capture)
    (replays : Replays after (pushedBy (op :: ops)) capture)
    (stepped : capture.step op = some next) :
    Replays after (pushedBy ops) next := by
  cases op with
  | push event =>
      obtain ⟨outcome, later, pushed, _, _, _, refused, accepted⟩ :=
        ActivityRing.push_sound accounts.sound event
      rw [Capture.step, pushed, Option.map_some] at stepped
      cases outcome with
      | error error =>
          cases stepped
          refine replays.push ?_ rfl rfl
          change later.entries.Sublist (capture.ring.entries ++ [event])
          rw [refused error rfl]
          exact List.sublist_append_left capture.ring.entries [event]
      | ok effect =>
          cases stepped
          exact replays.push (accepted effect rfl).window.suffix.sublist rfl rfl
  | clear =>
      cases stepped
      exact replays.of_sublist (List.nil_sublist _) rfl rfl
  | read maxEvents maxBytes =>
      cases stepped
      exact replays.read maxEvents maxBytes

theorem Replays.run {after : Option Nat} {limits : RingLimits}
    {backingBytes : Nat} {capture final : Capture toVec} {ops : List (RingOp toVec)}
    (accounts : Accounts limits backingBytes capture)
    (replays : Replays after (pushedBy ops) capture)
    (ran : capture.run ops = some final) : Replays after [] final := by
  induction ops generalizing capture with
  | nil =>
      cases ran
      exact replays
  | cons op ops ih =>
      obtain ⟨next, stepped, kept⟩ := accounts.step op
      rw [Capture.run, stepped, Option.bind_some] at ran
      exact ih kept (replays.step accounts stepped) ran

/-! ## The ring over whole runs -/

/-- The bounds, the exact counter and the account of evictions of a ring with
some limits and some backing. -/
structure Bounded (limits : RingLimits) (backingBytes : Nat)
    (capture : Capture toVec) : Prop where
  charged : capture.ring.chargedBytes = backingBytes + chargeOf capture.ring.entries
  bytesBounded : capture.ring.chargedBytes ≤ limits.maxBytes.toNat
  eventsBounded : capture.ring.entries.length ≤ limits.maxEvents.toNat
  window : LongestSuffix
    (fun entries => entries.length ≤ limits.maxEvents.toNat ∧
      backingBytes + chargeOf entries ≤ limits.maxBytes.toNat)
    capture.accepted capture.ring.entries
  events : capture.evictedEvents + capture.ring.entries.length = capture.accepted.length
  bytes : capture.evictedBytes + chargeOf capture.ring.entries = chargeOf capture.accepted
  refused : ∀ event error after,
    capture.ring.push event = some (.error error, after) → after = capture.ring

/-- A reader that began after some cursor was given every event that is
retained and is not still to come, once and in order.  It is given nothing
only where nothing newer is retained. -/
structure Replayed (after : Option Nat) (capture : Capture toVec) :
    Prop where
  ordered : capture.returned.Pairwise fun first second =>
    first.sequence < second.sequence
  complete : ∀ event ∈ capture.ring.entries,
    ActivityRing.IsNewer after event.sequence →
      ActivityRing.IsNewer capture.cursor event.sequence ∨ event.masked ∈ capture.returned
  stops : ∀ maxEvents maxBytes, 0 < maxEvents → 0 < maxBytes →
    (capture.ring.snapshotAfter capture.cursor maxEvents maxBytes = [] ↔
      ∀ event ∈ capture.ring.entries, ¬ActivityRing.IsNewer capture.cursor event.sequence)

theorem Accounts.bounded {limits : RingLimits} {backingBytes : Nat}
    {capture : Capture toVec} (accounts : Accounts limits backingBytes capture) :
    Bounded limits backingBytes capture := by
  have charged := accounts.sound.charged
  have within := accounts.window.holds
  rw [accounts.sameBacking] at charged
  refine ⟨charged, ?_, within.1, accounts.window, accounts.events, accounts.bytes, ?_⟩
  · rw [charged]
    exact within.2
  · intro event error after refused
    obtain ⟨outcome, later, pushed, _, _, _, same, _⟩ :=
      ActivityRing.push_sound accounts.sound event
    rw [pushed] at refused
    cases refused
    exact same error rfl

theorem Accounts.start {allocation : Allocation} {limits : RingLimits}
    {maxEvents maxBytes : UInt64} {ring : ActivityRing toVec}
    (valid : RingLimits.new maxEvents maxBytes = .ok limits)
    (below : limits.maxBytes.toNat < u64Max)
    (made : ActivityRing.new allocation limits = .ok ring) (after : Option Nat) :
    Accounts limits (allocation.backing limits.maxEvents.toNat)
      (Capture.start ring after) := by
  obtain ⟨sound, empty, sameLimits, sameBacking⟩ :=
    ActivityRing.sound_new valid below made
  have within := sound.within
  rw [empty, sameLimits, sameBacking] at within
  refine ⟨sound, sameLimits, sameBacking, ?_, ?_, ?_⟩
  · change LongestSuffix _ [] ring.entries
    rw [empty]
    exact LongestSuffix.nil within
  · change 0 + ring.entries.length = 0
    rw [empty]
    rfl
  · change 0 + chargeOf ring.entries = 0
    rw [empty]
    rfl

/-- Every run of a ring whose byte limit is not the largest number keeps the
ring bounded and accounted for, and where sequence numbers increase it replays
what is retained. -/
theorem activityRing_run {allocation : Allocation} {limits : RingLimits}
    {maxEvents maxBytes : UInt64} {ring : ActivityRing toVec}
    (valid : RingLimits.new maxEvents maxBytes = .ok limits)
    (below : limits.maxBytes.toNat < u64Max)
    (made : ActivityRing.new allocation limits = .ok ring)
    (after : Option Nat) (ops : List (RingOp toVec)) :
    ∃ final, (Capture.start ring after).run ops = some final ∧
      Bounded limits (allocation.backing limits.maxEvents.toNat) final ∧
      ((pushedBy ops).Pairwise RingEvent.Before → Replayed after final) := by
  have start := Accounts.start valid below made after
  obtain ⟨final, ran, accounts⟩ := start.run ops
  refine ⟨final, ran, accounts.bounded, ?_⟩
  intro increasing
  have empty := (ActivityRing.sound_new valid below made).2.1
  have replays := (Replays.start ring after empty increasing).run start ran
  refine ⟨replays.once, replays.complete, ?_⟩
  intro pageEvents pageBytes someEvents _
  exact ActivityRing.snapshotAfter_eq_nil_iff someEvents

/-! ### The largest byte limit -/

/-- An encoder of events that have no content. -/
def sampleToVec : EncodedLength Unit := fun _ => some 24

def sampleEvent (sequence chargedBytes : Nat) : RingEvent sampleToVec :=
  { wire := { sequence, content := () }, chargedBytes, encodes := rfl }

def sampleAllocation : Allocation :=
  { capacity := id, slotBytes := 200 }

def sampleLimits (maxBytes : UInt64) : RingLimits :=
  { maxEvents := 2, maxBytes }

/-- With three events pushed, the first one is evicted and the reader has been
given all that was retained when it asked. -/
theorem activityRing_run_three :
    ∃ ring final, ActivityRing.new sampleAllocation (sampleLimits 1000) =
        .ok ring ∧
      (Capture.start ring none).run
        [.push (sampleEvent 1 100), .read 1 1, .push (sampleEvent 2 100),
          .read 1 1, .push (sampleEvent 3 100), .read 1 1] = some final ∧
      Bounded (sampleLimits 1000) 400 final ∧ Replayed none final := by
  obtain ⟨final, ran, bounded, replayed⟩ :=
    @activityRing_run Unit sampleToVec sampleAllocation
      (sampleLimits 1000) 2 1000 _ rfl (by decide) rfl none
      [.push (sampleEvent 1 100), .read 1 1, .push (sampleEvent 2 100),
        .read 1 1, .push (sampleEvent 3 100), .read 1 1]
  refine ⟨_, final, rfl, ran, bounded, replayed ?_⟩
  simp [pushedBy, RingEvent.Before, RingEvent.sequence, sampleEvent]

/-- Under the largest byte limit the counter saturates before the limit is
passed, and is no longer the sum of the charges.  A sealed event never charges
as much as these two. -/
theorem activityRing_saturates :
    ∃ ring final,
      RingLimits.new 2 18446744073709551615 = .ok (sampleLimits 18446744073709551615) ∧
      ActivityRing.new sampleAllocation (sampleLimits 18446744073709551615) = .ok ring ∧
      (Capture.start ring none).run
        [.push (sampleEvent 1 9223372036854775808),
          .push (sampleEvent 2 9223372036854775808)] = some final ∧
      final.ring.chargedBytes ≠
        final.ring.backingBytes + chargeOf final.ring.entries := by
  refine ⟨_, _, rfl, rfl, rfl, ?_⟩
  decide

end Ratspeak.Activity
