import Ratspeak.Delivery.Recovery

/-!
# A recovery ends, and not too early

A pending recovery keeps the time of its first request, so that the deadline
comes whatever is requested again.  Where a drop was observed, the recovery is
done only after a snapshot that began later, unless it is cancelled, started
over or given up.
-/

namespace Ratspeak.Delivery

open Library

namespace LxmfManager

/-! ## What a poll does to one entry -/

/-- The entry after its answer is received. -/
def receivedEntry (pending : PendingPathRecovery) (look : Look) :
    Option PendingPathRecovery :=
  match look.received with
  | .value outcome =>
      if outcome.pathDropped ∨ !outcome.hasPath then
        some { pending with
          reply := false
          awaitingSnapshot := some look.observedAt }
      else none
  | .empty => some { pending with reply := true }
  | .closed => none

/-- The entry after its turn of a poll. -/
def polledEntry (snapshot : Instant) (pending : PendingPathRecovery)
    (look : Look) : Option PendingPathRecovery :=
  if look.elapsedAt - pending.startedAt ≥ recoveryWaitLimit then none
  else
    match pending.awaitingSnapshot with
    | some started => if snapshot > started then none else some pending
    | none =>
        if pending.reply ∨ look.admitted = none then
          receivedEntry pending look
        else if look.admitted = some .full then some pending
        else none

theorem receive_self (state : LxmfManager) (dest : Destination)
    (pending : PendingPathRecovery) (look : Look) :
    (state.receive dest pending look).pendingPathRecoveries.lookup dest =
      receivedEntry pending look := by
  unfold receive receivedEntry
  cases look.received with
  | value outcome =>
      dsimp only
      split
      · simp [setPending]
      · simp [removePending]
  | empty => simp [setPending]
  | closed => simp [removePending]

theorem poll_self {state : LxmfManager} {dest : Destination}
    {pending : PendingPathRecovery} (look : Look)
    (known : state.pendingPathRecoveries.lookup dest = some pending) :
    (state.pollPathRecovery dest look).pendingPathRecoveries.lookup dest =
      polledEntry state.routeSnapshotStarted pending look := by
  unfold pollPathRecovery polledEntry
  rw [known]
  dsimp only
  by_cases expired : look.elapsedAt - pending.startedAt ≥ recoveryWaitLimit
  · rw [if_pos expired, if_pos expired]
    simp [removePending, removeRoute, needRefresh]
  · rw [if_neg expired, if_neg expired]
    cases pending.awaitingSnapshot with
    | some started =>
        dsimp only
        split
        · simp [removePending]
        · exact known
    | none =>
        dsimp only
        cases reply : pending.reply with
        | true =>
            rw [if_pos rfl, if_pos (Or.inl rfl)]
            exact receive_self state dest pending look
        | false =>
            rw [if_neg (by decide)]
            cases admitted : look.admitted with
            | none =>
                rw [if_pos (Or.inr rfl)]
                exact receive_self state dest pending look
            | some error =>
                cases error with
                | full => simp [known]
                | closed => simp [removePending]

/-! ## What a poll leaves alone -/

/-- What the polls and requests for other destinations do not touch. -/
structure Spares (state after : LxmfManager) (dest : Destination) : Prop where
  entry : after.pendingPathRecoveries.lookup dest = state.pendingPathRecoveries.lookup dest
  route : after.routeEntries.lookup dest = state.routeEntries.lookup dest

theorem Spares.trans {first second third : LxmfManager} {dest : Destination}
    (one : Spares first second dest) (other : Spares second third dest) :
    Spares first third dest :=
  ⟨other.entry.trans one.entry, other.route.trans one.route⟩

theorem spares_setPending (state : LxmfManager) {dest other : Destination}
    (pending : PendingPathRecovery) (differ : other ≠ dest) :
    Spares state (state.setPending dest pending) other :=
  ⟨by simp [setPending, differ], rfl⟩

theorem spares_removePending (state : LxmfManager) {dest other : Destination}
    (differ : other ≠ dest) :
    Spares state (state.removePending dest) other :=
  ⟨by simp [removePending, differ], rfl⟩

theorem spares_removeRoute (state : LxmfManager) {dest other : Destination}
    (differ : other ≠ dest) : Spares state (state.removeRoute dest) other :=
  ⟨rfl, by simp [removeRoute, differ]⟩

theorem spares_needRefresh (state : LxmfManager) (dest : Destination) :
    Spares state state.needRefresh dest :=
  ⟨rfl, rfl⟩

theorem spares_receive (state : LxmfManager) {dest other : Destination}
    (pending : PendingPathRecovery) (look : Look) (differ : other ≠ dest) :
    Spares state (state.receive dest pending look) other := by
  unfold receive
  cases look.received with
  | value outcome =>
      dsimp only
      split
      · exact ((spares_removeRoute state differ).trans
          (spares_needRefresh _ other)).trans (spares_setPending _ _ differ)
      · exact (spares_needRefresh state other).trans
          (spares_removePending state.needRefresh differ)
  | empty => exact spares_setPending state _ differ
  | closed =>
      exact (spares_needRefresh state other).trans
        (spares_removePending state.needRefresh differ)

theorem spares_poll (state : LxmfManager) {dest other : Destination}
    (look : Look) (differ : other ≠ dest) :
    Spares state (state.pollPathRecovery dest look) other := by
  have same : Spares state state other := ⟨rfl, rfl⟩
  unfold pollPathRecovery
  cases state.pendingPathRecoveries.lookup dest with
  | none => exact same
  | some pending =>
      dsimp only
      split
      · exact ((spares_removePending state differ).trans
          (spares_removeRoute (state.removePending dest) differ)).trans
            (spares_needRefresh _ other)
      · split
        · split
          · exact spares_removePending state differ
          · exact same
        · split
          · exact spares_receive state pending look differ
          · split
            · exact spares_receive state pending look differ
            · exact same
            · exact spares_removePending state differ

/-- What no turn of a poll changes. -/
structure Steady (state after : LxmfManager) : Prop where
  snapshot : after.routeSnapshotStarted = state.routeSnapshotStarted
  messages : after.pendingOutbound = state.pendingOutbound
  recovers : after.pathRecovery = state.pathRecovery
  fewer : ∀ dest,
    (state.pendingPathRecoveries.lookup dest) = none →
      after.pendingPathRecoveries.lookup dest = none
  uncached : ∀ dest, state.routeEntries.lookup dest = none →
    after.routeEntries.lookup dest = none

theorem Steady.refl (state : LxmfManager) : Steady state state :=
  ⟨rfl, rfl, rfl, fun _ absent => absent, fun _ absent => absent⟩

theorem Steady.trans {first second third : LxmfManager}
    (one : Steady first second) (other : Steady second third) :
    Steady first third where
  snapshot := other.snapshot.trans one.snapshot
  messages := other.messages.trans one.messages
  recovers := other.recovers.trans one.recovers
  fewer := fun dest absent => other.fewer dest (one.fewer dest absent)
  uncached := fun dest absent => other.uncached dest (one.uncached dest absent)

theorem steady_setPending {state : LxmfManager} {dest : Destination}
    (known : (state.pendingPathRecoveries.lookup dest).isSome = true)
    (pending : PendingPathRecovery) :
    Steady state (state.setPending dest pending) where
  snapshot := rfl
  messages := rfl
  recovers := rfl
  fewer := by
    intro other absent
    have differ : other ≠ dest := by
      intro same
      rw [← same, absent] at known
      cases known
    simp [setPending, differ, absent]
  uncached := fun _ absent => absent

theorem steady_removePending (state : LxmfManager) (dest : Destination) :
    Steady state (state.removePending dest) where
  snapshot := rfl
  messages := rfl
  recovers := rfl
  fewer := by
    intro other absent
    by_cases same : other = dest
    · simp [removePending, same]
    · simp [removePending, same, absent]
  uncached := fun _ absent => absent

theorem steady_removeRoute (state : LxmfManager) (dest : Destination) :
    Steady state (state.removeRoute dest) where
  snapshot := rfl
  messages := rfl
  recovers := rfl
  fewer := fun _ absent => absent
  uncached := by
    intro other absent
    by_cases same : other = dest
    · simp [removeRoute, same]
    · simp [removeRoute, same, absent]

theorem steady_needRefresh (state : LxmfManager) :
    Steady state state.needRefresh :=
  ⟨rfl, rfl, rfl, fun _ absent => absent, fun _ absent => absent⟩

theorem steady_receive {state : LxmfManager} {dest : Destination}
    (known : (state.pendingPathRecoveries.lookup dest).isSome = true)
    (pending : PendingPathRecovery) (look : Look) :
    Steady state (state.receive dest pending look) := by
  unfold receive
  cases look.received with
  | value outcome =>
      dsimp only
      split
      · have stillKnown : ((state.removeRoute
            dest).needRefresh.pendingPathRecoveries.lookup dest).isSome = true :=
          known
        exact ((steady_removeRoute state dest).trans
          (steady_needRefresh (state.removeRoute dest))).trans (steady_setPending stillKnown _)
      · exact (steady_needRefresh state).trans (steady_removePending state.needRefresh dest)
  | empty => exact steady_setPending known _
  | closed =>
      exact (steady_needRefresh state).trans (steady_removePending state.needRefresh dest)

theorem steady_poll (state : LxmfManager) (dest : Destination)
    (look : Look) : Steady state (state.pollPathRecovery dest look) := by
  unfold pollPathRecovery
  cases known : state.pendingPathRecoveries.lookup dest with
  | none => exact Steady.refl state
  | some pending =>
      have isKnown : (state.pendingPathRecoveries.lookup dest).isSome =
          true := by
        rw [known]
        rfl
      dsimp only
      split
      · exact ((steady_removePending state dest).trans
          (steady_removeRoute (state.removePending dest) dest)).trans (steady_needRefresh _)
      · split
        · split
          · exact steady_removePending state dest
          · exact Steady.refl state
        · split
          · exact steady_receive isKnown pending look
          · split
            · exact steady_receive isKnown pending look
            · exact Steady.refl state
            · exact steady_removePending state dest

/-! ## Whole polls -/

theorem steady_looks (looks : List (Destination × Look)) :
    ∀ state : LxmfManager, Steady state
      (looks.foldl
        (fun state look => state.pollPathRecovery look.1 look.2) state) := by
  induction looks with
  | nil =>
      intro state
      exact Steady.refl state
  | cons look rest ih =>
      intro state
      exact (steady_poll state look.1 look.2).trans (ih (state.pollPathRecovery look.1 look.2))

/-- A destination that is not looked at. -/
theorem spares_looks {dest : Destination} (looks : List (Destination × Look)) :
    ∀ state : LxmfManager, dest ∉ looks.map Prod.fst →
      Spares state
        (looks.foldl (fun state look => state.pollPathRecovery look.1 look.2) state)
        dest := by
  induction looks with
  | nil =>
      intro state _
      exact ⟨rfl, rfl⟩
  | cons look rest ih =>
      intro state unseen
      rw [List.map_cons, List.mem_cons, not_or] at unseen
      exact (spares_poll state look.2 unseen.1).trans
        (ih (state.pollPathRecovery look.1 look.2) unseen.2)

/-- One turn among the others of a poll. -/
theorem looks_split {dest : Destination} {look : Look} {looks : List (Destination × Look)}
    (distinct : (looks.map Prod.fst).Nodup) (seen : (dest, look) ∈ looks)
    (state : LxmfManager) :
    ∃ before after : LxmfManager, Steady state before ∧
      Spares state before dest ∧
      Steady (before.pollPathRecovery dest look) after ∧
      Spares (before.pollPathRecovery dest look) after dest ∧
      looks.foldl (fun state look => state.pollPathRecovery look.1 look.2)
        state = after := by
  obtain ⟨first, last, rfl⟩ := List.append_of_mem seen
  rw [List.map_append, List.map_cons] at distinct
  have unseenLast : dest ∉ last.map Prod.fst :=
    (List.nodup_cons.mp distinct.of_append_right).1
  have unseenFirst : dest ∉ first.map Prod.fst := fun inside =>
    (List.nodup_append.mp distinct).2.2 dest inside dest List.mem_cons_self rfl
  refine ⟨_, _, steady_looks first state, spares_looks first state unseenFirst,
    steady_looks last _, spares_looks last _ unseenLast, ?_⟩
  rw [List.foldl_append, List.foldl_cons]

theorem polled {state : LxmfManager} {looks : List (Destination × Look)}
    {dest : Destination} {look : Look} {pending : PendingPathRecovery}
    (recovers : state.pathRecovery = true)
    (distinct : (looks.map Prod.fst).Nodup) (seen : (dest, look) ∈ looks)
    (known : state.pendingPathRecoveries.lookup dest = some pending) :
    (state.pollPathRecoveries looks).pendingPathRecoveries.lookup dest =
      polledEntry state.routeSnapshotStarted pending look := by
  obtain ⟨before, after, steady, spared, _, untouched, whole⟩ :=
    looks_split distinct seen state
  have stillKnown : before.pendingPathRecoveries.lookup dest =
      some pending := by
    rw [spared.entry, known]
  rw [pollPathRecoveries, if_pos recovers, whole, untouched.entry,
    poll_self look stillKnown, steady.snapshot]

theorem steady_pollPathRecoveries (state : LxmfManager) (looks : List (Destination × Look)) :
    Steady state (state.pollPathRecoveries looks) := by
  unfold pollPathRecoveries
  split
  · exact steady_looks looks state
  · exact Steady.refl state

end LxmfManager

open LxmfManager

/-! ## The time of the first request -/

theorem startedAt_receivedEntry {pending after : PendingPathRecovery}
    {look : Look} (received : receivedEntry pending look = some after) :
    after.startedAt = pending.startedAt := by
  unfold receivedEntry at received
  split at received
  · split at received
    · cases received
      rfl
    · cases received
  · cases received
    rfl
  · cases received

theorem startedAt_polledEntry {snapshot : Instant}
    {pending after : PendingPathRecovery} {look : Look}
    (stays : polledEntry snapshot pending look = some after) :
    after.startedAt = pending.startedAt := by
  unfold polledEntry at stays
  split at stays
  · cases stays
  · split at stays
    · split at stays
      · cases stays
      · cases stays
        rfl
    · split at stays
      · exact startedAt_receivedEntry stays
      · split at stays
        · cases stays
          rfl
        · cases stays

theorem startedAt_coalesce (pending : PendingPathRecovery) (failedAttempt : Option Attempt) :
    (coalesce pending failedAttempt).startedAt = pending.startedAt := by
  unfold coalesce
  split
  · rfl
  · rfl

/-- The recovery that is pending for a destination. -/
def Observed.pending (observed : Observed) (dest : Destination) :
    Option PendingPathRecovery :=
  observed.manager.pendingPathRecoveries.lookup dest

/-- What one step can make of a pending recovery. -/
inductive Becomes (observed : Observed) (dest : Destination)
    (pending : PendingPathRecovery) (moment : Moment) :
    Option PendingPathRecovery → Prop
  /-- Nothing happens to it. -/
  | stays : Becomes observed dest pending moment (some pending)
  /-- A request joins it. -/
  | joined (failedAttempt : Option Attempt) (mailboxTakes : Bool)
      (admitted : Admission)
      (event : moment.event = .request dest failedAttempt mailboxTakes admitted) :
      Becomes observed dest pending moment (some (coalesce pending failedAttempt))
  /-- It has its turn in a poll. -/
  | polled (looks : List (Destination × Look)) (look : Look)
      (event : moment.event = .poll looks) (seen : (dest, look) ∈ looks) :
      Becomes observed dest pending moment
        (polledEntry observed.manager.routeSnapshotStarted pending look)
  /-- No message is left for its destination. -/
  | cancelled (left : List OutboundMessage)
      (event : moment.event = .retire left)
      (unwanted : ∀ message ∈ left, message.destinationHash ≠ dest) :
      Becomes observed dest pending moment none
  | replaced (event : moment.event = .replaceTransport) :
      Becomes observed dest pending moment none

/-- A manager without a transport has nothing pending. -/
structure Reachable (observed : Observed) : Prop where
  bounded : observed.manager.pendingPathRecoveries.keys.length ≤ maxPendingRecoveries
  idle : observed.manager.pathRecovery = false → ∀ dest, observed.pending dest = none
  past : observed.manager.routeSnapshotStarted ≤ observed.clock

theorem becomes_step {observed : Observed} {moment : Moment}
    (reachable : Reachable observed) (timely : Timely observed moment)
    {dest : Destination} {pending : PendingPathRecovery}
    (known : observed.pending dest = some pending) :
    Becomes observed dest pending moment
      ((observed.step moment).pending dest) := by
  have recovers : observed.manager.pathRecovery = true := by
    by_contra idle
    have absent := reachable.idle (Bool.eq_false_iff.mpr idle) dest
    rw [known] at absent
    cases absent
  obtain ⟨_, timely⟩ := timely
  obtain ⟨instant, event⟩ := moment
  cases event with
  | request other failedAttempt mailboxTakes admitted =>
      by_cases same : other = dest
      · subst same
        have result : (observed.step ⟨instant, .request other failedAttempt
            mailboxTakes admitted⟩).pending other =
              some (coalesce pending failedAttempt) := by
          have found : observed.manager.pendingPathRecoveries.lookup other =
              some pending :=
            known
          simp [Observed.step, Observed.pending, LxmfManager.step,
            requestPathAttemptRecovery, recovers, found, setPending]
        rw [result]
        exact .joined failedAttempt mailboxTakes admitted rfl
      · have differ : dest ≠ other := fun equal => same equal.symm
        have result : (observed.step ⟨instant, .request other failedAttempt
            mailboxTakes admitted⟩).pending dest = some pending := by
          rw [← known]
          unfold Observed.step Observed.pending LxmfManager.step requestPathAttemptRecovery
          dsimp only
          rw [recovers, if_neg (by decide)]
          split
          · exact (spares_setPending observed.manager _ differ).entry
          · split
            · rfl
            · exact (spares_setPending observed.manager _ differ).entry
        rw [result]
        exact .stays
  | poll looks =>
      obtain ⟨visits, _⟩ := timely
      have inside : dest ∈ observed.manager.pendingPathRecoveries.keys := by
        rw [FiniteMap.mem_keys_iff]
        exact ⟨pending, known⟩
      obtain ⟨⟨found, look⟩, seen, same⟩ :=
        List.mem_map.mp (visits.mem_iff.mpr inside)
      subst same
      have distinct : (looks.map Prod.fst).Nodup :=
        visits.nodup_iff.mpr observed.manager.pendingPathRecoveries.keys_nodup
      have result := polled recovers distinct seen known
      rw [show (observed.step ⟨instant, .poll looks⟩).pending found = _ from result]
      exact .polled looks look rfl seen
  | hold now =>
      rw [show (observed.step ⟨instant, .hold now⟩).pending dest = some pending from known]
      exact .stays
  | routes entries started =>
      have result : (observed.step ⟨instant, .routes entries started⟩).pending
          dest = some pending := by
        rw [← known]
        unfold Observed.step Observed.pending LxmfManager.step replaceRoutesObservedAt
        dsimp only
        split
        · rfl
        · rfl
      rw [result]
      exact .stays
  | takeRefresh =>
      rw [show (observed.step ⟨instant, .takeRefresh⟩).pending dest = some pending from known]
      exact .stays
  | replaceTransport => exact .replaced rfl
  | retire left =>
      have found : observed.manager.pendingPathRecoveries.lookup dest =
          some pending :=
        known
      have result : (observed.step ⟨instant, .retire left⟩).pending dest =
          (some pending).filter fun _ =>
            left.any fun message => message.destinationHash = dest := by
        rw [← found]
        exact FiniteMap.lookup_retain _ _ dest
      rw [result, Option.filter_some]
      split
      · exact .stays
      · rename_i unwanted
        refine .cancelled left rfl fun message inside same => unwanted ?_
        rw [List.any_eq_true]
        exact ⟨message, inside, decide_eq_true same⟩
  | outbound messages =>
      rw [show (observed.step ⟨instant, .outbound messages⟩).pending dest =
        some pending from known]
      exact .stays

/-! ## What holds at every time -/

theorem reachable_new (created : Instant) :
    Reachable ⟨created, LxmfManager.new created⟩ where
  bounded := Nat.zero_le maxPendingRecoveries
  idle := fun _ _ => rfl
  past := Nat.le_refl created

/-- A request is all that adds a recovery. -/
theorem fewer_step (observed : Observed) (moment : Moment)
    (noRequest : ∀ dest failedAttempt mailboxTakes admitted,
      moment.event ≠ .request dest failedAttempt mailboxTakes admitted)
    {dest : Destination} (absent : observed.pending dest = none) :
    (observed.step moment).pending dest = none := by
  obtain ⟨instant, event⟩ := moment
  cases event with
  | request other failedAttempt mailboxTakes admitted =>
      exact absurd rfl (noRequest other failedAttempt mailboxTakes admitted)
  | poll looks =>
      exact (steady_pollPathRecoveries observed.manager looks).fewer dest absent
  | hold now => exact absent
  | routes entries started =>
      rw [← absent]
      unfold Observed.step Observed.pending LxmfManager.step replaceRoutesObservedAt
      dsimp only
      split
      · rfl
      · rfl
  | takeRefresh => exact absent
  | replaceTransport => rfl
  | retire left =>
      have found : observed.manager.pendingPathRecoveries.lookup dest =
          none :=
        absent
      have result : (observed.step ⟨instant, .retire left⟩).pending dest =
          (observed.manager.pendingPathRecoveries.lookup dest).filter fun _ =>
            left.any fun message => message.destinationHash = dest :=
        FiniteMap.lookup_retain _ _ dest
      rw [result, found]
      rfl
  | outbound messages => exact absent

theorem bounded_request (state : LxmfManager) (dest : Destination)
    (failedAttempt : Option Attempt) (mailboxTakes : Bool)
    (admitted : Admission) (now : Instant)
    (bounded : state.pendingPathRecoveries.keys.length ≤ maxPendingRecoveries) :
    (state.requestPathAttemptRecovery dest failedAttempt mailboxTakes
      admitted now).pendingPathRecoveries.keys.length ≤
        maxPendingRecoveries := by
  unfold requestPathAttemptRecovery
  split
  · split
    · exact bounded
    · exact bounded
  · split
    · rename_i pending known
      have fewer : ∀ key, state.pendingPathRecoveries.lookup key = none →
          (state.setPending dest
            (coalesce pending failedAttempt)).pendingPathRecoveries.lookup
              key = none := by
        intro key absent
        have differ : key ≠ dest := by
          intro same
          rw [same, known] at absent
          cases absent
        simp [setPending, differ, absent]
      exact Nat.le_trans (FiniteMap.length_keys_le fewer) bounded
    · rename_i absent
      split
      · exact bounded
      · rename_i room
        rw [setPending, FiniteMap.length_keys_insert_of_new _ absent]
        omega

theorem snapshot_step (observed : Observed) {moment : Moment}
    (reachable : Reachable observed) (timely : Timely observed moment) :
    observed.manager.routeSnapshotStarted ≤
        (observed.step moment).manager.routeSnapshotStarted ∧
      (observed.step moment).manager.routeSnapshotStarted ≤
        moment.instant := by
  obtain ⟨later, timely⟩ := timely
  have past : observed.manager.routeSnapshotStarted ≤ moment.instant :=
    Nat.le_trans reachable.past later
  obtain ⟨instant, event⟩ := moment
  cases event with
  | request dest failedAttempt mailboxTakes admitted =>
      have same : (observed.step ⟨instant, .request dest failedAttempt
          mailboxTakes admitted⟩).manager.routeSnapshotStarted =
            observed.manager.routeSnapshotStarted := by
        unfold Observed.step LxmfManager.step requestPathAttemptRecovery
        dsimp only
        split
        · split
          · rfl
          · rfl
        · split
          · rfl
          · split
            · rfl
            · rfl
      rw [same]
      exact ⟨Nat.le_refl _, past⟩
  | poll looks =>
      have same := (steady_pollPathRecoveries observed.manager looks).snapshot
      rw [show (observed.step ⟨instant,
        .poll looks⟩).manager.routeSnapshotStarted = _ from same]
      exact ⟨Nat.le_refl _, past⟩
  | hold now => exact ⟨Nat.le_refl _, past⟩
  | routes entries started =>
      unfold Observed.step LxmfManager.step replaceRoutesObservedAt
      dsimp only
      split
      · exact ⟨Nat.le_refl _, past⟩
      · rename_i newer
        exact ⟨Nat.le_of_not_lt newer, timely⟩
  | takeRefresh => exact ⟨Nat.le_refl _, past⟩
  | replaceTransport => exact ⟨past, Nat.le_refl instant⟩
  | retire left => exact ⟨Nat.le_refl _, past⟩
  | outbound messages => exact ⟨Nat.le_refl _, past⟩

theorem recovers_step (observed : Observed) (moment : Moment)
    (idle : (observed.step moment).manager.pathRecovery = false) :
    observed.manager.pathRecovery = false := by
  obtain ⟨instant, event⟩ := moment
  cases event with
  | request dest failedAttempt mailboxTakes admitted =>
      rw [← idle]
      unfold Observed.step LxmfManager.step requestPathAttemptRecovery
      dsimp only
      split
      · split
        · rfl
        · rfl
      · split
        · rfl
        · split
          · rfl
          · rfl
  | poll looks =>
      rw [← idle]
      exact (steady_pollPathRecoveries observed.manager looks).recovers.symm
  | hold now => exact idle
  | routes entries started =>
      rw [← idle]
      unfold Observed.step LxmfManager.step replaceRoutesObservedAt
      dsimp only
      split
      · rfl
      · rfl
  | takeRefresh => exact idle
  | replaceTransport => cases idle
  | retire left => exact idle
  | outbound messages => exact idle

theorem Reachable.step {observed : Observed} {moment : Moment}
    (reachable : Reachable observed) (timely : Timely observed moment) :
    Reachable (observed.step moment) := by
  have past := (snapshot_step observed reachable timely).2
  by_cases requests : ∃ dest failedAttempt mailboxTakes admitted,
      moment.event = .request dest failedAttempt mailboxTakes admitted
  · obtain ⟨dest, failedAttempt, mailboxTakes, admitted, event⟩ := requests
    refine ⟨?_, fun idle other => ?_, past⟩
    · rw [Observed.step, event]
      exact bounded_request observed.manager dest failedAttempt mailboxTakes
        admitted moment.instant reachable.bounded
    · have wasIdle := recovers_step observed moment idle
      have absent := reachable.idle wasIdle other
      rw [← absent, Observed.step, event]
      unfold Observed.pending LxmfManager.step requestPathAttemptRecovery
      dsimp only
      rw [wasIdle, Bool.not_false, if_pos rfl]
      split
      · rfl
      · rfl
  · have noRequest : ∀ dest failedAttempt mailboxTakes admitted,
        moment.event ≠ .request dest failedAttempt mailboxTakes admitted :=
      fun dest failedAttempt mailboxTakes admitted event =>
        requests ⟨dest, failedAttempt, mailboxTakes, admitted, event⟩
    refine ⟨?_, fun idle other => ?_, past⟩
    · have fewer := FiniteMap.length_keys_le fun dest absent =>
        fewer_step observed moment noRequest absent
      exact Nat.le_trans fewer reachable.bounded
    · exact fewer_step observed moment noRequest
        (reachable.idle (recovers_step observed moment idle) other)

theorem reachable_run {observed : Observed} {moments : List Moment}
    (reachable : Reachable observed) (timely : Along Observed.step Timely observed moments) :
    Reachable (runFrom Observed.step observed moments) :=
  invariant_runFrom Reachable
    (fun _ _ reachable timely => reachable.step timely) reachable timely

/-! ## The deadline -/

/-- The recovery is still pending after the step. -/
def StillPending (dest : Destination) (observed : Observed) (moment : Moment) : Prop :=
  ((observed.step moment).pending dest).isSome = true

/-- The time of the first request stays. -/
theorem startedAt_step {observed : Observed} {moment : Moment}
    (reachable : Reachable observed) (timely : Timely observed moment)
    {dest : Destination} {pending after : PendingPathRecovery}
    (known : observed.pending dest = some pending)
    (stays : (observed.step moment).pending dest = some after) :
    after.startedAt = pending.startedAt := by
  have becomes := becomes_step reachable timely known
  rw [stays] at becomes
  generalize result : some after = later at becomes
  cases becomes with
  | stays =>
      cases result
      rfl
  | joined failedAttempt mailboxTakes admitted event =>
      cases result
      exact startedAt_coalesce pending failedAttempt
  | polled looks look event seen => exact startedAt_polledEntry result.symm
  | cancelled left event unwanted => cases result
  | replaced event => cases result

theorem startedAt_run {dest : Destination} (moments : List Moment) :
    ∀ {observed : Observed} {pending : PendingPathRecovery},
      Reachable observed →
      Along Observed.step Timely observed moments →
      Along Observed.step (StillPending dest) observed moments →
      observed.pending dest = some pending →
      ∃ after,
        (runFrom Observed.step observed moments).pending dest = some after ∧
          after.startedAt = pending.startedAt := by
  induction moments with
  | nil =>
      intro observed pending _ _ _ known
      exact ⟨pending, known, rfl⟩
  | cons moment rest ih =>
      intro observed pending reachable timely still known
      obtain ⟨next, stays⟩ := Option.isSome_iff_exists.mp still.1
      obtain ⟨after, final, same⟩ := ih (reachable.step timely.1) timely.2 still.2 stays
      exact ⟨after, final, same.trans (startedAt_step reachable timely.1 known stays)⟩

/-- A poll after the limit gives the recovery up. -/
theorem expired_poll {observed : Observed} {moment : Moment}
    (reachable : Reachable observed) (timely : Timely observed moment)
    {looks : List (Destination × Look)} (event : moment.event = .poll looks)
    {dest : Destination} {look : Look} (seen : (dest, look) ∈ looks)
    {pending : PendingPathRecovery} (known : observed.pending dest = some pending)
    (expired : pending.startedAt + recoveryWaitLimit ≤ look.elapsedAt) :
    (observed.step moment).pending dest = none := by
  have recovers : observed.manager.pathRecovery = true := by
    by_contra idle
    have absent := reachable.idle (Bool.eq_false_iff.mpr idle) dest
    rw [known] at absent
    cases absent
  have visits : (looks.map Prod.fst).Perm
      observed.manager.pendingPathRecoveries.keys := by
    have all := timely.2
    rw [event] at all
    exact all.1
  have distinct : (looks.map Prod.fst).Nodup :=
    visits.nodup_iff.mpr observed.manager.pendingPathRecoveries.keys_nodup
  have result := polled recovers distinct seen known
  have late : look.elapsedAt - pending.startedAt ≥ recoveryWaitLimit :=
    Nat.le_sub_of_add_le' expired
  rw [polledEntry, if_pos late] at result
  rw [Observed.step, event]
  exact result

/-! ## Drops and snapshots -/

/-- The poll observes that the route of a recovery was dropped, or that there
is none. -/
structure ObservesDrop (observed : Observed) (dest : Destination)
    (look : Look) (pending : PendingPathRecovery) : Prop where
  known : observed.pending dest = some pending
  inTime : look.elapsedAt < pending.startedAt + recoveryWaitLimit
  notYet : pending.awaitingSnapshot = none
  admitted : pending.reply = true ∨ look.admitted = none
  reported : ∃ outcome, look.received = .value outcome ∧
    (outcome.pathDropped = true ∨ outcome.hasPath = false)

/-- The entry after a drop was observed. -/
def afterDrop (pending : PendingPathRecovery) (look : Look) :
    PendingPathRecovery :=
  { pending with
    reply := false
    awaitingSnapshot := some look.observedAt }

theorem ObservesDrop.early {observed : Observed} {dest : Destination}
    {look : Look} {pending : PendingPathRecovery}
    (drops : ObservesDrop observed dest look pending) :
    ¬look.elapsedAt - pending.startedAt ≥ recoveryWaitLimit := by
  intro late
  have limit : 0 < recoveryWaitLimit := by decide
  have after : pending.startedAt < look.elapsedAt :=
    Nat.lt_of_sub_pos (Nat.lt_of_lt_of_le limit late)
  have due : pending.startedAt + recoveryWaitLimit ≤ look.elapsedAt :=
    Nat.add_le_of_le_sub' (Nat.le_of_lt after) late
  exact Nat.not_lt_of_le due drops.inTime

theorem ObservesDrop.polledEntry {observed : Observed} {dest : Destination}
    {look : Look} {pending : PendingPathRecovery}
    (drops : ObservesDrop observed dest look pending) (snapshot : Instant) :
    LxmfManager.polledEntry snapshot pending look =
      some (afterDrop pending look) := by
  obtain ⟨outcome, received, lost⟩ := drops.reported
  have gone : outcome.pathDropped = true ∨ (!outcome.hasPath) = true := by
    rcases lost with dropped | noPath
    · exact Or.inl dropped
    · exact Or.inr (by rw [noPath]; rfl)
  rw [LxmfManager.polledEntry, if_neg drops.early, drops.notYet]
  dsimp only
  rw [if_pos drops.admitted, receivedEntry, received]
  dsimp only
  rw [if_pos gone]
  rfl

/-- The observation removes the route. -/
theorem ObservesDrop.route {observed : Observed} {dest : Destination}
    {look : Look} {pending : PendingPathRecovery}
    (drops : ObservesDrop observed dest look pending) (state : LxmfManager)
    (known : state.pendingPathRecoveries.lookup dest = some pending) :
    (state.pollPathRecovery dest look).routeEntries.lookup dest = none := by
  obtain ⟨outcome, received, lost⟩ := drops.reported
  have gone : outcome.pathDropped = true ∨ (!outcome.hasPath) = true := by
    rcases lost with dropped | noPath
    · exact Or.inl dropped
    · exact Or.inr (by rw [noPath]; rfl)
  have removed : (state.receive dest pending look).routeEntries.lookup
      dest = none := by
    rw [receive, received]
    dsimp only
    rw [if_pos gone]
    simp [setPending, needRefresh, removeRoute]
  rw [pollPathRecovery, known]
  dsimp only
  rw [if_neg drops.early, drops.notYet]
  dsimp only
  rcases drops.admitted with replies | admits
  · rw [if_pos replies]
    exact removed
  · rw [admits]
    split
    · exact removed
    · exact removed

/-- A poll that observes a drop. -/
theorem drop_step {observed : Observed} {moment : Moment}
    (reachable : Reachable observed) (timely : Timely observed moment)
    {looks : List (Destination × Look)} (event : moment.event = .poll looks)
    {dest : Destination} {look : Look} (seen : (dest, look) ∈ looks)
    {pending : PendingPathRecovery} (drops : ObservesDrop observed dest look pending) :
    (observed.step moment).pending dest = some (afterDrop pending look) ∧
      (observed.step moment).manager.routeEntries.lookup dest = none := by
  have recovers : observed.manager.pathRecovery = true := by
    by_contra idle
    have absent := reachable.idle (Bool.eq_false_iff.mpr idle) dest
    rw [drops.known] at absent
    cases absent
  have visits : (looks.map Prod.fst).Perm
      observed.manager.pendingPathRecoveries.keys := by
    have all := timely.2
    rw [event] at all
    exact all.1
  have distinct : (looks.map Prod.fst).Nodup :=
    visits.nodup_iff.mpr observed.manager.pendingPathRecoveries.keys_nodup
  constructor
  · have result := polled recovers distinct seen drops.known
    rw [drops.polledEntry] at result
    rw [Observed.step, event]
    exact result
  · obtain ⟨before, after, _, spared, _, untouched, whole⟩ :=
      looks_split distinct seen observed.manager
    have known : before.pendingPathRecoveries.lookup dest = some pending :=
      spared.entry.trans drops.known
    have result : (observed.manager.pollPathRecoveries
        looks).routeEntries.lookup dest = none := by
      rw [pollPathRecoveries, if_pos recovers, whole, untouched.route]
      exact drops.route before known
    rw [Observed.step, event]
    exact result

/-- A snapshot that arrives is older than the last one. -/
def NoSnapshot (observed : Observed) (moment : Moment) : Prop :=
  ∀ entries started, moment.event = .routes entries started →
    started < observed.manager.routeSnapshotStarted

theorem uncached_step {observed : Observed} {moment : Moment}
    (noSnapshot : NoSnapshot observed moment) {dest : Destination}
    (uncached : observed.manager.routeEntries.lookup dest = none) :
    (observed.step moment).manager.routeEntries.lookup dest = none := by
  obtain ⟨instant, event⟩ := moment
  cases event with
  | request other failedAttempt mailboxTakes admitted =>
      rw [← uncached]
      unfold Observed.step LxmfManager.step requestPathAttemptRecovery
      dsimp only
      split
      · split
        · rfl
        · rfl
      · split
        · rfl
        · split
          · rfl
          · rfl
  | poll looks =>
      exact (steady_pollPathRecoveries observed.manager looks).uncached dest uncached
  | hold now => exact uncached
  | routes entries started =>
      have older := noSnapshot entries started rfl
      rw [← uncached]
      unfold Observed.step LxmfManager.step replaceRoutesObservedAt
      dsimp only
      rw [if_pos older]
  | takeRefresh => exact uncached
  | replaceTransport => rfl
  | retire left => exact uncached
  | outbound messages => exact uncached

/-- A request names another failed attempt than the pending recovery. -/
def Supersedes (dest : Destination) (observed : Observed) (moment : Moment) : Prop :=
  ∃ failedAttempt mailboxTakes admitted pending,
    moment.event = .request dest failedAttempt mailboxTakes admitted ∧
    observed.pending dest = some pending ∧
    failedAttempt.isSome = true ∧ pending.failedAttempt ≠ failedAttempt

/-- The recovery goes on and is not started over. -/
def Waits (dest : Destination) (observed : Observed) (moment : Moment) : Prop :=
  StillPending dest observed moment ∧ ¬Supersedes dest observed moment

/-- A recovery that waits for a snapshot is not touched. -/
theorem waiting_step {observed : Observed} {moment : Moment}
    (reachable : Reachable observed) (timely : Timely observed moment)
    {dest : Destination} {pending : PendingPathRecovery}
    (known : observed.pending dest = some pending) {dropped : Instant}
    (awaits : pending.awaitingSnapshot = some dropped) (waits : Waits dest observed moment) :
    (observed.step moment).pending dest = some pending := by
  obtain ⟨still, notOver⟩ := waits
  have becomes := becomes_step reachable timely known
  unfold StillPending at still
  generalize result : (observed.step moment).pending dest = later at still becomes
  cases becomes with
  | stays => rfl
  | joined failedAttempt mailboxTakes admitted event =>
      have same : coalesce pending failedAttempt = pending := by
        unfold coalesce
        split
        · rename_i other
          exact absurd ⟨failedAttempt, mailboxTakes, admitted, pending, event,
            known, other.1, other.2⟩ notOver
        · rfl
      rw [same]
  | polled looks look event seen =>
      unfold LxmfManager.polledEntry at still ⊢
      split
      · rename_i expired
        rw [if_pos expired] at still
        cases still
      · rename_i early
        rw [if_neg early, awaits] at still
        rw [awaits]
        dsimp only at still ⊢
        split
        · rename_i newer
          rw [if_pos newer] at still
          cases still
        · rfl
  | cancelled left event unwanted => cases still
  | replaced event => cases still

theorem waiting_run {dest : Destination} {pending : PendingPathRecovery}
    {dropped : Instant} (awaits : pending.awaitingSnapshot = some dropped)
    (moments : List Moment) :
    ∀ {observed : Observed}, Reachable observed →
      Along Observed.step Timely observed moments →
      Along Observed.step (Waits dest) observed moments →
      observed.pending dest = some pending →
      (runFrom Observed.step observed moments).pending dest =
        some pending := by
  induction moments with
  | nil =>
      intro observed _ _ _ known
      exact known
  | cons moment rest ih =>
      intro observed reachable timely waits known
      exact ih (reachable.step timely.1) timely.2 waits.2
        (waiting_step reachable timely.1 known awaits waits.1)

/-- Where the start of the last snapshot comes from. -/
theorem snapshot_origin (observed : Observed) (moment : Moment) :
    (observed.step moment).manager.routeSnapshotStarted =
        observed.manager.routeSnapshotStarted ∨
      moment.event = .replaceTransport ∨
      ∃ entries, moment.event = .routes entries
        (observed.step moment).manager.routeSnapshotStarted := by
  obtain ⟨instant, event⟩ := moment
  cases event with
  | request other failedAttempt mailboxTakes admitted =>
      refine Or.inl ?_
      unfold Observed.step LxmfManager.step requestPathAttemptRecovery
      dsimp only
      split
      · split
        · rfl
        · rfl
      · split
        · rfl
        · split
          · rfl
          · rfl
  | poll looks =>
      exact Or.inl (steady_pollPathRecoveries observed.manager looks).snapshot
  | hold now => exact Or.inl rfl
  | routes entries started =>
      unfold Observed.step LxmfManager.step replaceRoutesObservedAt
      dsimp only
      split
      · exact Or.inl rfl
      · exact Or.inr (Or.inr ⟨entries, rfl⟩)
  | takeRefresh => exact Or.inl rfl
  | replaceTransport => exact Or.inr (Or.inl rfl)
  | retire left => exact Or.inl rfl
  | outbound messages => exact Or.inl rfl

/-- A later snapshot was installed in the run. -/
def SnapshotAfter (dropped : Instant) (moments : List Moment) : Prop :=
  ∃ moment ∈ moments, ∃ entries started,
    moment.event = .routes entries started ∧ dropped < started

theorem snapshotAfter_run {dest : Destination} {dropped : Instant} (moments : List Moment) :
    ∀ {observed : Observed},
      Along Observed.step (StillPending dest) observed moments →
      observed.manager.routeSnapshotStarted ≤ dropped →
      dropped < (runFrom Observed.step observed moments).manager.routeSnapshotStarted →
      SnapshotAfter dropped moments := by
  induction moments with
  | nil =>
      intro observed _ before after
      exact absurd after (Nat.not_lt_of_le before)
  | cons moment rest ih =>
      intro observed still before after
      by_cases reached : (observed.step moment).manager.routeSnapshotStarted ≤ dropped
      · obtain ⟨found, member, rest⟩ :=
          ih still.2 reached after
        exact ⟨found, List.mem_cons_of_mem moment member, rest⟩
      · rcases snapshot_origin observed moment with same | replaced | routes
        · rw [same] at reached
          exact absurd before reached
        · have gone := still.1
          rw [StillPending, Observed.step, replaced] at gone
          cases gone
        · obtain ⟨entries, event⟩ := routes
          exact ⟨moment, List.mem_cons_self, entries, _, event, Nat.lt_of_not_le reached⟩

/-! ## Messages -/

/-- The messages, with the attempts that they have used. -/
def attempts (messages : List OutboundMessage) : List (Destination × Nat) :=
  messages.map fun message =>
    (message.destinationHash, message.deliveryAttempts)

theorem attempts_step (observed : Observed) (moment : Moment)
    (kept : ∀ left, moment.event ≠ .retire left)
    (others : ∀ messages, moment.event ≠ .outbound messages) :
    attempts (observed.step moment).manager.pendingOutbound =
      attempts observed.manager.pendingOutbound := by
  obtain ⟨instant, event⟩ := moment
  cases event with
  | request dest failedAttempt mailboxTakes admitted =>
      unfold Observed.step LxmfManager.step requestPathAttemptRecovery
      dsimp only
      split
      · split
        · rfl
        · rfl
      · split
        · rfl
        · split
          · rfl
          · rfl
  | poll looks =>
      have same :=
        (steady_pollPathRecoveries observed.manager looks).messages
      exact congrArg attempts same
  | hold now =>
      unfold Observed.step LxmfManager.step holdMessagesForPathRecovery
      dsimp only
      rw [attempts, attempts, List.map_map]
      refine List.map_congr_left fun message _ => ?_
      dsimp only [Function.comp_apply]
      split
      · rfl
      · rfl
  | routes entries started =>
      unfold Observed.step LxmfManager.step replaceRoutesObservedAt
      dsimp only
      split
      · rfl
      · rfl
  | takeRefresh => rfl
  | replaceTransport => rfl
  | retire left => exact absurd rfl (kept left)
  | outbound messages => exact absurd rfl (others messages)

/-- What is held is not due. -/
theorem held_later (state : LxmfManager) (now : Int) {message : OutboundMessage}
    (inside : message ∈ (state.holdMessagesForPathRecovery now).pendingOutbound)
    (pending : (state.pendingPathRecoveries.lookup message.destinationHash).isSome = true) :
    now < message.nextDeliveryAttempt := by
  obtain ⟨before, _, rfl⟩ := List.mem_map.mp inside
  by_cases due : (state.pendingPathRecoveries.lookup
      before.destinationHash).isSome = true ∧ before.nextDeliveryAttempt ≤ now
  · rw [if_pos due]
    dsimp only
    omega
  · rw [if_neg due] at pending ⊢
    by_contra notLater
    exact due ⟨pending, Int.not_lt.mp notLater⟩

/-! ## Whole runs -/

/-- How a recovery that waits for a snapshot may end. -/
def Concludes (dest : Destination) (pending : PendingPathRecovery)
    (dropped : Instant) (moments : List Moment) (last : Moment) : Prop :=
  (∃ left, last.event = .retire left ∧
      ∀ message ∈ left, message.destinationHash ≠ dest) ∨
    last.event = .replaceTransport ∨
    (∃ looks look, last.event = .poll looks ∧ (dest, look) ∈ looks ∧
      pending.startedAt + recoveryWaitLimit ≤ look.elapsedAt) ∨
    ((∃ looks, last.event = .poll looks) ∧ SnapshotAfter dropped moments)

/-- What holds of the recoveries from some time on. -/
structure Recovers (observed : Observed) : Prop where
  bounded : observed.manager.pendingPathRecoveries.keys.length ≤ maxPendingRecoveries
  /-- A recovery that is pending ever since its first request is given up by
  the first poll after the limit. -/
  deadline : ∀ dest requested failedAttempt mailboxTakes admitted,
    requested.event = .request dest failedAttempt mailboxTakes admitted →
    Timely observed requested → observed.pending dest = none →
    StillPending dest observed requested →
    ∀ moments, Along Observed.step Timely (observed.step requested) moments →
      Along Observed.step (StillPending dest) (observed.step requested) moments →
      ∀ polled looks look, polled.event = .poll looks →
        Timely (runFrom Observed.step (observed.step requested) moments) polled →
        (dest, look) ∈ looks →
        requested.instant + recoveryWaitLimit ≤ look.elapsedAt →
        ((runFrom Observed.step (observed.step requested)
          moments).step polled).pending dest = none
  /-- After a drop is observed, the recovery ends as it may, unless it is
  started over. -/
  concluded : ∀ dest polled looks look pending,
    polled.event = .poll looks → Timely observed polled →
    (dest, look) ∈ looks → ObservesDrop observed dest look pending →
    ∀ moments, Along Observed.step Timely (observed.step polled) moments →
      Along Observed.step (Waits dest) (observed.step polled) moments →
      ∀ last, Timely (runFrom Observed.step (observed.step polled) moments)
          last →
        ((runFrom Observed.step (observed.step polled) moments).step last).pending dest = none →
        Concludes dest pending look.observedAt moments last
  /-- And no route is known until a snapshot is installed. -/
  uncached : ∀ dest polled looks look pending,
    polled.event = .poll looks → Timely observed polled →
    (dest, look) ∈ looks → ObservesDrop observed dest look pending →
    ∀ moments,
      Along Observed.step NoSnapshot (observed.step polled) moments →
      (runFrom Observed.step (observed.step polled)
        moments).manager.routeEntries.lookup dest = none
  /-- A snapshot that is older than one that arrived before is ignored. -/
  ordered : ∀ newer entries started,
    newer.event = .routes entries started → Timely observed newer →
    ∀ moments, Along Observed.step Timely (observed.step newer) moments →
      ∀ older others earlier, older.event = .routes others earlier →
        earlier < started →
        ((runFrom Observed.step (observed.step newer) moments).step
          older).manager = (runFrom Observed.step (observed.step newer) moments).manager
  /-- Only the router itself uses attempts, and what is held is not due. -/
  held : ∀ moment,
    ((∀ left, moment.event ≠ .retire left) →
      (∀ messages, moment.event ≠ .outbound messages) →
      attempts (observed.step moment).manager.pendingOutbound =
        attempts observed.manager.pendingOutbound) ∧
    ∀ now, moment.event = .hold now →
      ∀ message ∈ (observed.step moment).manager.pendingOutbound,
        (observed.pending message.destinationHash).isSome = true →
        now < message.nextDeliveryAttempt

/-- A recovery begins at its first request. -/
theorem startedAt_request {observed : Observed} {dest : Destination}
    {requested : Moment} {failedAttempt : Option Attempt}
    {mailboxTakes : Bool} {admitted : Admission} (event : requested.event =
      .request dest failedAttempt mailboxTakes admitted)
    (absent : observed.pending dest = none) {pending : PendingPathRecovery}
    (known : (observed.step requested).pending dest = some pending) :
    pending.startedAt = requested.instant := by
  rw [Observed.step, event] at known
  unfold Observed.pending LxmfManager.step requestPathAttemptRecovery at known
  have missing : observed.manager.pendingPathRecoveries.lookup dest = none :=
    absent
  dsimp only at known
  rw [missing] at known
  dsimp only at known
  split at known
  · split at known
    · dsimp only at known
      rw [missing] at known
      cases known
    · rw [missing] at known
      cases known
  · split at known
    · rw [missing] at known
      cases known
    · rw [setPending, FiniteMap.lookup_insert_ite, if_pos rfl] at known
      cases known
      rfl

theorem deadline_of_reachable {observed : Observed}
    (reachable : Reachable observed) {dest : Destination}
    {requested : Moment} {failedAttempt : Option Attempt}
    {mailboxTakes : Bool} {admitted : Admission} (event : requested.event =
      .request dest failedAttempt mailboxTakes admitted)
    (timely : Timely observed requested) (absent : observed.pending dest = none)
    (present : StillPending dest observed requested) {moments : List Moment}
    (times : Along Observed.step Timely (observed.step requested) moments)
    (still : Along Observed.step (StillPending dest) (observed.step requested) moments)
    {polled : Moment} {looks : List (Destination × Look)} {look : Look}
    (polls : polled.event = .poll looks)
    (inTime : Timely (runFrom Observed.step (observed.step requested) moments) polled)
    (seen : (dest, look) ∈ looks)
    (late : requested.instant + recoveryWaitLimit ≤ look.elapsedAt) :
    ((runFrom Observed.step (observed.step requested) moments).step
      polled).pending dest = none := by
  have begun := reachable.step timely
  obtain ⟨first, known⟩ := Option.isSome_iff_exists.mp present
  obtain ⟨pending, final, same⟩ := startedAt_run moments begun times still known
  refine expired_poll (reachable_run begun times) inTime polls seen final ?_
  rw [same, startedAt_request event absent known]
  exact late

theorem concluded_of_reachable {observed : Observed}
    (reachable : Reachable observed) {dest : Destination} {polled : Moment}
    {looks : List (Destination × Look)} {look : Look}
    {pending : PendingPathRecovery} (polls : polled.event = .poll looks)
    (timely : Timely observed polled) (seen : (dest, look) ∈ looks)
    (drops : ObservesDrop observed dest look pending) {moments : List Moment}
    (times : Along Observed.step Timely (observed.step polled) moments)
    (waits : Along Observed.step (Waits dest) (observed.step polled) moments) {last : Moment}
    (lastTime : Timely (runFrom Observed.step (observed.step polled) moments) last)
    (ends : ((runFrom Observed.step (observed.step polled) moments).step
      last).pending dest = none) :
    Concludes dest pending look.observedAt moments last := by
  have begun := reachable.step timely
  obtain ⟨entry, _⟩ := drop_step reachable timely polls seen drops
  have awaits : (afterDrop pending look).awaitingSnapshot =
      some look.observedAt :=
    rfl
  have waiting := waiting_run awaits moments begun times waits entry
  have becomes := becomes_step (reachable_run begun times) lastTime waiting
  rw [ends] at becomes
  generalize result : (none : Option PendingPathRecovery) = later at becomes
  cases becomes with
  | stays => cases result
  | joined failedAttempt mailboxTakes admitted event => cases result
  | polled others turn event turned =>
      unfold LxmfManager.polledEntry at result
      split at result
      · rename_i expired
        refine Or.inr (Or.inr (Or.inl ⟨others, turn, event, turned, ?_⟩))
        have limit : 0 < recoveryWaitLimit := by decide
        have after : pending.startedAt < turn.elapsedAt :=
          Nat.lt_of_sub_pos (Nat.lt_of_lt_of_le limit expired)
        exact Nat.add_le_of_le_sub' (Nat.le_of_lt after) expired
      · rw [awaits] at result
        dsimp only at result
        split at result
        · rename_i newer
          have still := Along.mono (fun _ _ wait => wait.1) waits
          have before : (observed.step polled).manager.routeSnapshotStarted ≤
              look.observedAt := by
            have same : (observed.step polled).manager.routeSnapshotStarted =
                observed.manager.routeSnapshotStarted := by
              rw [Observed.step, polls]
              exact (steady_pollPathRecoveries observed.manager looks).snapshot
            have times := timely.2
            rw [polls] at times
            obtain ⟨started, elapsed, _⟩ := times.2 (dest, look) seen
            rw [same]
            exact Nat.le_trans reachable.past (Nat.le_trans started elapsed)
          exact Or.inr (Or.inr (Or.inr
            ⟨⟨others, event⟩, snapshotAfter_run moments still before newer⟩))
        · cases result
  | cancelled left event unwanted => exact Or.inl ⟨left, event, unwanted⟩
  | replaced event => exact Or.inr (Or.inl event)

theorem uncached_run {dest : Destination} (moments : List Moment) :
    ∀ {observed : Observed},
      Along Observed.step NoSnapshot observed moments →
      observed.manager.routeEntries.lookup dest = none →
      (runFrom Observed.step observed moments).manager.routeEntries.lookup
        dest = none := by
  intro observed noSnapshot uncached
  exact invariant_runFrom
    (fun observed : Observed =>
      observed.manager.routeEntries.lookup dest = none)
    (fun _ _ uncached noSnapshot => uncached_step noSnapshot uncached)
    uncached noSnapshot

theorem snapshot_run (moments : List Moment) :
    ∀ {observed : Observed}, Reachable observed →
      Along Observed.step Timely observed moments →
      observed.manager.routeSnapshotStarted ≤
        (runFrom Observed.step observed
          moments).manager.routeSnapshotStarted := by
  induction moments with
  | nil =>
      intro observed _ _
      exact Nat.le_refl _
  | cons moment rest ih =>
      intro observed reachable timely
      exact Nat.le_trans (snapshot_step observed reachable timely.1).1
        (ih (reachable.step timely.1) timely.2)

theorem ordered_of_reachable {observed : Observed}
    (reachable : Reachable observed) {newer : Moment}
    {entries : List PathTableEntry} {started : Instant}
    (event : newer.event = .routes entries started)
    (timely : Timely observed newer) {moments : List Moment}
    (times : Along Observed.step Timely (observed.step newer) moments)
    {older : Moment} {others : List PathTableEntry} {earlier : Instant}
    (olderEvent : older.event = .routes others earlier) (before : earlier < started) :
    ((runFrom Observed.step (observed.step newer) moments).step
      older).manager =
        (runFrom Observed.step (observed.step newer) moments).manager := by
  have atLeast : started ≤
      (observed.step newer).manager.routeSnapshotStarted := by
    rw [Observed.step, event]
    unfold LxmfManager.step replaceRoutesObservedAt
    dsimp only
    split
    · rename_i ignored
      exact Nat.le_of_lt ignored
    · exact Nat.le_refl started
  have later := snapshot_run moments (reachable.step timely) times
  have ignored : earlier < (runFrom Observed.step (observed.step newer)
      moments).manager.routeSnapshotStarted :=
    Nat.lt_of_lt_of_le before (Nat.le_trans atLeast later)
  rw [Observed.step, olderEvent]
  unfold LxmfManager.step replaceRoutesObservedAt
  dsimp only
  rw [if_pos ignored]

theorem recovers_of_reachable {observed : Observed}
    (reachable : Reachable observed) : Recovers observed where
  bounded := reachable.bounded
  deadline := by
    intro dest requested failedAttempt mailboxTakes admitted event timely
      absent present moments times still polled looks look polls inTime seen
      late
    exact deadline_of_reachable reachable event timely absent present times
      still polls inTime seen late
  concluded := by
    intro dest polled looks look pending polls timely seen drops moments times
      waits last lastTime ends
    exact concluded_of_reachable reachable polls timely seen drops times waits lastTime ends
  uncached := by
    intro dest polled looks look pending polls timely seen drops moments noSnapshot
    exact uncached_run moments noSnapshot (drop_step reachable timely polls seen drops).2
  ordered := by
    intro newer entries started event timely moments times older others
      earlier olderEvent before
    exact ordered_of_reachable reachable event timely times olderEvent before
  held := by
    intro moment
    refine ⟨attempts_step observed moment, ?_⟩
    intro now event message inside pending
    rw [Observed.step, event] at inside
    exact held_later observed.manager now inside pending

/-- In every run, from the creation of the manager on, recoveries are few, end
in time and not too early, and cost no attempts. -/
theorem pathRecovery_run (created : Instant) (moments : List Moment)
    (timely : Along Observed.step Timely ⟨created, LxmfManager.new created⟩ moments) :
    Recovers (runFrom Observed.step ⟨created, LxmfManager.new created⟩ moments) :=
  recovers_of_reachable (reachable_run (reachable_new created) timely)

/-! ## A recovery that is started over -/

private def someone : Destination := Bytes.replicate 16 0x46

private def firstLink : Attempt := .link (Bytes.replicate 16 0x01)

private def secondLink : Attempt := .link (Bytes.replicate 16 0x02)

private def drops : Look where
  elapsedAt := 3
  admitted := none
  received := .value ⟨true, true⟩
  observedAt := 3

private def keepsPath : Look where
  elapsedAt := 5
  admitted := none
  received := .value ⟨true, false⟩
  observedAt := 5

/-- A drop is observed for the first link. -/
private def untilDrop : List Moment :=
  [⟨1, .replaceTransport⟩, ⟨2, .request someone (some firstLink) true none⟩,
    ⟨3, .poll [(someone, drops)]⟩]

/-- Another link fails while the recovery waits. -/
private def startedOver : List Moment :=
  untilDrop ++
    [⟨4, .request someone (some secondLink) true none⟩, ⟨5, .poll [(someone, keepsPath)]⟩]

/-- A snapshot from before the drop arrives, and the message is cancelled. -/
private def outdated : List Moment :=
  untilDrop ++ [⟨4, .routes [⟨someone, 1⟩] 2⟩, ⟨5, .retire []⟩]

private def begun : Observed := ⟨0, LxmfManager.new 0⟩

private theorem startedOver_timely :
    Along Observed.step Timely begun startedOver := by
  decide +kernel

/-- A run in which another link fails while a recovery waits. -/
theorem pathRecovery_run_startedOver :
    Recovers (runFrom Observed.step begun startedOver) :=
  pathRecovery_run 0 startedOver startedOver_timely

private theorem startedOver_ends :
    ((runFrom Observed.step begun untilDrop).pending someone).map
        PendingPathRecovery.awaitingSnapshot = some (some 3) ∧
      ((runFrom Observed.step begun startedOver).pending someone).isNone =
        true := by
  decide +kernel

private theorem outdated_timely :
    Along Observed.step Timely begun outdated := by
  decide +kernel

private theorem outdated_cached :
    (runFrom Observed.step begun outdated).manager.routeEntries.lookup
        someone = some ⟨someone, 1⟩ ∧
      ((runFrom Observed.step begun outdated).pending someone).isNone =
        true := by
  decide +kernel

/-- A recovery whose route was dropped ends without any snapshot once another
link fails, and a snapshot from before the drop brings the old route back. -/
theorem pathRecovery_ends_early :
    (Along Observed.step Timely begun startedOver ∧
      ((runFrom Observed.step begun untilDrop).pending someone).map
        PendingPathRecovery.awaitingSnapshot = some (some 3) ∧
      ((runFrom Observed.step begun startedOver).pending someone).isNone = true ∧
      ∀ moment ∈ startedOver, ∀ entries started, moment.event ≠ .routes entries started) ∧
    Along Observed.step Timely begun outdated ∧
      (runFrom Observed.step begun outdated).manager.routeEntries.lookup
        someone = some ⟨someone, 1⟩ ∧
      ((runFrom Observed.step begun outdated).pending someone).isNone =
        true := by
  refine ⟨⟨startedOver_timely, startedOver_ends.1, startedOver_ends.2, ?_⟩,
    outdated_timely, outdated_cached⟩
  intro moment member entries started event
  simp only [startedOver, untilDrop, List.cons_append, List.nil_append,
    List.mem_cons, List.not_mem_nil, or_false] at member
  rcases member with rfl | rfl | rfl | rfl | rfl
  · cases event
  · cases event
  · cases event
  · cases event
  · cases event

end Ratspeak.Delivery
