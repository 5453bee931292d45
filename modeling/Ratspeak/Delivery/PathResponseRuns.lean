import Ratspeak.Delivery.PathResponse

/-!
# Runs of the pending path responses

Whatever the shared state does between any two readings, the queue stays
bounded and free of duplicates, no deadline moves, and a request is sent at
most once, and only where the checks after the build have found it in time and
the session, the identity, the runtime and the revision unchanged.
-/

namespace Ratspeak.Delivery

open Library

variable {Message : Type}

/-! ## One turn -/

/-- A request without what its turns change. -/
def PendingResponse.bare (request : PendingResponse Message) :
    PendingResponse Message :=
  { request with nextAttempt := 0, message := none }

/-- A turn has the message from an earlier one, or builds it. -/
def Provides (readings : ServiceReadings Message)
    (request : PendingResponse Message) (message : Message)
    (revision : AnnounceRevision) : Prop :=
  request.message = some (message, revision) ∨
    (readings.builder.build request.attachedInterface request.tag =
        .ok message ∧
      revision = readings.revision.revision)

/-- What the checks after the build have found. -/
structure Checked (readings : ServiceReadings Message)
    (sessionShutdown : Nat) (now : Instant)
    (request : PendingResponse Message) (revision : AnnounceRevision) :
    Prop where
  session : readings.again.triggered sessionShutdown = false
  runtime : readings.again.triggered request.runtimeShutdown = false
  identity : readings.again.identitySession = request.identityGeneration
  transport : ∃ manager, readings.again.manager = some manager ∧
    manager.transport = request.transport
  inTime : max now readings.again.instant < request.expires
  quiet : readings.epochAgain.switchEpoch = readings.epoch.switchEpoch
  unchanged : revision = readings.revisionAgain.revision

theorem isCurrent_iff {request : PendingResponse Message} {state : SharedState Message} :
    request.isCurrent state = true ↔
      state.triggered request.runtimeShutdown = false ∧
        state.channelClosed request.transport = false ∧
        state.identitySession = request.identityGeneration ∧
        ∃ manager, state.manager = some manager ∧
          manager.transport = request.transport := by
  unfold PendingResponse.isCurrent
  simp [Option.any_eq_true, and_assoc]

/-- What a turn may do to a request. -/
def TurnSpec (readings : ServiceReadings Message) (sessionShutdown : Nat)
    (now : Instant) (request : PendingResponse Message) :
    Turn Message → Prop
  | .dropped => True
  | .kept later =>
      later.bare = request.bare ∧
        ∀ message revision, later.message = some (message, revision) →
          Provides readings request message revision
  | .sent later message revision =>
      later.bare = request.bare ∧
        Provides readings request message revision ∧
        Checked readings sessionShutdown now request revision

theorem deliver_spec {readings : ServiceReadings Message}
    {sessionShutdown : Nat} {now : Instant}
    {request : PendingResponse Message} {message : Message} {revision : AnnounceRevision}
    (provides : Provides readings request message revision) :
    TurnSpec readings sessionShutdown now request
      (deliver readings sessionShutdown now request message revision) := by
  have same : ∀ other otherRevision, some (message, revision) =
      some (other, otherRevision) →
      Provides readings request other otherRevision := by
    intro other otherRevision equal
    cases equal
    exact provides
  unfold deliver
  by_cases stale : (readings.again.triggered sessionShutdown ||
      !({ request with message := some (message, revision) } :
        PendingResponse Message).isCurrent readings.again ||
      decide (request.expires ≤ max now readings.again.instant)) = true
  · dsimp only
    rw [if_pos stale]
    trivial
  · dsimp only
    rw [if_neg stale]
    by_cases moved : readings.epochAgain.switchEpoch ≠ readings.epoch.switchEpoch
    · rw [if_pos moved]
      exact ⟨rfl, same⟩
    · rw [if_neg moved]
      by_cases changed : revision ≠ readings.revisionAgain.revision
      · rw [if_pos changed]
        trivial
      · rw [if_neg changed]
        cases readings.sending.trySend request.transport with
        | closed => trivial
        | full => exact ⟨rfl, same⟩
        | queued =>
            simp only [Bool.or_eq_true, not_or, Bool.not_eq_true,
              Bool.not_eq_true', Bool.not_eq_false, decide_eq_true_eq,
              Nat.not_le] at stale
            obtain ⟨⟨session, current⟩, inTime⟩ := stale
            obtain ⟨runtime, _, identity, transport⟩ :=
              isCurrent_iff.mp current
            exact ⟨rfl, provides, session, runtime, identity, transport,
              inTime, not_not.mp moved, not_not.mp changed⟩

theorem turn_spec (readings : ServiceReadings Message)
    (sessionShutdown : Nat) (now : Instant) (request : PendingResponse Message) :
    TurnSpec readings sessionShutdown now request
      (turn readings sessionShutdown now request) := by
  have waits : ∀ instant, TurnSpec readings sessionShutdown now request
      (.kept (request.deferred instant)) := by
    intro instant
    exact ⟨rfl, fun message revision built => Or.inl built⟩
  unfold turn
  by_cases stale : (readings.first.triggered sessionShutdown ||
      !request.isCurrent readings.first) = true
  · rw [if_pos stale]
    trivial
  · rw [if_neg stale]
    by_cases expired : request.expires ≤ now
    · rw [if_pos expired]
      trivial
    · rw [if_neg expired]
      by_cases early : now < request.nextAttempt
      · rw [if_pos early]
        exact ⟨rfl, fun message revision built => Or.inl built⟩
      · rw [if_neg early]
        by_cases switching : readings.epoch.switchEpoch % 2 ≠ 0
        · rw [if_pos switching]
          exact waits _
        · rw [if_neg switching]
          cases earlier : request.message with
          | some built =>
              obtain ⟨message, revision⟩ := built
              exact deliver_spec (Or.inl earlier)
          | none =>
              cases made : readings.builder.build request.attachedInterface request.tag with
              | ok message => exact deliver_spec (Or.inr ⟨made, rfl⟩)
              | error error =>
                  cases error with
                  | coalesced => exact waits _
                  | busy => exact waits _
                  | failed => trivial

variable {readings : PendingResponse Message → ServiceReadings Message}
  {sessionShutdown : Nat} {now : Instant}

theorem keptOf_spec {request later : PendingResponse Message}
    (kept : keptOf readings sessionShutdown now request = some later) :
    later.bare = request.bare ∧
      ∀ message revision, later.message = some (message, revision) →
        Provides (readings request) request message revision := by
  have spec := turn_spec (readings request) sessionShutdown now request
  unfold keptOf at kept
  cases outcome : turn (readings request) sessionShutdown now request with
  | dropped =>
      rw [outcome] at kept
      cases kept
  | kept other =>
      rw [outcome] at kept spec
      cases kept
      exact spec
  | sent other message revision =>
      rw [outcome] at kept
      cases kept

theorem sentOf_spec {request : PendingResponse Message} {sent : SentResponse Message}
    (isSent : sentOf readings sessionShutdown now request = some sent) :
    sent.request.bare = request.bare ∧
      Provides (readings request) request sent.message sent.revision ∧
      sent.readings = readings request ∧
      Checked sent.readings sent.sessionShutdown sent.now request sent.revision ∧
      keptOf readings sessionShutdown now request = none := by
  have spec := turn_spec (readings request) sessionShutdown now request
  unfold sentOf at isSent
  unfold keptOf
  cases outcome : turn (readings request) sessionShutdown now request with
  | dropped =>
      rw [outcome] at isSent
      cases isSent
  | kept other =>
      rw [outcome] at isSent
      cases isSent
  | sent other message revision =>
      rw [outcome] at isSent spec
      cases isSent
      exact ⟨spec.1, spec.2.1, rfl, spec.2.2, rfl⟩

/-- A pass gives each request one turn, in order. -/
theorem serviceRounds_eq (front back : List (PendingResponse Message))
    (sent : List (SentResponse Message)) :
    serviceRounds readings sessionShutdown now front.length (front ++ back)
        sent =
      (back ++ front.filterMap (keptOf readings sessionShutdown now),
        sent ++ front.filterMap (sentOf readings sessionShutdown now)) := by
  induction front generalizing back sent with
  | nil => simp [serviceRounds]
  | cons request front ih =>
      rw [List.length_cons, List.cons_append, serviceRounds,
        List.append_assoc, ih, List.filterMap_cons,
        List.filterMap_cons]
      cases keptOf readings sessionShutdown now request with
      | none => cases sentOf readings sessionShutdown now request <;> simp
      | some later => cases sentOf readings sessionShutdown now request <;> simp

theorem service_eq (requests : List (PendingResponse Message)) :
    service readings sessionShutdown now requests =
      (requests.filterMap (keptOf readings sessionShutdown now),
        requests.filterMap (sentOf readings sessionShutdown now)) := by
  have whole := @serviceRounds_eq Message readings sessionShutdown now requests [] []
  rw [List.append_nil] at whole
  exact whole

/-! ## Runs -/

/-- A call of one of the two functions, with all that it reads. -/
inductive AnswerOp (Message : Type) where
  | admitRequest (readings : AdmitReadings Message)
      (attachedInterface : Option Nat) (tag : Option (List UInt8))
      (now : Instant)
  | service (readings : PendingResponse Message → ServiceReadings Message)
      (sessionShutdown : Nat) (now : Instant)

/-- A request as it was admitted. -/
structure AdmittedRequest (Message : Type) where
  request : PendingResponse Message
  admittedAt : Instant

/-- The queue, and what has happened: the requests that were admitted, the
turns that they had, and what was sent. -/
structure Answering (Message : Type) where
  requests : List (PendingResponse Message)
  admitted : List (AdmittedRequest Message)
  turns : List (PendingResponse Message × ServiceReadings Message)
  sent : List (SentResponse Message)

def Answering.start : Answering Message :=
  { requests := [], admitted := [], turns := [], sent := [] }

def Answering.step (state : Answering Message) :
    AnswerOp Message → Answering Message
  | .admitRequest readings attachedInterface tag now =>
      let outcome := admitRequest readings state.admitted.length
        attachedInterface
        tag now state.requests
      { state with
        requests := outcome.1
        admitted := state.admitted ++
          (outcome.2.map fun request =>
            { request, admittedAt := now }).toList }
  | .service readings sessionShutdown now =>
      let outcome := service readings sessionShutdown now state.requests
      { state with
        requests := outcome.1
        turns := state.turns ++ state.requests.map fun request => (request, readings request)
        sent := state.sent ++ outcome.2 }

/-- A request is one that was admitted, apart from what its turns change. -/
def IsAdmitted (state : Answering Message) (request : PendingResponse Message) : Prop :=
  ∃ admission ∈ state.admitted, admission.request.bare = request.bare

/-- A message was built for a request in a turn that read the revision
before. -/
def IsBuilt (state : Answering Message) (request : PendingResponse Message)
    (message : Message) (revision : AnnounceRevision) : Prop :=
  ∃ turn ∈ state.turns, turn.1.bare = request.bare ∧
    turn.2.builder.build request.attachedInterface request.tag = .ok message ∧
    revision = turn.2.revision.revision

/-- The numbers of the admissions of the requests that are pending or have
been sent. -/
def Answering.numbers (state : Answering Message) : List Nat :=
  state.requests.map PendingResponse.admission ++
    state.sent.map fun sent => sent.request.admission

/-- What holds in every state of a run. -/
structure Orderly (state : Answering Message) : Prop where
  bounded : state.requests.length ≤ maxPending
  distinct : state.requests.Pairwise fun first second =>
    first.key ≠ second.key
  numbered : state.admitted.map (fun admission => admission.request.admission) =
    List.range state.admitted.length
  deadlines : ∀ admission ∈ state.admitted,
    admission.request.expires = admission.admittedAt + requestLifetime
  pending : ∀ request ∈ state.requests, IsAdmitted state request
  built : ∀ request ∈ state.requests, ∀ message revision,
    request.message = some (message, revision) → IsBuilt state request message revision
  once : state.numbers.Nodup
  sent : ∀ sent ∈ state.sent, IsAdmitted state sent.request ∧
    IsBuilt state sent.request sent.message sent.revision ∧
    Checked sent.readings sent.sessionShutdown sent.now sent.request sent.revision

theorem orderly_start : Orderly (Answering.start : Answering Message) := by
  refine ⟨Nat.zero_le _, List.Pairwise.nil, rfl, ?_, ?_, ?_, List.nodup_nil, ?_⟩
  · intro admission impossible
    cases impossible
  · intro request impossible
    cases impossible
  · intro request impossible
    cases impossible
  · intro sent impossible
    cases impossible

theorem admission_of_bare {first second : PendingResponse Message}
    (same : first.bare = second.bare) :
    first.admission = second.admission := by
  change first.bare.admission = second.bare.admission
  rw [same]

theorem key_of_bare {first second : PendingResponse Message}
    (same : first.bare = second.bare) : first.key = second.key := by
  change first.bare.key = second.bare.key
  rw [same]

/-! ### Admission -/

/-- What an admission does: it keeps the requests that are in time and
current, and may add one with another key. -/
structure AdmitSpec (readings : AdmitReadings Message) (number : Nat)
    (now : Instant) (before after : List (PendingResponse Message))
    (added : Option (PendingResponse Message)) : Prop where
  requests : after = retain readings now before ++ added.toList
  fresh : ∀ request ∈ added,
    request.admission = number ∧ request.expires = now + requestLifetime ∧
      request.message = none ∧
      (∀ other ∈ retain readings now before, other.key ≠ request.key) ∧
      (retain readings now before).length ≠ maxPending

theorem admit_spec (readings : AdmitReadings Message) (number : Nat)
    (attachedInterface : Option Nat) (tag : Option (List UInt8))
    (now : Instant) (requests : List (PendingResponse Message)) :
    AdmitSpec readings number now requests
      (admitRequest readings number attachedInterface tag now requests).1
      (admitRequest readings number attachedInterface tag now requests).2 := by
  have refused : AdmitSpec readings number now requests
      (retain readings now requests) none := by
    refine ⟨by simp, ?_⟩
    intro request impossible
    cases impossible
  unfold admitRequest
  dsimp only
  cases readings.manager.manager with
  | none => exact refused
  | some manager =>
      dsimp only
      generalize made : arriving readings manager number attachedInterface tag now = request
      by_cases duplicate : ((retain readings now requests).any fun other =>
          other.key == request.key) = true
      · rw [if_pos duplicate]
        exact refused
      · rw [if_neg duplicate]
        by_cases full : (retain readings now requests).length = maxPending
        · rw [if_pos full]
          exact refused
        · rw [if_neg full]
          refine ⟨rfl, ?_⟩
          intro other isIt
          cases isIt
          refine ⟨by rw [← made]; rfl, by rw [← made]; rfl,
            by rw [← made]; rfl, ?_, full⟩
          intro older among same
          refine duplicate (List.any_eq_true.mpr ⟨older, among, ?_⟩)
          exact beq_iff_eq.mpr same

theorem retain_sublist (readings : AdmitReadings Message) (now : Instant)
    (requests : List (PendingResponse Message)) :
    (retain readings now requests).Sublist requests :=
  List.filter_sublist

theorem Orderly.admission_lt {state : Answering Message}
    (orderly : Orderly state) : ∀ number ∈ state.numbers,
      number < state.admitted.length := by
  have small : ∀ request : PendingResponse Message,
      IsAdmitted state request → request.admission < state.admitted.length := by
    intro request ⟨admission, among, same⟩
    have member : admission.request.admission ∈
        List.range state.admitted.length := by
      rw [← orderly.numbered]
      exact List.mem_map_of_mem (f := fun admission : AdmittedRequest Message =>
        admission.request.admission) among
    rw [← admission_of_bare same]
    exact List.mem_range.mp member
  intro number among
  rcases List.mem_append.mp among with isPending | isSent
  · obtain ⟨request, pending, same⟩ := List.mem_map.mp isPending
    rw [← same]
    exact small request (orderly.pending request pending)
  · obtain ⟨sent, wasSent, same⟩ := List.mem_map.mp isSent
    rw [← same]
    exact small sent.request (orderly.sent sent wasSent).1

theorem IsAdmitted.mono {state next : Answering Message} {request : PendingResponse Message}
    (grown : ∀ admission ∈ state.admitted, admission ∈ next.admitted)
    (isAdmitted : IsAdmitted state request) : IsAdmitted next request := by
  obtain ⟨admission, among, same⟩ := isAdmitted
  exact ⟨admission, grown admission among, same⟩

theorem IsBuilt.mono {state next : Answering Message}
    {request : PendingResponse Message} {message : Message} {revision : AnnounceRevision}
    (grown : ∀ turn ∈ state.turns, turn ∈ next.turns)
    (isBuilt : IsBuilt state request message revision) :
    IsBuilt next request message revision := by
  obtain ⟨turn, among, same⟩ := isBuilt
  exact ⟨turn, grown turn among, same⟩

theorem Orderly.admitRequest {state : Answering Message} (orderly : Orderly state)
    (readings : AdmitReadings Message) (attachedInterface : Option Nat)
    (tag : Option (List UInt8)) (now : Instant) :
    Orderly
      (state.step (.admitRequest readings attachedInterface tag now)) := by
  have spec := admit_spec readings state.admitted.length attachedInterface
    tag now state.requests
  unfold Answering.step
  dsimp only
  generalize (Delivery.admitRequest readings state.admitted.length
    attachedInterface
    tag now state.requests).1 = after at spec ⊢
  generalize (Delivery.admitRequest readings state.admitted.length
    attachedInterface
    tag now state.requests).2 = added at spec ⊢
  have kept := retain_sublist readings now state.requests
  have requests := spec.requests
  subst requests
  have keptNumbers : ((retain readings now state.requests).map
      PendingResponse.admission ++
        state.sent.map fun sent => sent.request.admission).Nodup := by
    refine orderly.once.sublist ?_
    exact (kept.map PendingResponse.admission).append (List.Sublist.refl _)
  cases added with
  | none =>
      simp only [Option.map_none, Option.toList_none, List.append_nil]
      refine ⟨Nat.le_trans kept.length_le orderly.bounded,
        orderly.distinct.sublist kept, orderly.numbered, orderly.deadlines,
        ?_, ?_, keptNumbers, orderly.sent⟩
      · intro request among
        exact orderly.pending request (kept.subset among)
      · intro request among
        exact orderly.built request (kept.subset among)
  | some request =>
      obtain ⟨number, expires, unbuilt, differs, room⟩ :=
        spec.fresh request rfl
      simp only [Option.map_some, Option.toList_some]
      have grown : ∀ admission ∈ state.admitted, admission ∈
          state.admitted ++ [{ request, admittedAt := now }] :=
        fun _ among => List.mem_append_left _ among
      refine ⟨?_, ?_, ?_, ?_, ?_, ?_, ?_, ?_⟩
      · have most := Nat.le_trans kept.length_le orderly.bounded
        change (retain readings now state.requests ++ [request]).length ≤ maxPending
        rw [List.length_append, List.length_singleton]
        omega
      · refine List.pairwise_append.mpr ⟨orderly.distinct.sublist kept,
          List.pairwise_singleton _ _, ?_⟩
        intro other among last isLast
        rw [List.mem_singleton.mp isLast]
        exact differs other among
      · change (state.admitted ++ [_]).map _ = List.range (_ ++ [_]).length
        rw [List.map_append, orderly.numbered, List.length_append,
          List.length_singleton, List.range_succ, List.map_singleton, number]
      · intro admission among
        rcases List.mem_append.mp among with old | isNew
        · exact orderly.deadlines admission old
        · rw [List.mem_singleton.mp isNew]
          exact expires
      · intro other among
        rcases List.mem_append.mp among with old | isNew
        · exact (orderly.pending other (kept.subset old)).mono grown
        · rw [List.mem_singleton.mp isNew]
          exact ⟨_, List.mem_append_right _ (List.mem_singleton_self _), rfl⟩
      · intro other among message revision isBuilt
        rcases List.mem_append.mp among with old | isNew
        · exact orderly.built other (kept.subset old) message revision isBuilt
        · rw [List.mem_singleton.mp isNew, unbuilt] at isBuilt
          cases isBuilt
      · have unused : state.admitted.length ∉
            (retain readings now state.requests).map
              PendingResponse.admission ++
                state.sent.map fun sent => sent.request.admission := by
          intro used
          refine Nat.lt_irrefl _ (orderly.admission_lt _ ?_)
          exact ((kept.map PendingResponse.admission).append (List.Sublist.refl _)).subset used
        change ((retain readings now state.requests ++ [request]).map
          PendingResponse.admission ++ state.sent.map fun sent => sent.request.admission).Nodup
        rw [List.map_append, List.map_singleton, number, List.append_assoc]
        refine (List.perm_middle.nodup_iff).mpr ?_
        exact List.nodup_cons.mpr ⟨unused, keptNumbers⟩
      · intro sent among
        obtain ⟨isAdmitted, isBuilt, checked⟩ := orderly.sent sent among
        exact ⟨isAdmitted.mono grown, isBuilt, checked⟩

/-! ### Service -/

/-- What is made of some entries, each with the number of its entry, has a
part of their numbers. -/
theorem numbers_filterMap {Entry Made : Type} {made : Entry → Option Made}
    {number : Entry → Nat} {numberOf : Made → Nat} (same : ∀ entry one, made entry = some one →
      numberOf one = number entry) (entries : List Entry) :
    ((entries.filterMap made).map numberOf).Sublist (entries.map number) := by
  induction entries with
  | nil => exact List.Sublist.refl _
  | cons entry entries ih =>
      rw [List.filterMap_cons, List.map_cons]
      cases isMade : made entry with
      | none => exact ih.cons (number entry)
      | some one =>
          rw [List.map_cons, same entry one isMade]
          exact ih.cons_cons (number entry)

/-- What is pending after a pass was pending before. -/
theorem keptOf_number (request later : PendingResponse Message)
    (kept : keptOf readings sessionShutdown now request = some later) :
    later.admission = request.admission :=
  admission_of_bare (keptOf_spec kept).1

theorem sentOf_number (request : PendingResponse Message) (sent : SentResponse Message)
    (isSent : sentOf readings sessionShutdown now request = some sent) :
    sent.request.admission = request.admission :=
  admission_of_bare (sentOf_spec isSent).1

/-- No request is both kept and sent. -/
theorem kept_ne_sent {requests : List (PendingResponse Message)}
    (once : (requests.map PendingResponse.admission).Nodup)
    {later : PendingResponse Message} {sent : SentResponse Message} (isKept : later ∈
      requests.filterMap (keptOf readings sessionShutdown now))
    (isSent : sent ∈ requests.filterMap (sentOf readings sessionShutdown now)) :
    later.admission ≠ sent.request.admission := by
  obtain ⟨first, firstAmong, kept⟩ := List.mem_filterMap.mp isKept
  obtain ⟨second, secondAmong, sends⟩ := List.mem_filterMap.mp isSent
  intro same
  rw [keptOf_number first later kept, sentOf_number second sent sends] at same
  have equal := List.inj_on_of_nodup_map once firstAmong secondAmong same
  rw [equal, (sentOf_spec sends).2.2.2.2] at kept
  cases kept

theorem Provides.isBuilt {state : Answering Message}
    {request : PendingResponse Message} {message : Message} {revision : AnnounceRevision}
    {turns : List (PendingResponse Message × ServiceReadings Message)}
    (among : (request, readings request) ∈ turns) (earlier : ∀ message revision,
      request.message = some (message, revision) → IsBuilt state request message revision)
    (grown : ∀ turn ∈ state.turns, turn ∈ turns)
    (provides : Provides (readings request) request message revision) :
    ∃ turn ∈ turns, turn.1.bare = request.bare ∧
      turn.2.builder.build request.attachedInterface request.tag = .ok message ∧
      revision = turn.2.revision.revision := by
  rcases provides with old | ⟨made, same⟩
  · obtain ⟨turn, before, facts⟩ := earlier message revision old
    exact ⟨turn, grown turn before, facts⟩
  · exact ⟨_, among, rfl, made, same⟩

theorem IsBuilt.of_bare {state : Answering Message}
    {first second : PendingResponse Message} {message : Message}
    {revision : AnnounceRevision} (same : first.bare = second.bare)
    (isBuilt : IsBuilt state second message revision) :
    IsBuilt state first message revision := by
  obtain ⟨turn, among, isTurn, made, before⟩ := isBuilt
  have interface : first.attachedInterface = second.attachedInterface := by
    change first.bare.attachedInterface = second.bare.attachedInterface
    rw [same]
  have tag : first.tag = second.tag := by
    change first.bare.tag = second.bare.tag
    rw [same]
  refine ⟨turn, among, isTurn.trans same.symm, ?_, before⟩
  rw [interface, tag]
  exact made

theorem Checked.of_bare {readings : ServiceReadings Message}
    {first second : PendingResponse Message} {revision : AnnounceRevision}
    (same : first.bare = second.bare)
    (checked : Checked readings sessionShutdown now second revision) :
    Checked readings sessionShutdown now first revision := by
  have runtime : first.runtimeShutdown = second.runtimeShutdown := by
    change first.bare.runtimeShutdown = second.bare.runtimeShutdown
    rw [same]
  have identity : first.identityGeneration = second.identityGeneration := by
    change first.bare.identityGeneration = second.bare.identityGeneration
    rw [same]
  have transport : first.transport = second.transport := by
    change first.bare.transport = second.bare.transport
    rw [same]
  have expires : first.expires = second.expires := by
    change first.bare.expires = second.bare.expires
    rw [same]
  refine ⟨checked.session, ?_, ?_, ?_, ?_, checked.quiet, checked.unchanged⟩
  · rw [runtime]
    exact checked.runtime
  · rw [identity]
    exact checked.identity
  · rw [transport]
    exact checked.transport
  · rw [expires]
    exact checked.inTime

theorem Orderly.service {state : Answering Message} (orderly : Orderly state)
    (readings : PendingResponse Message → ServiceReadings Message)
    (sessionShutdown : Nat) (now : Instant) :
    Orderly (state.step (.service readings sessionShutdown now)) := by
  unfold Answering.step
  dsimp only
  rw [service_eq]
  have grown : ∀ turn ∈ state.turns, turn ∈ state.turns ++
      state.requests.map fun request => (request, readings request) :=
    fun _ among => List.mem_append_left _ among
  have hasTurn : ∀ request ∈ state.requests, (request, readings request) ∈
      state.turns ++
        state.requests.map fun request => (request, readings request) := by
    intro request among
    refine List.mem_append_right _ ?_
    exact List.mem_map_of_mem
      (f := fun request => (request, readings request)) among
  obtain ⟨pendingOnce, sentOnce, apart⟩ := List.nodup_append.mp orderly.once
  have keptPart := numbers_filterMap
    (@keptOf_number Message readings sessionShutdown now) state.requests
  have sentPart := numbers_filterMap
    (@sentOf_number Message readings sessionShutdown now) state.requests
  refine ⟨?_, ?_, orderly.numbered, orderly.deadlines, ?_, ?_, ?_, ?_⟩
  · exact Nat.le_trans (List.length_filterMap_le _ _) orderly.bounded
  · refine List.pairwise_filterMap.mpr (orderly.distinct.imp ?_)
    intro first second differs firstLater firstKept secondLater secondKept
    rw [key_of_bare (keptOf_spec firstKept).1, key_of_bare (keptOf_spec secondKept).1]
    exact differs
  · intro later among
    obtain ⟨request, isPending, kept⟩ := List.mem_filterMap.mp among
    obtain ⟨admission, admitted, same⟩ := orderly.pending request isPending
    exact ⟨admission, admitted, same.trans (keptOf_spec kept).1.symm⟩
  · intro later among message revision built
    obtain ⟨request, isPending, kept⟩ := List.mem_filterMap.mp among
    obtain ⟨same, provides⟩ := keptOf_spec kept
    refine IsBuilt.of_bare same ?_
    exact (provides message revision built).isBuilt (hasTurn request isPending)
      (orderly.built request isPending) grown
  · unfold Answering.numbers
    rw [List.map_append]
    refine List.nodup_append.mpr ⟨pendingOnce.sublist keptPart, ?_, ?_⟩
    · refine List.nodup_append.mpr
        ⟨sentOnce, pendingOnce.sublist sentPart, ?_⟩
      intro old wasSent new isSent same
      exact apart new (sentPart.subset isSent) old wasSent same.symm
    · intro number isKept other isSent
      rcases List.mem_append.mp isSent with wasSent | nowSent
      · exact apart number (keptPart.subset isKept) other wasSent
      · obtain ⟨later, kept, keptNumber⟩ := List.mem_map.mp isKept
        obtain ⟨sent, sends, sentNumber⟩ := List.mem_map.mp nowSent
        rw [← keptNumber, ← sentNumber]
        exact kept_ne_sent pendingOnce kept sends
  · intro sent among
    rcases List.mem_append.mp among with old | new
    · obtain ⟨isAdmitted, isBuilt, checked⟩ := orderly.sent sent old
      exact ⟨isAdmitted, isBuilt.mono grown, checked⟩
    · obtain ⟨request, isPending, sends⟩ := List.mem_filterMap.mp new
      obtain ⟨same, provides, _, checked, _⟩ := sentOf_spec sends
      obtain ⟨admission, admitted, isIt⟩ := orderly.pending request isPending
      refine ⟨⟨admission, admitted, isIt.trans same.symm⟩, ?_, checked.of_bare same⟩
      refine IsBuilt.of_bare same ?_
      exact provides.isBuilt (hasTurn request isPending) (orderly.built request isPending) grown

theorem Orderly.step {state : Answering Message} (orderly : Orderly state)
    (op : AnswerOp Message) : Orderly (state.step op) := by
  cases op with
  | admitRequest readings attachedInterface tag now =>
      exact orderly.admitRequest readings attachedInterface tag now
  | service readings sessionShutdown now =>
      exact orderly.service readings sessionShutdown now

/-- In every state of a run the pending responses are in order, and an
admission leaves every request alone that is in time and current. -/
theorem pathResponses_run (ops : List (AnswerOp Message)) :
    Orderly (runFrom Answering.step Answering.start ops) ∧
      ∀ (readings : AdmitReadings Message) attachedInterface tag now,
        ∀ request ∈ (runFrom Answering.step Answering.start ops).requests,
          now < request.expires →
          request.isCurrent (readings.retained request) = true →
          request ∈ ((runFrom Answering.step Answering.start ops).step
            (.admitRequest readings attachedInterface tag now)).requests := by
  refine ⟨invariant_of_forall_step (fun _ op orderly => orderly.step op) ops
    orderly_start, ?_⟩
  intro readings attachedInterface tag now request among inTime isCurrent
  generalize runFrom Answering.step Answering.start ops = state at among ⊢
  have spec := admit_spec readings state.admitted.length attachedInterface
    tag now state.requests
  change request ∈ (admitRequest readings state.admitted.length
    attachedInterface tag
    now state.requests).1
  rw [spec.requests]
  refine List.mem_append_left _ (List.mem_filter.mpr ⟨among, ?_⟩)
  rw [isCurrent, decide_eq_true inTime]
  rfl

/-! ### What no check of the code sees -/

/-- A shared state with a manager that runs.  The builder answers each tag
with the announce that it gave at first. -/
def sampleShared (identitySession contentRevision : Nat) :
    SharedState AnnounceRevision :=
  { identitySession, contentRevision, interfaceRevision := 0
    manager := some { transport := 1, shutdown := 2 }
    triggered := fun _ => false, channelClosed := fun _ => false
    switchEpoch := 0, instant := 0
    build := fun _ _ =>
      .ok { identity := 1, content := 0, interface := 0 }
    trySend := fun _ => .queued }

/-- The readings of a turn in which the identity may change at the end. -/
def sampleReadings (contentRevision identityAtSend : Nat) :
    ServiceReadings AnnounceRevision :=
  let state := sampleShared 1 contentRevision
  { first := state, epoch := state, revision := state, builder := state
    again := state, epochAgain := state, revisionAgain := state
    sending := sampleShared identityAtSend contentRevision }

def sampleAdmit (contentRevision : Nat) : AnswerOp AnnounceRevision :=
  let state := sampleShared 1 contentRevision
  .admitRequest
    { retained := fun _ => state, identity := state, manager := state }
    (some 7) (some [4]) 0

/-- A tag that is asked again after a rename is answered with the announce
from before it, and the identity may change between the last check and the
sending. -/
theorem pathResponses_unseen :
    (∃ sent ∈ (runFrom Answering.step Answering.start
        [sampleAdmit 0, .service (fun _ => sampleReadings 0 1) 3 0,
          sampleAdmit 1, .service (fun _ => sampleReadings 1 1) 3 0]).sent,
      sent.message.content < sent.readings.first.revision.content) ∧
    ∃ sent ∈ (runFrom Answering.step Answering.start
        [sampleAdmit 0, .service (fun _ => sampleReadings 0 2) 3 0]).sent,
      sent.readings.sending.identitySession ≠
        sent.request.identityGeneration := by
  decide

end Ratspeak.Delivery
