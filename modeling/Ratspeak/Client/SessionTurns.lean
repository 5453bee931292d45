import Ratspeak.Client.SessionHandles

/-!
# Packets, ticks and whole steps in moves

An envelope moves at most the room that it is about.  A tick gives up what is
late and then joins again at most one room.
-/

namespace Ratspeak

open Library

namespace ActiveSession

theorem heardMember_desk (session : ActiveSession) (envelope : Envelope)
    (name : String) (room : ChannelRoomSnapshot) :
    SameDesk session (session.heardMember envelope name room).1 ∧
      (session.heardMember envelope name room).1.rooms = session.rooms ∧
      (session.heardMember envelope name room).2.phase = room.phase ∧
      (session.heardMember envelope name room).2.phaseStartedAtMs =
        room.phaseStartedAtMs := by
  unfold heardMember
  split
  · exact ⟨⟨rfl, rfl, rfl, rfl, rfl⟩, rfl, rfl, rfl⟩
  · exact ⟨.refl session, rfl, rfl, rfl⟩

section Content

variable [UnicodeTables] [WordTables]

theorem appendContent_settles (session : ActiveSession) (clock : ClientClock)
    (envelope : Envelope) (encodedBytes : Nat) (allowed : String → RoomMark → Prop) :
    Settles allowed session
      (session.appendContent clock envelope encodedBytes) [] := by
  unfold appendContent
  split
  · exact (SameDesk.refl session).settles rfl _
  · rename_i text body
    dsimp only
    cases found : envelope.room.bind fun name =>
        (session.rooms.lookup name).map fun room => (name, room) with
    | none =>
        dsimp only
        split
        · exact (SameDesk.refl session).settles rfl _
        · split
          · refine SameDesk.settles ?_ ?_ _
            · exact ⟨rfl, rfl, rfl, rfl, rfl⟩
            · rfl
          · refine SameDesk.settles ?_ ?_ _
            · exact ⟨rfl, rfl, rfl, rfl, rfl⟩
            · rfl
    | some entry =>
        obtain ⟨name, room⟩ := entry
        obtain ⟨tested, -, inRooms⟩ := Option.bind_eq_some_iff.mp found
        obtain ⟨state, known, paired⟩ := Option.map_eq_some_iff.mp inRooms
        have isName : tested = name := (Prod.ext_iff.mp paired).1
        have isRoom : state = room := (Prod.ext_iff.mp paired).2
        rw [isName, isRoom] at known
        have heardSame := heardMember_desk session envelope name room
        dsimp only
        generalize session.heardMember envelope name room = heard at *
        obtain ⟨same, rooms, phase, since⟩ := heardSame
        have written : (heard.1.appendRoomItem name heard.2
            (session.contentItem envelope text)).rooms =
            session.rooms.insert name (heard.2.withItem
              (session.contentItem envelope text)) := by
          rw [← rooms]
          rfl
        refine SameDesk.settles_insert ?_ known ?_ ?_ written _
        · exact ⟨same.source, same.hubIdentity, same.secrets, same.activity, same.actions⟩
        · simpa only [ChannelRoomSnapshot.withItem] using phase
        · simpa only [ChannelRoomSnapshot.withItem] using since

omit [WordTables] in
theorem applyRoomDirectoryNotice_rest (session : ActiveSession)
    (nowMs : Nat) (envelope : Envelope) :
    SameSession session (session.applyRoomDirectoryNotice nowMs envelope).1 ∧
      (session.applyRoomDirectoryNotice nowMs envelope).1.rooms = session.rooms ∧
      (session.applyRoomDirectoryNotice nowMs envelope).1.limits =
        session.limits := by
  have same : SameSession session session := .refl session
  unfold applyRoomDirectoryNotice
  dsimp only
  split
  · exact ⟨same, rfl, rfl⟩
  · split
    · exact ⟨{ same with }, rfl, rfl⟩
    · exact ⟨same, rfl, rfl⟩
  · exact ⟨{ same with }, rfl, rfl⟩

omit [WordTables] in
/-- What an envelope tells is read from the rooms, the limits and the hub of
the session. -/
theorem Tells.congr {session other : ActiveSession} {envelope : Envelope}
    (hub : other.hubIdentity = session.hubIdentity) (rooms : other.rooms = session.rooms)
    (limits : other.limits = session.limits) {name : String}
    {mark : RoomMark} (tells : Tells other envelope name mark) :
    Tells session envelope name mark := by
  have named : other.normalizedEnvelopeRoom envelope =
      session.normalizedEnvelopeRoom envelope := by
    simp only [normalizedEnvelopeRoom, maxRoomBytes, limits]
  have erroneous : other.erroneousRoom envelope =
      session.erroneousRoom envelope := by
    simp only [erroneousRoom, named, rooms]
  cases mark with
  | confirmed proved => exact ⟨hub ▸ tells.1, tells.2.1, named ▸ tells.2.2⟩
  | affirmed => exact ⟨hub ▸ tells.1, tells.2.1, named ▸ tells.2.2⟩
  | refused pending hubText =>
      exact ⟨hub ▸ tells.1, tells.2.1, erroneous ▸ tells.2.2.1, tells.2.2.2⟩
  | kept =>
      have phase : other.phaseOf name = session.phaseOf name := by
        rw [phaseOf, rooms, phaseOf]
      exact ⟨hub ▸ tells.1, tells.2.1, erroneous ▸ tells.2.2.1, phase ▸ tells.2.2.2⟩
  | requested _ | timedOut _ => exact tells.elim
  | abandoned | released | unkeyed | parting | partFailed | left
  | rejoinFailed => exact trivial

omit [WordTables] in
/-- The time that an envelope bears is not part of what it tells. -/
theorem Tells.restamp {session : ActiveSession} {envelope : Envelope}
    {timestampMs : Nat} {name : String} {mark : RoomMark}
    (tells : Tells session { envelope with timestampMs := timestampMs } name
      mark) : Tells session envelope name mark := by
  cases mark with
  | confirmed _ | affirmed | refused _ _ | kept => exact tells
  | requested _ | timedOut _ => exact tells.elim
  | abandoned | released | unkeyed | parting | partFailed | left
  | rejoinFailed => exact trivial

theorem applyNotice_settles (session : ActiveSession) (clock : ClientClock)
    (envelope : Envelope) (encodedBytes : Nat) (isNotice : envelope.messageType = .notice) :
    Settles (Tells session envelope) session
      (session.applyNotice clock envelope encodedBytes) [] := by
  obtain ⟨⟨same, -, -, -⟩, rooms, limits⟩ :=
    applyRoomDirectoryNotice_rest session clock.nowMs envelope
  have first := same.settles rooms (Tells session envelope)
  unfold applyNotice
  dsimp only
  split
  · refine SameDesk.settles ?_ ?_ _
    · exact ⟨same.source, same.hubIdentity, same.secrets, same.activity, same.actions⟩
    · exact rooms
  · exact first.trans (appendContent_settles _ clock envelope encodedBytes _)
  · split
    · rename_i read
      exact first.trans ((status_settles _ clock.nowMs envelope isNotice
        read).weaken fun name mark tells =>
          tells.congr same.hubIdentity rooms limits)
    · rename_i unread
      obtain ⟨⟨still, -, -, -⟩, outcome⟩ := applyRrcdRoomStatusNotice_rooms
        (session.applyRoomDirectoryNotice clock.nowMs envelope).1 clock.nowMs
        envelope
      have untouched : (((session.applyRoomDirectoryNotice clock.nowMs
          envelope).1).applyRrcdRoomStatusNotice clock.nowMs
            envelope).1.rooms = (session.applyRoomDirectoryNotice clock.nowMs
              envelope).1.rooms := by
        rcases outcome with ⟨-, unchanged⟩ | ⟨_, _, _, -, -, -, -, read, -⟩
        · exact unchanged
        · exact absurd read unread
      exact first.trans ((still.settles untouched _).trans
        (appendContent_settles _ clock envelope encodedBytes _))

theorem applyEnvelope_settles (session : ActiveSession) (clock : ClientClock)
    (envelope : Envelope) (encodedBytes : Nat)
    (allowed : isHubControl envelope.messageType = true →
      envelope.source = session.hubIdentity) :
    Settles (Tells session envelope) session
      (session.applyEnvelope clock envelope encodedBytes) [] := by
  have still : Settles (Tells session envelope) session session [] :=
    (SameDesk.refl session).settles rfl _
  unfold applyEnvelope
  cases messageType : envelope.messageType with
  | hello | ping | pong | join | part | resourceEnvelope | unknown _ => exact still
  | welcome =>
      refine SameDesk.settles ?_ ?_ _
      · exact ⟨rfl, rfl, rfl, rfl, rfl⟩
      · rfl
  | joined =>
      exact joined_settles session clock.nowMs envelope messageType
        (allowed (by rw [messageType]; rfl))
  | parted =>
      exact (parted_settles session envelope).weaken fun name mark quiet => tells_of_quiet quiet
  | message | action =>
      exact appendContent_settles session clock envelope encodedBytes _
  | notice => exact applyNotice_settles session clock envelope encodedBytes messageType
  | error =>
      dsimp only
      cases rejected : session.applyRoomDirectoryError envelope with
      | none =>
          exact appendError_settles session clock.nowMs envelope messageType
            (allowed (by rw [messageType]; rfl))
      | some after =>
          unfold applyRoomDirectoryError at rejected
          split at rejected
          · cases rejected
          · rw [← Option.some.inj rejected]
            refine SameDesk.settles ?_ ?_ _
            · exact ⟨rfl, rfl, rfl, rfl, rfl⟩
            · rfl

theorem handleEnvelope_settles (session : ActiveSession)
    (clock : ClientClock) (envelope : Envelope) (encodedBytes : Nat) (send : SendResult) :
    Settles (Tells session envelope) session
      (session.handleEnvelope clock envelope encodedBytes send).session
      (session.handleEnvelope clock envelope encodedBytes send).sent := by
  unfold handleEnvelope
  split
  · exact (SameDesk.refl session).settles rfl _
  · rename_i admitted
    have allowed : isHubControl envelope.messageType = true →
        envelope.source = session.hubIdentity := by
      intro control
      by_contra foreign
      exact admitted ⟨control, foreign⟩
    have remembered : SameDesk session
        (session.remember envelope.messageId).1 ∧
          (session.remember envelope.messageId).1.rooms = session.rooms ∧
          (session.remember envelope.messageId).1.limits =
            session.limits := by
      unfold remember
      split
      · exact ⟨.refl session, rfl, rfl⟩
      · exact ⟨⟨rfl, rfl, rfl, rfl, rfl⟩, rfl, rfl⟩
    obtain ⟨same, rooms, limits⟩ := remembered
    dsimp only
    split
    · exact same.settles rooms _
    · split
      · exact same.settles rooms _
      · refine SameDesk.settles ?_ ?_ _
        · exact ⟨same.source, same.hubIdentity, same.secrets, same.activity, same.actions⟩
        · exact rooms
      · refine Settles.send ?_ ?_
        · have greeted : ∀ greeting, Settles (Tells session envelope) session
              { (session.remember envelope.messageId).1 with
                greeting := greeting } [] := by
            intro greeting
            refine SameDesk.settles ?_ ?_ _
            · exact ⟨same.source, same.hubIdentity, same.secrets, same.activity, same.actions⟩
            · exact rooms
          refine (greeted _).trans ((applyEnvelope_settles _ clock _ encodedBytes ?_).weaken ?_)
          · intro control
            exact (allowed control).trans same.hubIdentity.symm
          · intro name mark tells
            exact Tells.restamp (tells.congr same.hubIdentity rooms limits)
        · intro name
          split
          · exact joinKeys_of_type (by simp [Envelope.pong, Envelope.new]) name
          · rfl

end Content

/-! ## The tick -/

/-- What became late: a wait ended, or a room that was left is gone. -/
def Expires (_name : String) : RoomMark → Prop
  | .left | .timedOut _ => True
  | _ => False

theorem expire_settles (session : ActiveSession) (nowMs : Nat) :
    Settles Expires session (session.expireRoomTransitions nowMs) [] := by
  intro name
  have queue : aboutRoom name
      (session.expireRoomTransitions nowMs).roomSecretActions =
        aboutRoom name session.roomSecretActions ++ [] :=
    (List.append_nil _).symm
  cases known : session.rooms.lookup name with
  | none =>
      refine ⟨[], ⟨rfl, rfl, .nil_eq ?_, rfl, queue⟩, by simp⟩
      simp [view, expireRoomTransitions, known]
  | some room =>
      by_cases late : partTimedOut nowMs room = true
      · have leaving : room.phase = .parting := by
          simp only [partTimedOut, Bool.and_eq_true, decide_eq_true_eq] at late
          exact late.1
        refine ⟨[.left], ⟨rfl, rfl,
          .one_eq (.leave (view_phase known leaving)) ?_, rfl, queue⟩,
          by simp [Expires]⟩
        simp [view, expireRoomTransitions, known, late]
      · by_cases timedOut : joinTimedOut nowMs room = true
        · have joining : room.phase = .joining ∧
              joinConfirmTimeout ≤ nowMs - room.phaseStartedAtMs := by
            simpa [joinTimedOut] using timedOut
          refine ⟨[.timedOut nowMs], ⟨rfl, rfl, .one_eq (.timeOut nowMs
            (view_phase known joining.1) joining.2) ?_, rfl, queue⟩,
            by simp [Expires]⟩
          simp [view, expireRoomTransitions, known, late, expireRoom,
            timedOut, ChannelRoomSnapshot.enter]
        · refine ⟨[], ⟨rfl, rfl, .nil_eq ?_, rfl, queue⟩, by simp⟩
          simp [view, expireRoomTransitions, known, late, expireRoom, timedOut]

variable {may : JoinSecretInput → Prop}

/-- The tick keeps the keys of rooms that are being joined. -/
theorem keysKept_settles (session : ActiveSession)
    (greeting : HubGreetingState) (rejoining : FiniteSet String) :
    Settles (Quiet may) session { session with
      greeting := greeting
      autoRejoining := rejoining
      pendingJoinSecrets := FiniteMap.retain
        (fun room _ => session.isJoining room)
        session.pendingJoinSecrets } [] := by
  intro name
  by_cases joining : session.isJoining name = true
  · refine ⟨[], ⟨rfl, rfl, .nil_eq ?_, rfl, (List.append_nil _).symm⟩,
      by simp⟩
    simp [view, joining]
    cases session.pendingJoinSecrets.lookup name <;> rfl
  · refine ⟨[.unkeyed], ⟨rfl, rfl, .one_eq (.unkey ?_) ?_, rfl,
      (List.append_nil _).symm⟩, by simp [Quiet]⟩
    · intro since viewed
      exact joining (decide_eq_true (phaseOf_of_view viewed))
    · simp [view, joining]

/-- The rejoin of a room failed that is neither joined nor being joined. -/
theorem rejoinFailed_settles (session : ActiveSession) (nowMs : Nat) (room error : String)
    (settled : session.phaseOf room ≠ some .joining ∧ session.phaseOf room ≠ some .joined) :
    Settles (Quiet may) session
      (session.insertAutoRejoinError nowMs room error) [] := by
  refine settles_silent room rfl rfl rfl (.reaches (.rejoinFail nowMs ?_) ?_) ?_ rfl rfl trivial
  · intro since
    exact ⟨fun isJoining => settled.1 (phaseOf_of_view isJoining),
      fun isJoined => settled.2 (phaseOf_of_view isJoined)⟩
  · simp [view, insertAutoRejoinError, ChannelRoomSnapshot.failed,
      ChannelRoomSnapshot.joining]
    rfl
  · intro name different
    simp [view, insertAutoRejoinError, different]
    rfl

section Names

variable [UnicodeTables]

omit [UnicodeTables] in
/-- A join that fails can only take a failed room away. -/
theorem Request.failed {session : ActiveSession} {nowMs : Nat}
    {room : String} {secret : JoinSecretInput}
    {answer : SessionTurn × Except ChannelsError String}
    (request : Request session nowMs room secret answer)
    {reason : ChannelsError} (isError : answer.2 = .error reason) (tested : String) :
    answer.1.session.phaseOf tested = session.phaseOf tested ∨
      answer.1.session.phaseOf tested = none := by
  cases request with
  | refused reason => exact Or.inl rfl
  | withdrawn free reason =>
      by_cases equal : tested = room
      · exact Or.inr (by simp [phaseOf, beginJoin, dropRoom, equal])
      · exact Or.inl (by simp [phaseOf, beginJoin, dropRoom, equal])
  | sent free => cases isError

theorem Join.failed {session : ActiveSession} {nowMs : Nat} {room : String}
    {secret : JoinSecretInput} {answer : SessionTurn × Except ChannelsError String}
    (join : Join session nowMs room secret answer) {reason : ChannelsError}
    (isError : answer.2 = .error reason) (tested : String) :
    answer.1.session.phaseOf tested = session.phaseOf tested ∨
      answer.1.session.phaseOf tested = none := by
  cases join with
  | settled outcome => exact Or.inl rfl
  | fresh named unknown request => exact request.failed isError tested
  | @retried name _ named failed request =>
      rcases request.failed isError tested with same | gone
      · rw [same]
        by_cases equal : tested = name
        · exact Or.inr (by simp [phaseOf, dropRoom, dropSecret, equal])
        · exact Or.inl (by simp [phaseOf, dropRoom, dropSecret, equal])
      · exact Or.inr gone

omit [UnicodeTables] in
theorem concludeRejoin_settles {session : ActiveSession} {nowMs : Nat}
    {room : String} {answer : SessionTurn × Except ChannelsError String}
    (answered : Settles (Quiet may) session answer.1.session answer.1.sent)
    (failed : ∀ reason, answer.2 = .error reason →
      answer.1.session.phaseOf room ≠ some .joining ∧
        answer.1.session.phaseOf room ≠ some .joined) :
    Settles (Quiet may) session
      (SessionTurn.concludeRejoin nowMs room answer).session
      (SessionTurn.concludeRejoin nowMs room answer).sent := by
  obtain ⟨turn, outcome⟩ := answer
  cases outcome with
  | ok name =>
      have entered : Settles (Quiet may) turn.session { turn.session with
          autoRejoining := turn.session.autoRejoining.insert name } [] := by
        refine SameDesk.settles ?_ ?_ _
        · exact ⟨rfl, rfl, rfl, rfl, rfl⟩
        · rfl
      have both := answered.trans entered
      rw [List.append_nil] at both
      exact both
  | error reason =>
      have both := answered.trans (rejoinFailed_settles turn.session nowMs
        room ("Automatic rejoin failed: " ++ reason.text) (failed reason rfl))
      rw [List.append_nil] at both
      exact both

/-- A room that is neither joined nor being joined is joined again, or its
failure is shown. -/
theorem Join.concluded {session : ActiveSession} {nowMs : Nat} {room : String}
    {secret : JoinSecretInput} {answer : SessionTurn × Except ChannelsError String}
    (join : Join session nowMs room secret answer)
    (away : session.phaseOf room ≠ some .joining ∧ session.phaseOf room ≠ some .joined) :
    Settles (Quiet fun asked => asked = secret) session
      (SessionTurn.concludeRejoin nowMs room answer).session
      (SessionTurn.concludeRejoin nowMs room answer).sent := by
  refine concludeRejoin_settles join.settles ?_
  intro reason isError
  rcases join.failed isError room with same | gone
  · rw [same]
    exact away
  · rw [gone]
    exact ⟨by simp, by simp⟩

/-- The keys that are sent without the user: none, or a stored one. -/
def IsSaved : JoinSecretInput → Prop
  | .none | .stored _ => True
  | .user _ _ => False

omit [UnicodeTables] in
theorem quiet_of_saved {secret : JoinSecretInput} (saved : IsSaved secret)
    (name : String) (mark : RoomMark) (quiet : Quiet (fun asked => asked = secret) name mark) :
    Quiet IsSaved name mark := by
  cases mark with
  | requested asked =>
      have equal : asked = secret := quiet
      rw [equal]
      exact saved
  | confirmed _ | affirmed | refused _ _ | kept | timedOut _ => exact quiet.elim
  | abandoned | released | unkeyed | parting | partFailed | left
  | rejoinFailed => exact trivial

omit [UnicodeTables] in
theorem saved_of_gives {secret : JoinSecretInput} {stored : StoredRoomKey}
    (gives : stored.Gives secret) : IsSaved secret := by
  cases stored with
  | sealed opened =>
      obtain ⟨key, -, equal⟩ := gives
      rw [equal]
      exact trivial
  | absent required =>
      rw [gives.2]
      exact trivial

/-- Of the queue at most one room is joined. -/
theorem driveAutoRejoin_settles (session : ActiveSession) (nowMs : Nat)
    (stored : String → StoredRoomKey) (send : SendResult) :
    Settles (Quiet IsSaved) session
      (session.driveAutoRejoin nowMs stored send).session
      (session.driveAutoRejoin nowMs stored send).sent := by
  have queued : ∀ rest, Settles (Quiet IsSaved) session
      { session with autoRejoinQueue := rest } [] := by
    intro rest
    refine SameDesk.settles ?_ ?_ _
    · exact ⟨rfl, rfl, rfl, rfl, rfl⟩
    · rfl
  have rejoin := driveAutoRejoin_rejoin session nowMs stored send
  generalize session.driveAutoRejoin nowMs stored send = turn at *
  cases rejoin with
  | busy => exact (SameDesk.refl session).settles rfl _
  | done => exact queued []
  | @unable room rest next away error =>
      exact (queued rest).trans (rejoinFailed_settles _ nowMs room error away)
  | @joined room rest secret answer next away gives join =>
      have both := (queued rest).trans ((join.concluded away).weaken
        (quiet_of_saved (saved_of_gives gives)))
      rw [List.nil_append] at both
      exact both

/-- The part of a tick that gives up what is late. -/
def expire (session : ActiveSession) (clock : ClientClock) : ActiveSession :=
  (session.expireRoomTransitions clock.nowMs).expireDirectoryRequest clock.now

/-- The part of a tick that drops the keys of rooms that are not being joined
any more. -/
def keepKeys (session : ActiveSession) (clock : ClientClock) :
    ActiveSession :=
  { session with
    greeting := session.greeting.expireHubGreetingResourceState clock.now
    autoRejoining := session.autoRejoining.filter session.isJoining
    pendingJoinSecrets := FiniteMap.retain
      (fun room _ => session.isJoining room) session.pendingJoinSecrets }

theorem tick_eq (session : ActiveSession) (clock : ClientClock)
    (stored : String → StoredRoomKey) (send : SendResult) :
    session.tick clock stored send =
      ((session.expire clock).keepKeys clock).driveAutoRejoin clock.nowMs stored send :=
  rfl

omit [UnicodeTables] in
theorem expire_rooms (session : ActiveSession) (clock : ClientClock) :
    SameDesk (session.expireRoomTransitions clock.nowMs)
        (session.expire clock) ∧
      (session.expire clock).rooms =
        (session.expireRoomTransitions clock.nowMs).rooms := by
  unfold expire expireDirectoryRequest
  split
  · exact ⟨⟨rfl, rfl, rfl, rfl, rfl⟩, rfl⟩
  · exact ⟨.refl _, rfl⟩

end Names

/-! ## Whole steps -/

/-- What a tick may do to a room. -/
def Ticks (name : String) (mark : RoomMark) : Prop :=
  Expires name mark ∨ Quiet IsSaved name mark

/-- The moves of one room in a step, and what left the session about it. -/
structure Stepped (session : ActiveSession) (report : SessionReport)
    (name : String) (marks : List RoomMark) : Prop where
  source : report.session.source = session.source
  hubIdentity : report.session.hubIdentity = session.hubIdentity
  moves : RoomMoves (session.view name) marks (report.session.view name)
  joins : joinKeys name report.sent = joinsOf marks
  secrets : aboutRoom name report.secrets = secretsOf name marks

theorem secretsOf_eq_nil {name : String} {marks : List RoomMark}
    (unanswered : ∀ mark ∈ marks, mark.secrets name = []) :
    secretsOf name marks = [] :=
  List.flatMap_eq_nil_iff.mpr unanswered

/-- Without answers of the hub, no action on keys is queued. -/
theorem stepped_of_quiet {allowed : String → RoomMark → Prop}
    {session after : ActiveSession} {sent : List Envelope}
    (settled : Settles allowed session after sent)
    (quiet : ∀ name mark, allowed name mark → mark.secrets name = []) (name : String) :
    ∃ marks, Stepped session ⟨after, sent, []⟩ name marks ∧
      ∀ mark ∈ marks, allowed name mark := by
  obtain ⟨marks, handles, all⟩ := settled name
  refine ⟨marks, ⟨handles.source, handles.hubIdentity, handles.moves, handles.joins, ?_⟩, all⟩
  exact (secretsOf_eq_nil fun mark member =>
    quiet name mark (all mark member)).symm

/-- Nothing comes into the queue of actions. -/
theorem drained_of_quiet {allowed : String → RoomMark → Prop}
    {session after : ActiveSession} {sent : List Envelope}
    (drained : session.roomSecretActions = []) (settled : Settles allowed session after sent)
    (quiet : ∀ name mark, allowed name mark → mark.secrets name = []) :
    after.roomSecretActions = [] := by
  refine List.eq_nil_iff_forall_not_mem.mpr ?_
  intro action member
  obtain ⟨marks, handles, all⟩ := settled action.room
  have queue := handles.queued
  rw [drained, secretsOf_eq_nil fun mark inMarks =>
    quiet action.room mark (all mark inMarks)] at queue
  have inQueue : action ∈ aboutRoom action.room after.roomSecretActions :=
    List.mem_filter.mpr ⟨member, decide_eq_true rfl⟩
  rw [queue] at inQueue
  cases inQueue

theorem secrets_of_quiet {may : JoinSecretInput → Prop} (name : String)
    (mark : RoomMark) (quiet : Quiet may name mark) :
    mark.secrets name = [] := by
  cases mark with
  | confirmed _ | affirmed | refused _ _ | kept | timedOut _ => exact quiet.elim
  | requested _ | abandoned | released | unkeyed | parting | partFailed
  | left | rejoinFailed => rfl

/-- What a step does: moves that are allowed, and then nothing waits in the
queue of actions. -/
def Completes (session : ActiveSession) (allowed : String → RoomMark → Prop)
    (report : SessionReport) : Prop :=
  (∀ name, ∃ marks, Stepped session report name marks ∧
    ∀ mark ∈ marks, allowed name mark) ∧
    report.session.roomSecretActions = []

theorem completes_quiet {may : JoinSecretInput → Prop}
    {session after : ActiveSession} {sent : List Envelope}
    (drained : session.roomSecretActions = [])
    (settled : Settles (Quiet may) session after sent) :
    Completes session (Quiet may) ⟨after, sent, []⟩ :=
  ⟨stepped_of_quiet settled secrets_of_quiet, drained_of_quiet drained settled secrets_of_quiet⟩

theorem secrets_of_ticks (name : String) (mark : RoomMark)
    (ticks : Ticks name mark) : mark.secrets name = [] := by
  rcases ticks with late | quiet
  · cases mark with
    | left | timedOut _ => rfl
    | confirmed _ | affirmed | refused _ _ | kept | requested _ | abandoned
    | released | unkeyed | parting | partFailed | rejoinFailed => exact late.elim
  · exact secrets_of_quiet name mark quiet

theorem expireAll_settles (session : ActiveSession) (clock : ClientClock) :
    Settles Expires session (session.expire clock) [] :=
  (expire_settles session clock.nowMs).trans
    ((expire_rooms session clock).1.settles (expire_rooms session clock).2 _)

theorem keepKeys_settles (session : ActiveSession) (clock : ClientClock) :
    Settles (Quiet may) session (session.keepKeys clock) [] :=
  keysKept_settles session _ _

section Steps

variable [UnicodeTables]

theorem tick_settles (session : ActiveSession) (clock : ClientClock)
    (stored : String → StoredRoomKey) (send : SendResult) :
    Settles Ticks session (session.tick clock stored send).session
      (session.tick clock stored send).sent := by
  have first : Settles Ticks session (session.expire clock) [] :=
    (expireAll_settles session clock).weaken fun _ _ late => Or.inl late
  have second : Settles Ticks (session.expire clock)
      ((session.expire clock).keepKeys clock) [] :=
    (keepKeys_settles _ clock).weaken fun _ _ quiet => Or.inr quiet
  have third := (driveAutoRejoin_settles ((session.expire clock).keepKeys
    clock) clock.nowMs stored send).weaken (fun _ _ quiet => (Or.inr quiet : Ticks _ _))
  rw [tick_eq]
  have all := first.trans (second.trans third)
  rw [List.nil_append, List.nil_append] at all
  exact all

omit [UnicodeTables] in
theorem persisted_settles (session : ActiveSession) (taken : Nat)
    (allowed : String → RoomMark → Prop) :
    Settles allowed session (session.enqueuePersistence taken) [] := by
  refine SameDesk.settles ?_ ?_ _
  · exact ⟨rfl, rfl, rfl, rfl, rfl⟩
  · rfl

variable [WordTables]

/-- What an input may do to a room. -/
def Allows (session : ActiveSession) (input : SessionInput) (name : String)
    (mark : RoomMark) : Prop :=
  match input with
  | .join _ _ secret _ => Quiet (fun asked => asked = secret) name mark
  | .packet _ envelope _ _ _ => Tells session envelope name mark
  | .tick _ _ _ _ => Ticks name mark
  | .ready _ _ _ _ _ => Quiet IsSaved name mark
  | _ => Quiet (fun _ => False) name mark

omit [UnicodeTables] [WordTables] in
theorem refreshRoomDirectory_settles (session : ActiveSession)
    (clock : ClientClock) (send : SendResult) (allowed : String → RoomMark → Prop) :
    Settles allowed session (session.refreshRoomDirectory clock
      send).1.session (session.refreshRoomDirectory clock send).1.sent := by
  unfold refreshRoomDirectory
  split
  · exact (SameDesk.refl session).settles rfl _
  · split
    · exact (SameDesk.refl session).settles rfl _
    · cases send with
      | ok taken =>
          refine Settles.send (SameDesk.settles ?_ ?_ _) (joinKeys_of_type ?_)
          · exact ⟨rfl, rfl, rfl, rfl, rfl⟩
          · rfl
          · simp [Envelope.new]
      | error reason =>
          refine SameDesk.settles ?_ ?_ _
          · exact ⟨rfl, rfl, rfl, rfl, rfl⟩
          · rfl

omit [WordTables] in
theorem ready_settles (session : ActiveSession) (clock : ClientClock)
    (origin : ConnectOrigin) (desired : List String)
    (stored : String → StoredRoomKey) (send : SendResult) :
    Settles (Quiet IsSaved) session
      (({ session with connectOrigin := origin }.prepareAutoRejoin
        desired).driveAutoRejoin clock.nowMs stored send).session
      (({ session with connectOrigin := origin }.prepareAutoRejoin
        desired).driveAutoRejoin clock.nowMs stored send).sent := by
  have prepared : Settles (Quiet IsSaved) session
      ({ session with connectOrigin := origin }.prepareAutoRejoin
        desired) [] := by
    refine SameDesk.settles ?_ ?_ _
    · exact ⟨rfl, rfl, rfl, rfl, rfl⟩
    · rfl
  have driven := prepared.trans (driveAutoRejoin_settles _ clock.nowMs stored send)
  rw [List.nil_append] at driven
  exact driven

omit [UnicodeTables] [WordTables] in
theorem renamed_settles (session : ActiveSession) (nickname : String)
    (allowed : String → RoomMark → Prop) :
    Settles allowed session { session with nickname := nickname } [] := by
  refine SameDesk.settles ?_ ?_ _
  · exact ⟨rfl, rfl, rfl, rfl, rfl⟩
  · rfl

omit [UnicodeTables] [WordTables] in
theorem receiveOffer_settles (session : ActiveSession) (clock : ClientClock)
    (offer : ResourceOffer) (accepted : Bool) (answeredAt : Nat)
    (allowed : String → RoomMark → Prop) :
    Settles allowed session
      (session.receiveOffer clock offer accepted answeredAt) [] := by
  refine SameDesk.settles ?_ ?_ _
  · exact ⟨rfl, rfl, rfl, rfl, rfl⟩
  · rfl

omit [UnicodeTables] [WordTables] in
theorem endTransfer_settles (session : ActiveSession)
    (sha256 : List UInt8 → Bytes 32) (clock : ClientClock) (index : Nat)
    (result : Option ReceivedResource) (allowed : String → RoomMark → Prop) :
    Settles allowed session
      (session.endTransfer sha256 clock index result) [] := by
  unfold endTransfer
  split
  · exact (SameDesk.refl session).settles rfl _
  · refine SameDesk.settles ?_ ?_ _
    · exact ⟨rfl, rfl, rfl, rfl, rfl⟩
    · rfl

theorem step_completes (sha256 : List UInt8 → Bytes 32)
    {session : ActiveSession} (drained : session.roomSecretActions = [])
    (input : SessionInput) :
    Completes session (Allows session input) (session.step sha256 input) := by
  cases input with
  | join clock room secret send =>
      exact completes_quiet drained (joinRoom_join session clock.nowMs room secret send).settles
  | part clock room send =>
      exact completes_quiet drained (partRoom_settles session clock.nowMs room send)
  | text clock room text send =>
      exact completes_quiet drained (sendRoomText_settles session clock.nowMs room text send)
  | refreshDirectory clock send =>
      exact completes_quiet drained (refreshRoomDirectory_settles session
        clock send (Quiet fun _ => False))
  | renamed previous current =>
      unfold step
      dsimp only
      split
      · exact completes_quiet drained ((SameDesk.refl session).settles rfl
          (Quiet fun _ => False))
      · exact completes_quiet drained (renamed_settles session _ (Quiet fun _ => False))
  | ready clock origin desired stored send =>
      exact completes_quiet drained (ready_settles session clock origin desired stored send)
  | offer clock offer accepted answeredAt =>
      exact completes_quiet drained (receiveOffer_settles session clock offer
        accepted answeredAt (Quiet fun _ => False))
  | transferEnded clock index result =>
      exact completes_quiet drained (endTransfer_settles session sha256 clock
        index result (Quiet fun _ => False))
  | tick clock stored send taken =>
      have ticked := (tick_settles session clock stored send).trans
        (persisted_settles _ taken Ticks)
      rw [List.append_nil] at ticked
      exact ⟨stepped_of_quiet ticked secrets_of_ticks,
        drained_of_quiet drained ticked secrets_of_ticks⟩
  | packet clock envelope encodedBytes send taken =>
      refine ⟨?_, rfl⟩
      intro name
      have handled := (handleEnvelope_settles session clock envelope
        encodedBytes send).trans (persisted_settles _ taken _)
      rw [List.append_nil] at handled
      obtain ⟨marks, handles, all⟩ := handled name
      have queue := handles.queued
      rw [drained] at queue
      exact ⟨marks, ⟨handles.source, handles.hubIdentity, handles.moves,
        handles.joins, queue⟩, all⟩

/-- Each step takes each room through moves that its input allows, and what
it sends and queues for the store is what these moves say. -/
theorem step_moves (sha256 : List UInt8 → Bytes 32) {session : ActiveSession}
    (drained : session.roomSecretActions = []) (input : SessionInput) (name : String) :
    ∃ marks, Stepped session (session.step sha256 input) name marks ∧
      ∀ mark ∈ marks, Allows session input name mark :=
  (step_completes sha256 drained input).1 name

/-- After a step nothing waits in the queue of actions. -/
theorem step_drained (sha256 : List UInt8 → Bytes 32)
    {session : ActiveSession} (drained : session.roomSecretActions = [])
    (input : SessionInput) :
    (session.step sha256 input).session.roomSecretActions = [] :=
  (step_completes sha256 drained input).2

end Steps

end ActiveSession

end Ratspeak
