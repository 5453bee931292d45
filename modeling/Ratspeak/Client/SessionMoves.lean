import Ratspeak.Client.SessionSteps

/-!
# What can become of a room

Whatever happens to a session, each room of it goes through a short list of
moves.  A move says from which phase to which the room goes, what becomes of
the key that is still to prove itself, and which of the moves went out as a
JOIN or reached the store.
-/

namespace Ratspeak

open Library

/-- What the session knows of a room: its phase and since when, the key that
is to prove itself, and whether the log of activity has an entry for it. -/
structure RoomView where
  phase : Option (ChannelRoomPhase × Nat)
  secret : Option PendingJoinSecret
  tracked : Bool

/-- What happened to a room. -/
inductive RoomMark where
  /-- A JOIN went out. -/
  | requested (secret : JoinSecretInput)
  /-- A failed room was taken away for a new try. -/
  | abandoned
  /-- A join did not go out. -/
  | released
  /-- A key was dropped. -/
  | unkeyed
  /-- A PART went out. -/
  | parting
  | partFailed
  /-- The hub confirmed a join; the key that has proved itself. -/
  | confirmed (proved : Option PendingJoinSecret)
  /-- The hub repeated that the room is joined. -/
  | affirmed
  /-- The hub refused a join that carried this key. -/
  | refused (pending : Option PendingJoinSecret) (hubText : String)
  /-- The hub refused to let the user leave. -/
  | kept
  | left
  | timedOut (nowMs : Nat)
  | rejoinFailed

/-- The moves of a room. -/
inductive RoomMove : RoomView → RoomMark → RoomView → Prop where
  | request {view : RoomView} (secret : JoinSecretInput) (now : Nat)
      (unknown : view.phase = none) :
      RoomMove view (.requested secret)
        ⟨some (.joining, now), secret.pending.or view.secret, true⟩
  | abandon {view : RoomView} {since : Nat}
      (failed : view.phase = some (.error, since)) :
      RoomMove view .abandoned ⟨none, none, false⟩
  | release {view : RoomView} (unknown : view.phase = none) :
      RoomMove view .released ⟨none, view.secret, false⟩
  | unkey {view : RoomView}
      (settled : ∀ since, view.phase ≠ some (.joining, since)) :
      RoomMove view .unkeyed { view with secret := none }
  | part {view : RoomView} {phase : ChannelRoomPhase} {since : Nat}
      (now : Nat) (known : view.phase = some (phase, since)) :
      RoomMove view .parting ⟨some (.parting, now), none, true⟩
  | partFail {view : RoomView} {phase : ChannelRoomPhase} {since : Nat}
      (now : Nat) (known : view.phase = some (phase, since)) :
      RoomMove view .partFailed ⟨some (phase, now), none, true⟩
  | confirm {view : RoomView} {phase : ChannelRoomPhase} {since : Nat}
      (now : Nat) (known : view.phase = some (phase, since))
      (pending : phase = .joining ∨ phase = .error) :
      RoomMove view (.confirmed (if view.tracked then view.secret else none))
        ⟨some (.joined, now),
          if view.tracked then none else view.secret, view.tracked⟩
  | affirm {view : RoomView} {since : Nat} (now : Nat)
      (known : view.phase = some (.joined, since)) :
      RoomMove view .affirmed { view with phase := some (.joined, now) }
  | refuse {view : RoomView} {since : Nat} (now : Nat) (hubText : String)
      (known : view.phase = some (.joining, since)) :
      RoomMove view (.refused view.secret hubText) ⟨some (.error, now), none, view.tracked⟩
  | keep {view : RoomView} {since : Nat} (now : Nat)
      (known : view.phase = some (.parting, since)) :
      RoomMove view .kept { view with phase := some (.joined, now) }
  | leave {view : RoomView} {since : Nat}
      (known : view.phase = some (.parting, since)) :
      RoomMove view .left ⟨none, view.secret, false⟩
  | timeOut {view : RoomView} {since : Nat} (now : Nat)
      (known : view.phase = some (.joining, since))
      (late : joinConfirmTimeout ≤ now - since) :
      RoomMove view (.timedOut now) { view with phase := some (.error, now) }
  | rejoinFail {view : RoomView} (now : Nat)
      (settled : ∀ since, view.phase ≠ some (.joining, since) ∧
        view.phase ≠ some (.joined, since)) :
      RoomMove view .rejoinFailed { view with phase := some (.error, now) }

/-- The moves of a room in turn. -/
inductive RoomMoves : RoomView → List RoomMark → RoomView → Prop where
  | nil (view : RoomView) : RoomMoves view [] view
  | cons {first second third : RoomView} {mark : RoomMark}
      {marks : List RoomMark} (move : RoomMove first mark second)
      (rest : RoomMoves second marks third) :
      RoomMoves first (mark :: marks) third

theorem RoomMove.reaches {before reached after : RoomView} {mark : RoomMark}
    (move : RoomMove before mark reached) (equal : after = reached) :
    RoomMove before mark after := by
  rw [equal]
  exact move

namespace RoomMoves

theorem one {before after : RoomView} {mark : RoomMark}
    (move : RoomMove before mark after) : RoomMoves before [mark] after :=
  .cons move (.nil after)

theorem one_eq {before reached after : RoomView} {mark : RoomMark}
    (move : RoomMove before mark reached) (equal : after = reached) :
    RoomMoves before [mark] after :=
  one (move.reaches equal)

theorem nil_eq {before after : RoomView} (equal : after = before) :
    RoomMoves before [] after := by
  rw [equal]
  exact .nil before

theorem trans {first second third : RoomView} {early late : List RoomMark}
    (one : RoomMoves first early second) (other : RoomMoves second late third) :
    RoomMoves first (early ++ late) third := by
  induction one with
  | nil view => exact other
  | cons move rest ih => exact .cons move (ih other)

end RoomMoves

/-! ## Asking for rooms -/

/-- The key that goes out for what is stored. -/
def StoredRoomKey.Gives (secret : JoinSecretInput) : StoredRoomKey → Prop
  | .sealed opened => ∃ key, opened = some key ∧ secret = .stored key
  | .absent required => required = false ∧ secret = .none

namespace ActiveSession

/-- What a request for a room that the session does not have comes to. -/
inductive Request (session : ActiveSession) (nowMs : Nat) (room : String)
    (secret : JoinSecretInput) :
    SessionTurn × Except ChannelsError String → Prop where
  | refused (reason : ChannelsError) :
      Request session nowMs room secret (⟨session, []⟩, .error reason)
  | withdrawn (free : session.joiningRoom = none) (reason : ChannelsError) :
      Request session nowMs room secret
        (⟨(session.beginJoin nowMs room).dropRoom room, []⟩, .error reason)
  | sent (free : session.joiningRoom = none) :
      Request session nowMs room secret
        (⟨(session.beginJoin nowMs room).notePending room secret,
          [session.joinEnvelope nowMs room secret.key]⟩, .ok room)

theorem requestJoin_request (session : ActiveSession) (nowMs : Nat)
    (room : String) (secret : JoinSecretInput) (send : SendResult) :
    Request session nowMs room secret
      (session.requestJoin nowMs room secret send) := by
  unfold requestJoin
  cases free : session.joiningRoom with
  | some pending => exact .refused _
  | none =>
      dsimp only
      split
      · exact .refused _
      · split
        · exact .withdrawn free _
        · cases send with
          | error reason => exact .withdrawn free _
          | ok taken => exact .sent free

section Names

variable [UnicodeTables]

/-- What a join comes to. -/
inductive Join (session : ActiveSession) (nowMs : Nat) (room : String)
    (secret : JoinSecretInput) :
    SessionTurn × Except ChannelsError String → Prop where
  | settled (answer : Except ChannelsError String) :
      Join session nowMs room secret (⟨session, []⟩, answer)
  | fresh {name : String} {answer : SessionTurn × Except ChannelsError String}
      (named : normalizeRoom room session.maxRoomBytes = .ok name)
      (unknown : session.rooms.lookup name = none)
      (request : Request session nowMs name secret answer) :
      Join session nowMs room secret answer
  /-- A failed room is taken away for a new try. -/
  | retried {name : String}
      {answer : SessionTurn × Except ChannelsError String}
      (named : normalizeRoom room session.maxRoomBytes = .ok name)
      (failed : session.phaseOf name = some .error)
      (request : Request ((session.dropRoom name).dropSecret name) nowMs name secret answer) :
      Join session nowMs room secret answer

theorem joinRoom_join (session : ActiveSession) (nowMs : Nat)
    (room : String) (secret : JoinSecretInput) (send : SendResult) :
    Join session nowMs room secret
      (session.joinRoom nowMs room secret send) := by
  unfold joinRoom
  cases named : normalizeRoom room session.maxRoomBytes with
  | error reason => exact .settled _
  | ok name =>
      dsimp only
      cases phase : session.phaseOf name with
      | none =>
          exact .fresh named (Option.map_eq_none_iff.mp phase)
            (requestJoin_request session nowMs name secret send)
      | some current =>
          cases current with
          | joined | joining | parting => exact .settled _
          | error =>
              exact .retried named phase (requestJoin_request _ nowMs name secret send)

/-- What the driver of the rejoins comes to. -/
inductive Rejoin (session : ActiveSession) (nowMs : Nat)
    (stored : String → StoredRoomKey) : SessionTurn → Prop where
  | busy : Rejoin session nowMs stored ⟨session, []⟩
  | done :
      Rejoin session nowMs stored ⟨{ session with autoRejoinQueue := [] }, []⟩
  | unable {room : String} {rest : List String}
      (next : (room :: rest) <:+ session.autoRejoinQueue)
      (away : session.phaseOf room ≠ some .joining ∧
        session.phaseOf room ≠ some .joined) (error : String) :
      Rejoin session nowMs stored
        ⟨({ session with autoRejoinQueue := rest } :
          ActiveSession).insertAutoRejoinError nowMs room error, []⟩
  | joined {room : String} {rest : List String} {secret : JoinSecretInput}
      {answer : SessionTurn × Except ChannelsError String}
      (next : (room :: rest) <:+ session.autoRejoinQueue)
      (away : session.phaseOf room ≠ some .joining ∧ session.phaseOf room ≠ some .joined)
      (gives : (stored room).Gives secret)
      (join : Join { session with autoRejoinQueue := rest } nowMs room secret answer) :
      Rejoin session nowMs stored (SessionTurn.concludeRejoin nowMs room answer)

theorem rejoinNext_rejoin (session : ActiveSession) (nowMs : Nat)
    (stored : String → StoredRoomKey) (send : SendResult)
    (idle : ∀ name, session.phaseOf name ≠ some .joining)
    {queue : List String} (left : queue <:+ session.autoRejoinQueue) :
    Rejoin session nowMs stored
      (session.rejoinNext nowMs stored send queue) := by
  induction queue with
  | nil => exact .done
  | cons room rest ih =>
      unfold rejoinNext
      split
      · exact ih ((List.suffix_cons room rest).trans left)
      · rename_i notJoined
        have joined : ∀ {secret}, (stored room).Gives secret → _ :=
          fun {secret} gives => Rejoin.joined left ⟨idle room, notJoined⟩ gives
            (joinRoom_join { session with autoRejoinQueue := rest } nowMs room secret send)
        dsimp only
        split
        · exact .unable left ⟨idle room, notJoined⟩ _
        · exact .unable left ⟨idle room, notJoined⟩ _
        · rename_i key isStored
          refine joined ?_
          rw [isStored]
          exact ⟨key, rfl, rfl⟩
        · rename_i isStored
          refine joined ?_
          rw [isStored]
          exact ⟨rfl, rfl⟩

theorem driveAutoRejoin_rejoin (session : ActiveSession) (nowMs : Nat)
    (stored : String → StoredRoomKey) (send : SendResult) :
    Rejoin session nowMs stored
      (session.driveAutoRejoin nowMs stored send) := by
  unfold driveAutoRejoin
  split
  · exact .busy
  · rename_i calm
    refine rejoinNext_rejoin session nowMs stored send ?_ List.suffix_rfl
    intro name joining
    obtain ⟨room, known, phase⟩ := Option.map_eq_some_iff.mp joining
    have bound : (name, room) ∈ FiniteMap.bindings session.rooms :=
      (FiniteMap.mem_bindings_iff name room session.rooms).mpr known
    exact calm (List.any_eq_true.mpr ⟨(name, room), bound, decide_eq_true phase⟩)

end Names

end ActiveSession

/-! ## What leaves the session -/

/-- The keys of the JOINs among the marks. -/
def joinsOf (marks : List RoomMark) : List (Option String) :=
  marks.filterMap fun mark =>
    match mark with
    | .requested secret => some secret.key
    | _ => none

def RoomMark.secrets (name : String) : RoomMark → List RoomSecretAction
  | confirmed proved => (proved.bind (ActiveSession.PendingSecret.action name)).toList
  | refused pending hubText =>
      (ActiveSession.errorAction name true pending hubText).toList
  | _ => []

/-- The actions that were queued for the store. -/
def secretsOf (name : String) (marks : List RoomMark) :
    List RoomSecretAction :=
  marks.flatMap (RoomMark.secrets name)

def RoomSecretAction.room : RoomSecretAction → String
  | persist room _ => room
  | forgetRequired room => room
  | forgetRejected room => room
  | markRequired room => room

def aboutRoom (name : String) (actions : List RoomSecretAction) :
    List RoomSecretAction :=
  actions.filter fun action => action.room = name

/-- The keys of the JOINs for a room among envelopes. -/
def joinKeys (name : String) (sent : List Envelope) :
    List (Option String) :=
  (sent.filter fun envelope =>
    envelope.messageType = .join ∧ envelope.room = some name).map Envelope.textBody

theorem joinsOf_append (early late : List RoomMark) :
    joinsOf (early ++ late) = joinsOf early ++ joinsOf late :=
  List.filterMap_append ..

theorem secretsOf_append (name : String) (early late : List RoomMark) :
    secretsOf name (early ++ late) = secretsOf name early ++ secretsOf name late :=
  List.flatMap_append ..

theorem aboutRoom_append (name : String) (early late : List RoomSecretAction) :
    aboutRoom name (early ++ late) = aboutRoom name early ++ aboutRoom name late :=
  List.filter_append ..

theorem joinKeys_append (name : String) (early late : List Envelope) :
    joinKeys name (early ++ late) =
      joinKeys name early ++ joinKeys name late := by
  rw [joinKeys, List.filter_append, List.map_append]
  rfl

namespace ActiveSession

def view (session : ActiveSession) (name : String) : RoomView where
  phase := (session.rooms.lookup name).map fun room =>
    (room.phase, room.phaseStartedAtMs)
  secret := session.pendingJoinSecrets.lookup name
  tracked := name ∈ session.roomActivity

theorem view_phase {session : ActiveSession} {name : String}
    {room : ChannelRoomSnapshot} {phase : ChannelRoomPhase}
    (known : session.rooms.lookup name = some room) (isPhase : room.phase = phase) :
    (session.view name).phase = some (phase, room.phaseStartedAtMs) := by
  simp [view, known, isPhase]

theorem phaseOf_of_view {session : ActiveSession} {name : String}
    {phase : ChannelRoomPhase} {since : Nat}
    (viewed : (session.view name).phase = some (phase, since)) :
    session.phaseOf name = some phase := by
  obtain ⟨room, known, pair⟩ := Option.map_eq_some_iff.mp viewed
  rw [phaseOf, known, Option.map_some]
  exact congrArg some (Prod.ext_iff.mp pair).1

/-- The rooms apart, nothing that bears on the moves of a room changed. -/
structure SameDesk (session after : ActiveSession) : Prop where
  source : after.source = session.source
  hubIdentity : after.hubIdentity = session.hubIdentity
  secrets : after.pendingJoinSecrets = session.pendingJoinSecrets
  activity : after.roomActivity = session.roomActivity
  actions : after.roomSecretActions = session.roomSecretActions

/-- Nothing changed either that bears on greetings and on rooms to be joined
again. -/
structure SameSession (session after : ActiveSession) : Prop
    extends SameDesk session after where
  transfers : after.transfers = session.transfers
  greeting : after.greeting = session.greeting
  rejoins : after.autoRejoinQueue = session.autoRejoinQueue

theorem SameDesk.refl (session : ActiveSession) : SameDesk session session :=
  ⟨rfl, rfl, rfl, rfl, rfl⟩

theorem SameSession.refl (session : ActiveSession) :
    SameSession session session :=
  ⟨.refl session, rfl, rfl, rfl⟩

theorem SameDesk.view_eq {session after : ActiveSession}
    (same : SameDesk session after) {name : String}
    (room : after.rooms.lookup name = session.rooms.lookup name) :
    after.view name = session.view name := by
  simp only [view, same.secrets, same.activity, room]

theorem SameDesk.view_written {session after : ActiveSession}
    (same : SameDesk session after) {name : String} {written : ChannelRoomSnapshot}
    (room : after.rooms.lookup name = some written) :
    after.view name = { session.view name with
      phase := some (written.phase, written.phaseStartedAtMs) } := by
  simp only [view, same.secrets, same.activity, room, Option.map_some]

/-- The moves of one room between two sessions, and what left the session
about it. -/
structure Handles (session after : ActiveSession) (sent : List Envelope)
    (name : String) (marks : List RoomMark) : Prop where
  source : after.source = session.source
  hubIdentity : after.hubIdentity = session.hubIdentity
  moves : RoomMoves (session.view name) marks (after.view name)
  joins : joinKeys name sent = joinsOf marks
  queued : aboutRoom name after.roomSecretActions =
    aboutRoom name session.roomSecretActions ++ secretsOf name marks

theorem Handles.trans {first second third : ActiveSession}
    {early late : List Envelope} {name : String} {before after : List RoomMark}
    (one : Handles first second early name before)
    (other : Handles second third late name after) :
    Handles first third (early ++ late) name (before ++ after) where
  source := other.source.trans one.source
  hubIdentity := other.hubIdentity.trans one.hubIdentity
  moves := one.moves.trans other.moves
  joins := by
    rw [joinKeys_append, joinsOf_append, one.joins, other.joins]
  queued := by
    rw [other.queued, one.queued, secretsOf_append, List.append_assoc]

/-- Nothing happened to the room. -/
theorem SameDesk.rests {session after : ActiveSession}
    (same : SameDesk session after) {name : String}
    (room : after.rooms.lookup name = session.rooms.lookup name) :
    Handles session after [] name [] where
  source := same.source
  hubIdentity := same.hubIdentity
  moves := by
    rw [same.view_eq room]
    exact .nil _
  joins := rfl
  queued := by
    rw [same.actions]
    exact (List.append_nil _).symm

end ActiveSession

end Ratspeak
