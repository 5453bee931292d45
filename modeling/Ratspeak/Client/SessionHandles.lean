import Ratspeak.Client.SessionMoves

/-!
# Every step of a session in moves

Each function of the session, and so each step of it, takes every room
through moves.  Answers of the hub are among them only where an envelope of
the hub itself is about the room.
-/

namespace Ratspeak

open Library

/-- The mark stands for an answer of the hub. -/
def RoomMark.IsAnswer : RoomMark → Prop
  | confirmed _ | affirmed | refused _ _ | kept => True
  | _ => False

namespace ActiveSession

/-- Each room went through moves, of the kinds that are allowed for it. -/
def Settles (allowed : String → RoomMark → Prop)
    (session after : ActiveSession) (sent : List Envelope) : Prop :=
  ∀ name, ∃ marks, Handles session after sent name marks ∧ ∀ mark ∈ marks, allowed name mark

/-- Neither an answer of the hub nor the end of a wait, and no JOINs but such
as may go out. -/
def Quiet (may : JoinSecretInput → Prop) (_name : String) :
    RoomMark → Prop
  | .requested secret => may secret
  | .confirmed _ | .affirmed | .refused _ _ | .kept | .timedOut _ => False
  | _ => True

variable {may : JoinSecretInput → Prop}

theorem Settles.trans {allowed : String → RoomMark → Prop}
    {first second third : ActiveSession} {early late : List Envelope}
    (one : Settles allowed first second early) (other : Settles allowed second third late) :
    Settles allowed first third (early ++ late) := by
  intro name
  obtain ⟨before, handlesBefore, allBefore⟩ := one name
  obtain ⟨after, handlesAfter, allAfter⟩ := other name
  refine ⟨before ++ after, handlesBefore.trans handlesAfter, ?_⟩
  intro mark member
  rcases List.mem_append.mp member with inBefore | inAfter
  · exact allBefore mark inBefore
  · exact allAfter mark inAfter

theorem Settles.weaken {narrow wide : String → RoomMark → Prop}
    {session after : ActiveSession} {sent : List Envelope}
    (settled : Settles narrow session after sent)
    (wider : ∀ name mark, narrow name mark → wide name mark) :
    Settles wide session after sent := by
  intro name
  obtain ⟨marks, handles, all⟩ := settled name
  exact ⟨marks, handles, fun mark member => wider name mark (all mark member)⟩

/-- Envelopes that are no JOINs change nothing about the moves. -/
theorem Settles.send {allowed : String → RoomMark → Prop}
    {session after : ActiveSession} {sent : List Envelope}
    (settled : Settles allowed session after []) (noJoins : ∀ name, joinKeys name sent = []) :
    Settles allowed session after sent := by
  intro name
  obtain ⟨marks, handles, all⟩ := settled name
  exact ⟨marks, { handles with joins := (noJoins name).trans handles.joins }, all⟩

/-- No room changed. -/
theorem SameDesk.settles {session after : ActiveSession}
    (same : SameDesk session after) (rooms : after.rooms = session.rooms)
    (allowed : String → RoomMark → Prop) :
    Settles allowed session after [] := by
  intro name
  refine ⟨[], same.rests (by rw [rooms]), ?_⟩
  intro mark member
  cases member

/-- One room was written, with the phase that it had. -/
theorem SameDesk.settles_insert {session after : ActiveSession}
    (same : SameDesk session after) {name : String} {room written : ChannelRoomSnapshot}
    (known : session.rooms.lookup name = some room) (phase : written.phase = room.phase)
    (since : written.phaseStartedAtMs = room.phaseStartedAtMs)
    (rooms : after.rooms = session.rooms.insert name written)
    (allowed : String → RoomMark → Prop) :
    Settles allowed session after [] := by
  intro tested
  refine ⟨[], ?_, fun mark member => by cases member⟩
  have unchanged : after.view tested = session.view tested := by
    by_cases equal : tested = name
    · subst equal
      have there : after.rooms.lookup tested = some written := by
        rw [rooms, FiniteMap.lookup_insert_ite, if_pos rfl]
      rw [same.view_written there]
      simp only [view, known, phase, since, Option.map_some]
    · refine same.view_eq ?_
      rw [rooms, FiniteMap.lookup_insert_ite, if_neg equal]
  exact {
    source := same.source
    hubIdentity := same.hubIdentity
    moves := by
      rw [unchanged]
      exact .nil _
    joins := rfl
    queued := by
      rw [same.actions]
      exact (List.append_nil _).symm }

/-- One room went through a move, and what left the session is what the move
says. -/
theorem settles_at {allowed : String → RoomMark → Prop}
    {session after : ActiveSession} {sent : List Envelope} {mark : RoomMark}
    (room : String) (source : after.source = session.source)
    (hubIdentity : after.hubIdentity = session.hubIdentity)
    (move : RoomMove (session.view room) mark (after.view room))
    (others : ∀ name, name ≠ room → after.view name = session.view name)
    (joins : ∀ name, joinKeys name sent =
      if name = room then joinsOf [mark] else [])
    (queued : ∀ name, aboutRoom name after.roomSecretActions =
      aboutRoom name session.roomSecretActions ++
        if name = room then mark.secrets room else [])
    (may : allowed room mark) : Settles allowed session after sent := by
  intro name
  by_cases equal : name = room
  · subst equal
    refine ⟨[mark], ⟨source, hubIdentity, .one move, ?_, ?_⟩, ?_⟩
    · rw [joins, if_pos rfl]
    · rw [queued, if_pos rfl, secretsOf, List.flatMap_singleton]
    · intro tested member
      rw [List.mem_singleton.mp member]
      exact may
  · refine ⟨[], ⟨source, hubIdentity, .nil_eq (others name equal), ?_, ?_⟩,
      by simp⟩
    · rw [joins, if_neg equal]
      rfl
    · rw [queued, if_neg equal]
      rfl

/-- One room went through a move of which nothing left the session. -/
theorem settles_silent {allowed : String → RoomMark → Prop}
    {session after : ActiveSession} {mark : RoomMark} (room : String)
    (source : after.source = session.source)
    (hubIdentity : after.hubIdentity = session.hubIdentity)
    (actions : after.roomSecretActions = session.roomSecretActions)
    (move : RoomMove (session.view room) mark (after.view room))
    (others : ∀ name, name ≠ room → after.view name = session.view name)
    (silent : joinsOf [mark] = []) (quiet : mark.secrets room = [])
    (may : allowed room mark) : Settles allowed session after [] := by
  refine settles_at room source hubIdentity move others ?_ ?_ may
  · intro name
    rw [silent, ite_self]
    rfl
  · intro name
    rw [quiet, ite_self, List.append_nil, actions]

/-! ## Joining -/

theorem joinKeys_joinEnvelope (session : ActiveSession) (nowMs : Nat)
    (room name : String) (key : Option String) :
    joinKeys name [session.joinEnvelope nowMs room key] =
      if name = room then [key] else [] := by
  have isText : (session.joinEnvelope nowMs room key).textBody = key := by
    cases key <;> rfl
  have named : (session.joinEnvelope nowMs room key).room = some room := rfl
  have isJoin : (session.joinEnvelope nowMs room key).messageType = .join :=
    rfl
  by_cases equal : name = room
  · simp [joinKeys, isJoin, named, equal, isText]
  · have differs : room ≠ name := Ne.symm equal
    simp [joinKeys, isJoin, named, equal, differs]

/-- A room that was entered and taken away again. -/
theorem released {session : ActiveSession} {room : String}
    (unknown : session.rooms.lookup room = none) (nowMs : Nat) :
    Settles (Quiet may) session ((session.beginJoin nowMs room).dropRoom room)
      [] := by
  refine settles_silent room rfl rfl rfl
    (.reaches (.release (by simp [view, unknown])) ?_) ?_ rfl rfl trivial
  · simp [view, beginJoin, dropRoom]
  · intro name different
    simp [view, beginJoin, dropRoom, different]

theorem view_notePending (session : ActiveSession) (room name : String)
    (secret : JoinSecretInput) :
    (session.notePending room secret).view name =
      { session.view name with
        secret :=
          if name = room then secret.pending.or (session.view name).secret
          else (session.view name).secret } := by
  unfold notePending
  cases secret.pending with
  | none => simp [view]
  | some pending =>
      by_cases equal : name = room
      · simp [view, equal]
      · simp [view, equal]

/-- Nothing but the keys changes when one is noted. -/
theorem notePending_rest (session : ActiveSession) (room : String) (secret : JoinSecretInput) :
    (session.notePending room secret).source = session.source ∧
      (session.notePending room secret).hubIdentity = session.hubIdentity ∧
      (session.notePending room secret).roomSecretActions =
        session.roomSecretActions := by
  unfold notePending
  split
  · exact ⟨rfl, rfl, rfl⟩
  · exact ⟨rfl, rfl, rfl⟩

theorem Request.settles {session : ActiveSession} {nowMs : Nat}
    {room : String} {secret : JoinSecretInput}
    {answer : SessionTurn × Except ChannelsError String}
    (request : Request session nowMs room secret answer)
    (unknown : session.rooms.lookup room = none) :
    Settles (Quiet fun asked => asked = secret) session answer.1.session
      answer.1.sent := by
  cases request with
  | refused reason => exact (SameDesk.refl session).settles rfl _
  | withdrawn free reason => exact released unknown nowMs
  | sent free =>
      obtain ⟨source, hubIdentity, actions⟩ :=
        notePending_rest (session.beginJoin nowMs room) room secret
      have viewed := view_notePending (session.beginJoin nowMs room) room
      refine settles_at room source hubIdentity (.reaches
        (.request secret nowMs (by simp [view, unknown])) ?_) ?_
        (fun name => joinKeys_joinEnvelope session nowMs room name
          secret.key) ?_ rfl
      · rw [viewed, if_pos rfl]
        simp [view, beginJoin, ChannelRoomSnapshot.joining]
      · intro name different
        rw [viewed, if_neg different]
        simp [view, beginJoin, different]
      · intro name
        have quiet : (RoomMark.requested secret).secrets room = [] := rfl
        rw [actions, quiet, ite_self, List.append_nil]
        rfl

/-- A failed room is taken away. -/
theorem abandoned {session : ActiveSession} {room : String}
    (failed : session.phaseOf room = some .error) :
    Settles (Quiet may) session ((session.dropRoom room).dropSecret room)
      [] := by
  obtain ⟨state, known, phase⟩ := Option.map_eq_some_iff.mp failed
  refine settles_silent room rfl rfl rfl
    (.reaches (.abandon (view_phase known phase)) ?_) ?_ rfl rfl trivial
  · simp [view, dropRoom, dropSecret]
  · intro name different
    simp [view, dropRoom, dropSecret, different]

theorem Join.settles [UnicodeTables] {session : ActiveSession} {nowMs : Nat}
    {room : String} {secret : JoinSecretInput}
    {answer : SessionTurn × Except ChannelsError String}
    (join : Join session nowMs room secret answer) :
    Settles (Quiet fun asked => asked = secret) session answer.1.session
      answer.1.sent := by
  cases join with
  | settled outcome => exact (SameDesk.refl session).settles rfl _
  | fresh named unknown request => exact request.settles unknown
  | retried named failed request =>
      refine (abandoned failed).trans (request.settles ?_)
      simp [dropRoom, dropSecret]

/-! ## Leaving -/

theorem joinKeys_of_type {sent : Envelope} (other : sent.messageType ≠ .join)
    (name : String) : joinKeys name [sent] = [] := by
  simp [joinKeys, other]

/-- The key of a room that is not being joined goes. -/
theorem unkeyed {session : ActiveSession} {room : String}
    (settled : session.phaseOf room ≠ some .joining) :
    Settles (Quiet may) session (session.dropSecret room) [] := by
  refine settles_silent room rfl rfl rfl (.reaches (.unkey ?_) ?_) ?_ rfl rfl trivial
  · intro since joining
    exact settled (phaseOf_of_view joining)
  · simp [view, dropSecret]
    rfl
  · intro name different
    simp [view, dropSecret, different]
    rfl

/-- A room was written, its key went, and the log has an entry for it. -/
theorem reentered {session : ActiveSession} {room : String}
    {written : ChannelRoomSnapshot} {mark : RoomMark} (move : RoomMove (session.view room) mark
      ⟨some (written.phase, written.phaseStartedAtMs), none, true⟩)
    (silent : joinsOf [mark] = []) (quiet : mark.secrets room = [])
    (plain : Quiet may room mark) :
    Settles (Quiet may) session
      { session.dropSecret room with
        roomActivity := session.roomActivity.insert room
        rooms := session.rooms.insert room written } [] := by
  refine settles_silent room rfl rfl rfl (move.reaches ?_) ?_ silent quiet plain
  · simp [view, dropSecret]
  · intro name different
    simp [view, dropSecret, different]

section Names

variable [UnicodeTables]

theorem partRoom_settles (session : ActiveSession) (nowMs : Nat)
    (room : String) (send : SendResult) :
    Settles (Quiet may) session (session.partRoom nowMs room send).1.session
      (session.partRoom nowMs room send).1.sent := by
  unfold partRoom
  cases normalizeRoom room session.maxRoomBytes with
  | error reason => exact (SameDesk.refl session).settles rfl _
  | ok name =>
      dsimp only
      have same : (session.dropSecret name).rooms = session.rooms := rfl
      rw [same]
      cases known : session.rooms.lookup name with
      | none =>
          refine unkeyed ?_
          simp [phaseOf, known]
      | some state =>
          have phase : (session.view name).phase =
              some (state.phase, state.phaseStartedAtMs) := by
            simp [view, known]
          cases send with
          | error reason => exact reentered (.partFail nowMs phase) rfl rfl trivial
          | ok taken =>
              have left : Settles (Quiet may) session
                  { session.dropSecret name with
                    roomActivity := session.roomActivity.insert name
                    rooms := session.rooms.insert name (state.enter nowMs .parting none) } [] :=
                reentered (.part nowMs phase) rfl rfl trivial
              refine left.send ?_
              exact joinKeys_of_type (by
                simp [partEnvelope, Envelope.roomCommand, Envelope.new])

theorem sendRoomText_settles (session : ActiveSession) (nowMs : Nat)
    (room text : String) (send : SendResult) :
    Settles (Quiet may) session
      (session.sendRoomText nowMs room text send).1.session
      (session.sendRoomText nowMs room text send).1.sent := by
  have still : Settles (Quiet may) session session [] :=
    (SameDesk.refl session).settles rfl _
  unfold sendRoomText
  split
  · exact still
  · cases normalizeRoom room session.maxRoomBytes with
    | error reason => exact still
    | ok name =>
        dsimp only
        split
        · exact still
        · split
          · exact still
          · cases send with
            | error reason => exact still
            | ok taken =>
                refine still.send (joinKeys_of_type ?_)
                unfold contentOf
                simp only [Envelope.roomText, Envelope.roomCommand, Envelope.new]
                split
                · split <;> simp
                · simp

/-! ## What the hub says -/

/-- A JOINED leaves the rooms alone, or one that is not being left is joined
then. -/
theorem applyJoined_rooms (session : ActiveSession) (nowMs : Nat) (envelope : Envelope) :
    SameSession session (session.applyJoined nowMs envelope) ∧
      ((session.applyJoined nowMs envelope).rooms = session.rooms ∨
        ∃ name room written,
          session.normalizedEnvelopeRoom envelope = some name ∧
          session.rooms.lookup name = some room ∧ room.phase ≠ .parting ∧
          written.phase = .joined ∧ written.phaseStartedAtMs = nowMs ∧
          (session.applyJoined nowMs envelope).rooms =
            session.rooms.insert name written) := by
  have same : SameSession session session := .refl session
  unfold applyJoined
  split
  · exact ⟨same, Or.inl rfl⟩
  · rename_i name named
    dsimp only
    split
    · exact ⟨{ same with }, Or.inl rfl⟩
    · rename_i room known
      split
      · exact ⟨{ same with }, Or.inl rfl⟩
      · rename_i stays
        split
        · exact ⟨{ same with }, Or.inl rfl⟩
        · split
          · exact ⟨{ same with }, Or.inr ⟨name, room, _, named, known, stays, rfl, rfl, rfl⟩⟩
          · exact ⟨{ same with }, Or.inr ⟨name, room, _, named, known, stays, rfl, rfl, rfl⟩⟩

/-- A status notice is about a room of the session: one that waits for its
confirmation is joined then, any other keeps its phase. -/
theorem applyRrcdRoomStatusNotice_rooms (session : ActiveSession)
    (nowMs : Nat) (envelope : Envelope) :
    SameSession session
        (session.applyRrcdRoomStatusNotice nowMs envelope).1 ∧
      (((session.applyRrcdRoomStatusNotice nowMs envelope).2 = false ∧
        (session.applyRrcdRoomStatusNotice nowMs envelope).1.rooms = session.rooms) ∨
      ∃ name room written, envelope.source = session.hubIdentity ∧
        (∃ status, envelope.textBody.bind (parseRrcdRoomStatus name) = some status) ∧
        session.normalizedEnvelopeRoom envelope = some name ∧
        session.rooms.lookup name = some room ∧
        (session.applyRrcdRoomStatusNotice nowMs envelope).2 = true ∧
        (session.applyRrcdRoomStatusNotice nowMs envelope).1.rooms =
          session.rooms.insert name written ∧
        (((room.phase = .joining ∨ room.phase = .error) ∧
            written.phase = .joined ∧ written.phaseStartedAtMs = nowMs) ∨
          (room.phase ≠ .joining ∧ room.phase ≠ .error ∧
            written.phase = room.phase ∧
            written.phaseStartedAtMs = room.phaseStartedAtMs))) := by
  have same : SameSession session session := .refl session
  unfold applyRrcdRoomStatusNotice
  split
  · exact ⟨same, Or.inl ⟨rfl, rfl⟩⟩
  · rename_i foreign
    have ours : envelope.source = session.hubIdentity :=
      not_not.mp foreign
    split
    · exact ⟨same, Or.inl ⟨rfl, rfl⟩⟩
    · rename_i name named
      split
      · exact ⟨same, Or.inl ⟨rfl, rfl⟩⟩
      · rename_i status read
        dsimp only
        split
        · exact ⟨{ same with }, Or.inl ⟨rfl, rfl⟩⟩
        · rename_i room known
          split
          · rename_i pending
            split
            · exact ⟨{ same with }, Or.inr ⟨name, room, _, ours,
                ⟨status, read⟩, named, known, rfl, rfl,
                Or.inl ⟨pending, rfl, rfl⟩⟩⟩
            · exact ⟨{ same with }, Or.inr ⟨name, room, _, ours,
                ⟨status, read⟩, named, known, rfl, rfl,
                Or.inl ⟨pending, rfl, rfl⟩⟩⟩
          · rename_i settled
            have separate := not_or.mp settled
            exact ⟨{ same with }, Or.inr ⟨name, room, _, ours,
              ⟨status, read⟩, named, known, rfl, rfl,
              Or.inr ⟨separate.1, separate.2, rfl, rfl⟩⟩⟩

/-- A PARTED takes away the room that the user leaves; any other keeps its
phase. -/
theorem applyParted_rooms (session : ActiveSession) (envelope : Envelope) :
    SameSession session (session.applyParted envelope) ∧
      (((session.applyParted envelope).rooms = session.rooms ∧
        session.confirmationContext envelope = none) ∨
      ∃ name room, session.normalizedEnvelopeRoom envelope = some name ∧
        session.rooms.lookup name = some room ∧
        ((room.phase = .parting ∧
            (session.applyParted envelope).rooms = session.rooms.erase name) ∨
          (room.phase ≠ .parting ∧ ∃ written : ChannelRoomSnapshot,
            written.phase = room.phase ∧
            written.phaseStartedAtMs = room.phaseStartedAtMs ∧
            (session.applyParted envelope).rooms =
              session.rooms.insert name written))) := by
  have same : SameSession session session := .refl session
  unfold applyParted
  split
  · rename_i unnamed
    exact ⟨same, Or.inl ⟨rfl, by simp [confirmationContext, unnamed]⟩⟩
  · rename_i name named
    split
    · rename_i unknown
      exact ⟨same, Or.inl ⟨rfl, by simp [confirmationContext, named, unknown]⟩⟩
    · rename_i room known
      split
      · rename_i leaving
        exact ⟨{ same with }, Or.inr ⟨name, room, named, known, Or.inl ⟨leaving, rfl⟩⟩⟩
      · rename_i stays
        refine ⟨{ same with }, Or.inr ⟨name, room, named, known,
          Or.inr ⟨stays, _, ?_, ?_, rfl⟩⟩⟩
        · rfl
        · rfl

/-! ## Confirmations -/

/-- The envelope shows that the user is in the room: it is a JOINED, or a
notice whose text is the status of the room. -/
def ShowsJoined (envelope : Envelope) (name : String) : Prop :=
  envelope.messageType = .joined ∨ envelope.messageType = .notice ∧
    ∃ status, envelope.textBody.bind (parseRrcdRoomStatus name) = some status

/-- What an envelope says of a room, and that it may. -/
def Tells (session : ActiveSession) (envelope : Envelope) (name : String) :
    RoomMark → Prop
  | .confirmed _ | .affirmed =>
      envelope.source = session.hubIdentity ∧ ShowsJoined envelope name ∧
        session.normalizedEnvelopeRoom envelope = some name
  | .refused _ hubText =>
      envelope.source = session.hubIdentity ∧
        envelope.messageType = .error ∧
        session.erroneousRoom envelope = some name ∧
        hubErrorText envelope = hubText
  | .kept =>
      envelope.source = session.hubIdentity ∧
        envelope.messageType = .error ∧
        session.erroneousRoom envelope = some name ∧
        session.phaseOf name = some .parting
  | .requested _ | .timedOut _ => False
  | _ => True

theorem tells_of_quiet {session : ActiveSession} {envelope : Envelope}
    {name : String} {mark : RoomMark} (quiet : Quiet (fun _ => False) name mark) :
    Tells session envelope name mark := by
  cases mark with
  | confirmed _ | affirmed | refused _ _ | kept | requested _ | timedOut _ =>
      exact quiet.elim
  | abandoned | released | unkeyed | parting | partFailed | left
  | rejoinFailed => exact trivial

omit [UnicodeTables] in
/-- The key of a room that is joined has proved itself. -/
theorem view_completePendingJoinSecret (session : ActiveSession) (room name : String) :
    (session.completePendingJoinSecret room).view name =
      if name = room then { session.view name with secret := none }
      else session.view name := by
  unfold completePendingJoinSecret
  cases known : session.pendingJoinSecrets.lookup room with
  | none =>
      by_cases equal : name = room
      · subst equal
        simp [view, known]
      · simp [equal]
  | some pending =>
      by_cases equal : name = room
      · subst equal
        simp [view, dropSecret]
        rfl
      · simp [view, dropSecret, equal]
        rfl

omit [UnicodeTables] in
theorem actions_completePendingJoinSecret (session : ActiveSession) (room name : String) :
    aboutRoom name
        (session.completePendingJoinSecret room).roomSecretActions =
      aboutRoom name session.roomSecretActions ++
        if name = room then
          ((session.view room).secret.bind (PendingSecret.action room)).toList
        else [] := by
  have own : ∀ pending : PendingJoinSecret,
      aboutRoom room (PendingSecret.action room pending).toList =
        (PendingSecret.action room pending).toList := by
    intro pending
    cases pending <;> simp [PendingSecret.action, aboutRoom, RoomSecretAction.room]
  have foreign : name ≠ room → ∀ pending : PendingJoinSecret,
      aboutRoom name (PendingSecret.action room pending).toList = [] := by
    intro different pending
    have apart : room ≠ name := different.symm
    cases pending <;> simp [PendingSecret.action, aboutRoom, RoomSecretAction.room, apart]
  unfold completePendingJoinSecret
  cases known : session.pendingJoinSecrets.lookup room with
  | none => simp [view, known]
  | some pending =>
      dsimp only
      rw [aboutRoom_append]
      have sameQueue : (session.dropSecret room).roomSecretActions =
          session.roomSecretActions := rfl
      by_cases equal : name = room
      · subst equal
        simp [view, known, own]
      · simp [foreign equal, equal]

/-- A room that waited for its confirmation is joined, and its key, where the
log has an entry for the room, has proved itself. -/
theorem confirmed_settles {session entered : ActiveSession}
    {envelope : Envelope} {name : String} {room written : ChannelRoomSnapshot}
    (same : SameDesk session entered) (known : session.rooms.lookup name = some room)
    (waits : room.phase = .joining ∨ room.phase = .error) (joined : written.phase = .joined)
    (rooms : entered.rooms = session.rooms.insert name written)
    (named : session.normalizedEnvelopeRoom envelope = some name)
    (told : ∀ proved, Tells session envelope name (.confirmed proved)) :
    Settles (Tells session envelope) session
      (entered.recordJoinConfirmation (session.confirmationContext envelope))
      [] := by
  have there : entered.rooms.lookup name = some written := by
    rw [rooms, FiniteMap.lookup_insert_ite, if_pos rfl]
  have phase : entered.phaseOf name = some .joined := by
    rw [phaseOf, there, Option.map_some, joined]
  have before : (session.view name).phase =
      some (room.phase, room.phaseStartedAtMs) := by
    simp [view, known]
  have others : ∀ tested, tested ≠ name →
      entered.view tested = session.view tested := by
    intro tested different
    refine same.view_eq ?_
    rw [rooms, FiniteMap.lookup_insert_ite, if_neg different]
  have mid : entered.view name = { session.view name with
      phase := some (.joined, written.phaseStartedAtMs) } := by
    rw [same.view_written there, joined]
  by_cases tracked : name ∈ session.roomActivity
  · have context : session.confirmationContext envelope =
        some (name, room.phase) := by
      simp [confirmationContext, named, known, tracked]
    have awaited : ¬ (room.phase = .joined ∨
        entered.phaseOf name ≠ some .joined) := by
      rintro (isJoined | notJoined)
      · rcases waits with isJoining | isError
        · rw [isJoining] at isJoined
          cases isJoined
        · rw [isError] at isJoined
          cases isJoined
      · exact notJoined phase
    have record : entered.recordJoinConfirmation (some (name, room.phase)) =
        entered.completePendingJoinSecret name := by
      simp only [recordJoinConfirmation]
      rw [if_neg awaited]
    rw [context, record]
    have isTracked : (session.view name).tracked = true := by
      simp [view, tracked]
    have own : (entered.completePendingJoinSecret name).source =
        session.source := by
      unfold completePendingJoinSecret
      split <;> exact same.source
    have hub : (entered.completePendingJoinSecret name).hubIdentity =
        session.hubIdentity := by
      unfold completePendingJoinSecret
      split <;> exact same.hubIdentity
    have viewed := view_completePendingJoinSecret entered name
    have queue := actions_completePendingJoinSecret entered name
    have move := RoomMove.confirm written.phaseStartedAtMs before waits
    rw [if_pos isTracked, if_pos isTracked] at move
    refine settles_at name own hub (move.reaches ?_) ?_ (fun _ => (ite_self _).symm) ?_ (told _)
    · rw [viewed, if_pos rfl, mid]
    · intro tested different
      rw [viewed, if_neg different, others tested different]
    · intro tested
      rw [queue, same.actions, mid]
      rfl
  · have context : session.confirmationContext envelope = none := by
      simp [confirmationContext, named, known, tracked]
    have untracked : (session.view name).tracked = false := by
      simp [view, tracked]
    have unchanged : ∀ tested, (entered.recordJoinConfirmation none).view
        tested = entered.view tested := fun _ => rfl
    have move := RoomMove.confirm written.phaseStartedAtMs before waits
    simp only [untracked, Bool.false_eq_true, if_false] at move
    rw [context]
    refine settles_silent name same.source same.hubIdentity same.actions
      (move.reaches ?_) ?_ rfl rfl (told _)
    · rw [unchanged, mid]
      simp only [untracked]
    · intro tested different
      rw [unchanged, others tested different]

/-- Where no room changed its phase, a confirmation does nothing. -/
theorem recordJoinConfirmation_idle {session after : ActiveSession} {envelope : Envelope}
    (phases : ∀ name, after.phaseOf name = session.phaseOf name) :
    after.recordJoinConfirmation (session.confirmationContext envelope) =
      after := by
  cases context : session.confirmationContext envelope with
  | none => rfl
  | some confirmation =>
      obtain ⟨name, prior⟩ := confirmation
      have known : session.phaseOf name = some prior := by
        obtain ⟨tested, -, inRooms⟩ := Option.bind_eq_some_iff.mp context
        obtain ⟨room, isRoom, paired⟩ := Option.bind_eq_some_iff.mp inRooms
        split at paired
        · have pair := Option.some.inj paired
          have isName : tested = name := (Prod.ext_iff.mp pair).1
          rw [phaseOf, ← isName, isRoom, Option.map_some]
          exact congrArg some (Prod.ext_iff.mp pair).2
        · cases paired
      simp only [recordJoinConfirmation]
      rw [if_pos]
      by_cases joined : prior = .joined
      · exact Or.inl joined
      · refine Or.inr ?_
        rw [phases, known]
        intro equal
        exact joined (Option.some.inj equal)

theorem joined_settles (session : ActiveSession) (nowMs : Nat)
    (envelope : Envelope) (isJoined : envelope.messageType = .joined)
    (fromHub : envelope.source = session.hubIdentity) :
    Settles (Tells session envelope) session
      ((session.applyJoined nowMs envelope).recordJoinConfirmation
        (session.confirmationContext envelope)) [] := by
  obtain ⟨⟨same, -, -, -⟩, outcome⟩ := applyJoined_rooms session nowMs envelope
  rcases outcome with
    rooms | ⟨name, room, written, named, known, stays, joined, since, rooms⟩
  · rw [recordJoinConfirmation_idle (by
      intro name
      rw [phaseOf, rooms, phaseOf])]
    exact same.settles rooms _
  · have told : ∀ proved, Tells session envelope name (.confirmed proved) :=
      fun _ => ⟨fromHub, Or.inl isJoined, named⟩
    cases phase : room.phase with
    | parting => exact absurd phase stays
    | joining =>
        exact confirmed_settles same known (Or.inl phase) joined rooms named told
    | error => exact confirmed_settles same known (Or.inr phase) joined rooms named told
    | joined =>
        rw [recordJoinConfirmation_idle (by
          intro tested
          rw [phaseOf, rooms, FiniteMap.lookup_insert_ite]
          split
          · rename_i equal
            subst equal
            rw [phaseOf, known, Option.map_some, Option.map_some, joined, phase]
          · rfl)]
        have there : (session.applyJoined nowMs envelope).rooms.lookup
            name = some written := by
          rw [rooms, FiniteMap.lookup_insert_ite, if_pos rfl]
        refine settles_silent name same.source same.hubIdentity same.actions
          (.reaches (.affirm nowMs (view_phase known phase)) ?_) ?_ rfl rfl
          ⟨fromHub, Or.inl isJoined, named⟩
        · rw [same.view_written there, joined, since]
        · intro tested different
          refine same.view_eq ?_
          rw [rooms, FiniteMap.lookup_insert_ite, if_neg different]

/-- A status notice that is one. -/
theorem status_settles (session : ActiveSession) (nowMs : Nat)
    (envelope : Envelope) (isNotice : envelope.messageType = .notice)
    (read : (session.applyRrcdRoomStatusNotice nowMs envelope).2 = true) :
    Settles (Tells session envelope) session
      ((session.applyRrcdRoomStatusNotice nowMs
        envelope).1.recordJoinConfirmation
          (session.confirmationContext envelope)) [] := by
  obtain ⟨⟨same, -, -, -⟩, outcome⟩ :=
    applyRrcdRoomStatusNotice_rooms session nowMs envelope
  rcases outcome with
    ⟨unread, -⟩ | ⟨name, room, written, fromHub, status, named, known, -, rooms,
      (⟨waits, joined, -⟩ | ⟨notJoining, notFailed, phase, since⟩)⟩
  · rw [unread] at read
    cases read
  · exact confirmed_settles same known waits joined rooms named
      fun _ => ⟨fromHub, Or.inr ⟨isNotice, status⟩, named⟩
  · rw [recordJoinConfirmation_idle (by
      intro tested
      rw [phaseOf, rooms, FiniteMap.lookup_insert_ite]
      split
      · rename_i equal
        subst equal
        rw [phaseOf, known, Option.map_some, Option.map_some, phase]
      · rfl)]
    exact same.settles_insert known phase since rooms _

theorem parted_settles (session : ActiveSession) (envelope : Envelope) :
    Settles (Quiet may) session
      ((session.applyParted envelope).recordPartConfirmation
        (session.confirmationContext envelope)) [] := by
  obtain ⟨⟨same, -, -, -⟩, outcome⟩ := applyParted_rooms session envelope
  rcases outcome with
    ⟨rooms, context⟩ | ⟨name, room, named, known,
      (⟨leaving, rooms⟩ | ⟨stays, written, phase, since, rooms⟩)⟩
  · rw [context]
    exact same.settles rooms _
  · have gone : ∀ after : ActiveSession,
        after.rooms = session.rooms.erase name →
        SameDesk session { after with
          roomActivity := session.roomActivity } →
        (∀ tested, tested ∈ after.roomActivity ↔
          tested ∈ session.roomActivity ∧ tested ≠ name) →
        Settles (Quiet may) session after [] := by
      intro after erased desk activity
      have secrets : after.pendingJoinSecrets = session.pendingJoinSecrets :=
        desk.secrets
      refine settles_silent name desk.source desk.hubIdentity desk.actions
        (.reaches (.leave (view_phase known leaving)) ?_) ?_ rfl rfl trivial
      · simp [view, erased, secrets, activity]
      · intro tested different
        simp [view, erased, secrets, activity, different]
    by_cases tracked : name ∈ session.roomActivity
    · have context : session.confirmationContext envelope =
          some (name, room.phase) := by
        simp [confirmationContext, named, known, tracked]
      rw [context, leaving]
      refine gone _ rooms ⟨same.source, same.hubIdentity, same.secrets, rfl, same.actions⟩ ?_
      intro tested
      simp [recordPartConfirmation, same.activity, and_comm]
    · have context : session.confirmationContext envelope = none := by
        simp [confirmationContext, named, known, tracked]
      rw [context]
      refine gone _ rooms ⟨same.source, same.hubIdentity, same.secrets, rfl, same.actions⟩ ?_
      intro tested
      simp only [recordPartConfirmation, same.activity]
      constructor
      · intro member
        refine ⟨member, ?_⟩
        rintro rfl
        exact tracked member
      · exact And.left
  · have idle : (session.applyParted envelope).recordPartConfirmation
        (session.confirmationContext envelope) =
          session.applyParted envelope := by
      by_cases tracked : name ∈ session.roomActivity
      · have context : session.confirmationContext envelope =
            some (name, room.phase) := by
          simp [confirmationContext, named, known, tracked]
        simp only [context, recordPartConfirmation]
        rw [if_pos stays]
      · have context : session.confirmationContext envelope = none := by
          simp [confirmationContext, named, known, tracked]
        rw [context]
        rfl
    rw [idle]
    exact same.settles_insert known phase since rooms _

/-! ## Errors of the hub -/

omit [UnicodeTables] in
theorem aboutRoom_errorAction (name tested : String)
    (pending : Option PendingJoinSecret) (hubText : String) :
    aboutRoom tested (errorAction name true pending hubText).toList =
      if tested = name then (errorAction name true pending hubText).toList
      else [] := by
  have about : ∀ action : RoomSecretAction, action.room = name →
      aboutRoom tested [action] =
        if tested = name then [action] else [] := by
    intro action isName
    by_cases equal : tested = name
    · simp [aboutRoom, isName, equal]
    · simp [aboutRoom, isName, equal, Ne.symm equal]
  unfold errorAction
  split
  · split
    · exact about _ rfl
    · exact about _ rfl
  · simp [aboutRoom]

theorem appendError_settles (session : ActiveSession) (nowMs : Nat)
    (envelope : Envelope) (isError : envelope.messageType = .error)
    (fromHub : envelope.source = session.hubIdentity) :
    Settles (Tells session envelope) session
      (session.appendError nowMs envelope) [] := by
  have noticed : ∀ after : ActiveSession, SameDesk session after →
      after.rooms = session.rooms →
      Settles (Tells session envelope) session after [] :=
    fun after same rooms => same.settles rooms _
  unfold appendError
  dsimp only
  cases erroneous : session.erroneousRoom envelope with
  | none => exact noticed _ ⟨rfl, rfl, rfl, rfl, rfl⟩ rfl
  | some name =>
      dsimp only
      cases known : session.rooms.lookup name with
      | none => exact noticed _ ⟨rfl, rfl, rfl, rfl, rfl⟩ rfl
      | some room =>
          dsimp only
          have about : ∀ tested pending, aboutRoom tested
              (session.roomSecretActions ++ (errorAction name true pending
                (hubErrorText envelope)).toList) =
              aboutRoom tested session.roomSecretActions ++
                if tested = name then
                  (errorAction name true pending (hubErrorText envelope)).toList
                else [] := by
            intro tested pending
            rw [aboutRoom_append, aboutRoom_errorAction]
          have silent : ∀ pending, session.roomSecretActions ++
              (errorAction name false pending
                (hubErrorText envelope)).toList = session.roomSecretActions :=
            fun _ => List.append_nil _
          cases phase : room.phase with
          | joining =>
              simp only [decide_true, if_true]
              refine settles_at name rfl rfl (.reaches (.refuse nowMs
                (hubErrorText envelope) (view_phase known phase)) ?_) ?_
                (fun _ => (ite_self _).symm) (fun tested => about tested _)
                ⟨fromHub, isError, erroneous, rfl⟩
              · simp [view, appendRoomItem, dropSecret,
                  ChannelRoomSnapshot.withItem,
                  ChannelRoomSnapshot.withError, phase,
                  ChannelRoomSnapshot.enter]
              · intro tested different
                simp [view, appendRoomItem, dropSecret, different]
                rfl
          | parting =>
              simp only [reduceCtorEq, decide_false, Bool.false_eq_true, if_false, silent]
              refine settles_silent name rfl rfl rfl (.reaches (.keep nowMs
                (view_phase known phase)) ?_) ?_ rfl rfl
                ⟨fromHub, isError, erroneous, by simp [phaseOf, known, phase]⟩
              · simp [view, appendRoomItem, ChannelRoomSnapshot.withItem,
                  ChannelRoomSnapshot.withError, phase,
                  ChannelRoomSnapshot.enter]
              · intro tested different
                simp [view, appendRoomItem, different]
                rfl
          | joined | error =>
              simp only [reduceCtorEq, decide_false, Bool.false_eq_true, if_false, silent]
              refine SameDesk.settles_insert ?_ known ?_ ?_ rfl _
              · exact ⟨rfl, rfl, rfl, rfl, rfl⟩
              · simp [ChannelRoomSnapshot.withItem, ChannelRoomSnapshot.withError, phase]
              · simp [ChannelRoomSnapshot.withItem, ChannelRoomSnapshot.withError, phase]

end Names

end ActiveSession

end Ratspeak
