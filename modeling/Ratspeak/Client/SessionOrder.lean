import Ratspeak.Client.SessionRooms
import Ratspeak.Client.SessionWaits

/-!
# Joins in turn

A session joins one room at a time, whether its user asks or the tick joins
again what an earlier session had.  After a tick no wait for the hub is
longer than its limit.
-/

namespace Ratspeak

open Library

namespace ActiveSession

/-- At most one room is being joined. -/
def InTurn (session : ActiveSession) : Prop :=
  ∀ first second, session.phaseOf first = some .joining →
    session.phaseOf second = some .joining → first = second

/-- No room is being joined. -/
def Calm (session : ActiveSession) : Prop :=
  ∀ name, session.phaseOf name ≠ some .joining

/-- At most the given room is being joined. -/
theorem inTurn_of_only {session : ActiveSession} (room : String)
    (only : ∀ name, session.phaseOf name = some .joining → name = room) :
    session.InTurn :=
  fun first second isFirst isSecond =>
    (only first isFirst).trans (only second isSecond).symm

theorem InTurn.of_before {session after : ActiveSession} (inTurn : session.InTurn)
    (before : ∀ name, after.phaseOf name = some .joining →
      session.phaseOf name = some .joining) : after.InTurn :=
  fun first second isFirst isSecond =>
    inTurn first second (before first isFirst) (before second isSecond)

theorem view_joining {session : ActiveSession} {name : String}
    (joining : session.phaseOf name = some .joining) :
    ∃ since, (session.view name).phase = some (.joining, since) := by
  obtain ⟨room, known, phase⟩ := Option.map_eq_some_iff.mp joining
  exact ⟨_, view_phase known phase⟩

/-- Without a JOIN no room begins to be joined. -/
theorem joining_before {session after : ActiveSession} {name : String}
    {marks : List RoomMark} (moves : RoomMoves (session.view name) marks (after.view name))
    (noJoin : ∀ secret, RoomMark.requested secret ∉ marks)
    (joining : after.phaseOf name = some .joining) :
    session.phaseOf name = some .joining := by
  obtain ⟨since, viewed⟩ := view_joining joining
  rcases moves.joining viewed with ⟨secret, member⟩ | ⟨earlier, before⟩
  · exact absurd member (noJoin secret)
  · exact phaseOf_of_view before

theorem Settles.inTurn {allowed : String → RoomMark → Prop}
    {session after : ActiveSession} {sent : List Envelope}
    (settled : Settles allowed session after sent)
    (noJoin : ∀ name secret, ¬ allowed name (.requested secret))
    (inTurn : session.InTurn) : after.InTurn := by
  refine inTurn.of_before ?_
  intro name
  obtain ⟨marks, handles, all⟩ := settled name
  exact joining_before handles.moves fun secret member =>
    noJoin name secret (all _ member)

/-! ## Asking for a room -/

theorem calm_of_joiningRoom {session : ActiveSession}
    (free : session.joiningRoom = none) : session.Calm := by
  intro name joining
  obtain ⟨room, known, phase⟩ := Option.map_eq_some_iff.mp joining
  have none := List.find?_eq_none.mp (Option.map_eq_none_iff.mp free)
  have bound : (name, room) ∈ FiniteMap.bindings session.rooms :=
    (FiniteMap.mem_bindings_iff name room session.rooms).mpr known
  exact none (name, room) bound (decide_eq_true phase)

theorem phaseOf_insert (session : ActiveSession) {after : ActiveSession}
    {room : String} {written : ChannelRoomSnapshot}
    (rooms : after.rooms = session.rooms.insert room written) (name : String) :
    after.phaseOf name =
      if name = room then some written.phase else session.phaseOf name := by
  rw [phaseOf, rooms, FiniteMap.lookup_insert_ite]
  split <;> rfl

theorem phaseOf_erase (session : ActiveSession) {after : ActiveSession}
    {room : String} (rooms : after.rooms = session.rooms.erase room) (name : String) :
    after.phaseOf name =
      if name = room then none else session.phaseOf name := by
  rw [phaseOf, rooms, FiniteMap.lookup_erase_ite]
  split <;> rfl

theorem Request.inTurn {session : ActiveSession} {nowMs : Nat}
    {room : String} {secret : JoinSecretInput}
    {answer : SessionTurn × Except ChannelsError String}
    (request : Request session nowMs room secret answer)
    (inTurn : session.InTurn) : answer.1.session.InTurn := by
  have entered : session.joiningRoom = none → ∀ name,
      (session.beginJoin nowMs room).phaseOf name = some .joining →
        name = room := by
    intro free name joining
    rw [phaseOf_insert session rfl] at joining
    split at joining
    · assumption
    · exact absurd joining (calm_of_joiningRoom free name)
  cases request with
  | refused reason => exact inTurn
  | withdrawn free reason =>
      refine inTurn_of_only room ?_
      intro name joining
      rw [phaseOf_erase (session.beginJoin nowMs room) rfl] at joining
      split at joining
      · assumption
      · exact entered free name joining
  | sent free =>
      refine inTurn_of_only room ?_
      intro name joining
      refine entered free name ?_
      rw [phaseOf] at joining ⊢
      rw [← notePending_rooms _ room secret]
      exact joining

section Names

variable [UnicodeTables]

theorem Join.inTurn {session : ActiveSession} {nowMs : Nat} {room : String}
    {secret : JoinSecretInput} {answer : SessionTurn × Except ChannelsError String}
    (join : Join session nowMs room secret answer)
    (inTurn : session.InTurn) : answer.1.session.InTurn := by
  cases join with
  | settled outcome => exact inTurn
  | fresh named unknown request => exact request.inTurn inTurn
  | @retried name _ named failed request =>
      have taken : Settles (Quiet fun _ => False) session
          ((session.dropRoom name).dropSecret name) [] :=
        abandoned failed
      exact request.inTurn (taken.inTurn (fun _ _ => id) inTurn)

omit [UnicodeTables] in
theorem insertAutoRejoinError_inTurn {session : ActiveSession}
    (inTurn : session.InTurn) (nowMs : Nat) (room error : String) :
    (session.insertAutoRejoinError nowMs room error).InTurn := by
  refine inTurn.of_before ?_
  intro name joining
  rw [phaseOf_insert session rfl] at joining
  split at joining
  · cases joining
  · exact joining

theorem driveAutoRejoin_inTurn {session : ActiveSession} (inTurn : session.InTurn) (nowMs : Nat)
    (stored : String → StoredRoomKey) (send : SendResult) :
    (session.driveAutoRejoin nowMs stored send).session.InTurn := by
  have queued : ∀ rest,
      ({ session with autoRejoinQueue := rest } : ActiveSession).InTurn :=
    fun _ => inTurn
  have rejoin := driveAutoRejoin_rejoin session nowMs stored send
  generalize session.driveAutoRejoin nowMs stored send = turn at *
  cases rejoin with
  | busy => exact inTurn
  | done => exact queued []
  | @unable room rest next away error =>
      exact insertAutoRejoinError_inTurn (queued rest) nowMs room error
  | @joined room rest secret answer next away gives join =>
      have after := join.inTurn (queued rest)
      obtain ⟨turn, outcome⟩ := answer
      cases outcome with
      | ok name => exact after
      | error reason => exact insertAutoRejoinError_inTurn after nowMs room _

theorem tick_inTurn {session : ActiveSession} (inTurn : session.InTurn)
    (clock : ClientClock) (stored : String → StoredRoomKey) (send : SendResult) :
    (session.tick clock stored send).session.InTurn := by
  have expired : (session.expire clock).InTurn :=
    (expireAll_settles session clock).inTurn (fun _ _ => id) inTurn
  have kept : ((session.expire clock).keepKeys clock).InTurn := expired
  rw [tick_eq]
  exact driveAutoRejoin_inTurn kept clock.nowMs stored send

variable [WordTables]

/-- No step joins a room while another is being joined. -/
theorem step_inTurn (sha256 : List UInt8 → Bytes 32) {session : ActiveSession}
    (drained : session.roomSecretActions = []) (inTurn : session.InTurn)
    (input : SessionInput) :
    (session.step sha256 input).session.InTurn := by
  have unasked : (∀ name secret,
      ¬ Allows session input name (.requested secret)) →
      (session.step sha256 input).session.InTurn := by
    intro noJoin
    refine inTurn.of_before ?_
    intro name
    obtain ⟨marks, stepped, allowed⟩ := step_moves sha256 drained input name
    exact joining_before stepped.moves fun secret member =>
      noJoin name secret (allowed _ member)
  cases input with
  | join clock room secret send =>
      have joined :=
        (joinRoom_join session clock.nowMs room secret send).inTurn inTurn
      simp only [step]
      exact joined
  | ready clock origin desired stored send =>
      have prepared : ({ session with
          connectOrigin := origin }.prepareAutoRejoin desired).InTurn :=
        inTurn
      have driven := driveAutoRejoin_inTurn prepared clock.nowMs stored send
      simp only [step]
      exact driven
  | tick clock stored send taken =>
      have ticked := tick_inTurn inTurn clock stored send
      simp only [step]
      exact ticked
  | packet clock envelope encodedBytes send taken => exact unasked fun _ _ => id
  | part _ _ _ | text _ _ _ _ | refreshDirectory _ _ | renamed _ _
  | offer _ _ _ _ | transferEnded _ _ _ => exact unasked fun _ _ => id

end Names

end ActiveSession

end Ratspeak
