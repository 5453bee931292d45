import Ratspeak.Client.SessionTurns

/-!
# The rooms of a session

What holds of every room, as a condition on its name and on what the session
has of it.  The functions that ask for rooms keep a condition that new and
failed rooms meet; so after a tick no wait for the hub is longer than its
limit.
-/

namespace Ratspeak

open Library

namespace ActiveSession

variable {holds : String → ChannelRoomSnapshot → Prop}

/-- The condition holds of every room. -/
def AllRooms (holds : String → ChannelRoomSnapshot → Prop) (session : ActiveSession) : Prop :=
  ∀ name room, session.rooms.lookup name = some room → holds name room

theorem AllRooms.same {session after : ActiveSession}
    (all : session.AllRooms holds) (rooms : after.rooms = session.rooms) :
    after.AllRooms holds := by
  intro name room known
  rw [rooms] at known
  exact all name room known

theorem AllRooms.insert {session after : ActiveSession} {name : String}
    {written : ChannelRoomSnapshot} (all : session.AllRooms holds)
    (fits : holds name written) (rooms : after.rooms = session.rooms.insert name written) :
    after.AllRooms holds := by
  intro tested room known
  rw [rooms, FiniteMap.lookup_insert_ite] at known
  split at known
  · rename_i equal
    rw [equal, ← Option.some.inj known]
    exact fits
  · exact all tested room known

theorem AllRooms.erase {session after : ActiveSession} {name : String}
    (all : session.AllRooms holds) (rooms : after.rooms = session.rooms.erase name) :
    after.AllRooms holds := by
  intro tested room known
  rw [rooms, FiniteMap.lookup_erase_ite] at known
  split at known
  · cases known
  · exact all tested room known

/-! ## Asking for rooms -/

/-- The condition holds of rooms that are asked for at a time, and of rooms
whose rejoin failed then. -/
structure Starts (holds : String → ChannelRoomSnapshot → Prop)
    (nowMs : Nat) : Prop where
  joining : ∀ name, holds name (.joining nowMs name)
  failed : ∀ name error, holds name (.failed nowMs name error)

variable {nowMs : Nat}

theorem notePending_rooms (session : ActiveSession) (room : String) (secret : JoinSecretInput) :
    (session.notePending room secret).rooms = session.rooms := by
  unfold notePending
  split <;> rfl

theorem Request.rooms {session : ActiveSession} {room : String} {secret : JoinSecretInput}
    {answer : SessionTurn × Except ChannelsError String}
    (request : Request session nowMs room secret answer)
    (starts : Starts holds nowMs) (all : session.AllRooms holds) :
    answer.1.session.AllRooms holds := by
  have entered : (session.beginJoin nowMs room).AllRooms holds :=
    all.insert (starts.joining room) rfl
  cases request with
  | refused reason => exact all
  | withdrawn free reason => exact entered.erase rfl
  | sent free => exact entered.same (notePending_rooms _ room secret)

theorem insertAutoRejoinError_rooms {session : ActiveSession}
    (starts : Starts holds nowMs) (all : session.AllRooms holds) (room error : String) :
    (session.insertAutoRejoinError nowMs room error).AllRooms holds :=
  all.insert (starts.failed room error) rfl

section Names

variable [UnicodeTables]

theorem Join.rooms {session : ActiveSession} {room : String} {secret : JoinSecretInput}
    {answer : SessionTurn × Except ChannelsError String}
    (join : Join session nowMs room secret answer)
    (starts : Starts holds nowMs) (all : session.AllRooms holds) :
    answer.1.session.AllRooms holds := by
  cases join with
  | settled outcome => exact all
  | fresh named unknown request => exact request.rooms starts all
  | retried named failed request =>
      refine request.rooms starts ?_
      exact all.erase rfl

theorem driveAutoRejoin_rooms {session : ActiveSession}
    (starts : Starts holds nowMs) (all : session.AllRooms holds)
    (stored : String → StoredRoomKey) (send : SendResult) :
    (session.driveAutoRejoin nowMs stored send).session.AllRooms holds := by
  have queued : ∀ rest, ({ session with
      autoRejoinQueue := rest } : ActiveSession).AllRooms holds :=
    fun _ => all.same rfl
  have rejoin := driveAutoRejoin_rejoin session nowMs stored send
  generalize session.driveAutoRejoin nowMs stored send = turn at *
  cases rejoin with
  | busy => exact all
  | done => exact queued []
  | @unable room rest next away error =>
      exact insertAutoRejoinError_rooms starts (queued rest) room error
  | @joined room rest secret answer next away gives join =>
      have after := join.rooms starts (queued rest)
      obtain ⟨turn, outcome⟩ := answer
      cases outcome with
      | ok name => exact after.same rfl
      | error reason => exact insertAutoRejoinError_rooms starts after room _

/-! ## The tick -/

/-- A wait for the hub is not over its limit. -/
def Punctual (nowMs : Nat) (_name : String) (room : ChannelRoomSnapshot) :
    Prop :=
  joinTimedOut nowMs room = false ∧ partTimedOut nowMs room = false

omit [UnicodeTables] in
theorem starts_punctual (nowMs : Nat) : Starts (Punctual nowMs) nowMs where
  joining := by
    intro name
    simp [Punctual, joinTimedOut, partTimedOut, ChannelRoomSnapshot.joining, joinConfirmTimeout]
  failed := by
    intro name error
    simp [Punctual, joinTimedOut, partTimedOut, ChannelRoomSnapshot.failed]

omit [UnicodeTables] in
theorem expire_punctual (session : ActiveSession) (clock : ClientClock) :
    (session.expire clock).AllRooms (Punctual clock.nowMs) := by
  intro name room known
  rw [(expire_rooms session clock).2] at known
  simp only [expireRoomTransitions, FiniteMap.lookup_mapValues,
    FiniteMap.lookup_retain] at known
  obtain ⟨before, isBefore, written⟩ := Option.map_eq_some_iff.mp known
  obtain ⟨-, inTime⟩ := Option.filter_eq_some_iff.mp isBefore
  have notParted : partTimedOut clock.nowMs before = false := by
    simpa using inTime
  rw [← written, expireRoom]
  by_cases late : joinTimedOut clock.nowMs before = true
  · rw [if_pos late]
    simp [Punctual, joinTimedOut, partTimedOut, ChannelRoomSnapshot.enter]
  · rw [if_neg late]
    exact ⟨Bool.eq_false_iff.mpr late, notParted⟩

theorem tick_punctual (session : ActiveSession) (clock : ClientClock)
    (stored : String → StoredRoomKey) (send : SendResult) :
    (session.tick clock stored send).session.AllRooms
      (Punctual clock.nowMs) := by
  have kept : ((session.expire clock).keepKeys clock).AllRooms
      (Punctual clock.nowMs) := (expire_punctual session clock).same rfl
  rw [tick_eq]
  exact driveAutoRejoin_rooms (starts_punctual clock.nowMs) kept stored send

/-- After a tick no wait for the hub is longer than its limit, though the
tick may begin one. -/
theorem punctual_after_tick [WordTables] (sha256 : List UInt8 → Bytes 32)
    (session : ActiveSession) (clock : ClientClock)
    (stored : String → StoredRoomKey) (send : SendResult) (taken : Nat) :
    (session.step sha256 (.tick clock stored send taken)).session.AllRooms
      (Punctual clock.nowMs) := by
  have ticked := tick_punctual session clock stored send
  simp only [step]
  exact ticked.same rfl

end Names

end ActiveSession

end Ratspeak
