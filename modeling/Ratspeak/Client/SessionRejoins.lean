import Ratspeak.Client.SessionGreeting

/-!
# Joins that nobody asked for

Without its user a session joins only rooms of the list that it was given when
it came up: in the order of the list, none more often than the list has it,
and with what is stored for the room.
-/

namespace Ratspeak

open Library

namespace SessionInput

def isReady : SessionInput → Bool
  | ready _ _ _ _ _ => true
  | _ => false

/-- What is stored of the rooms when the session may join on its own. -/
def stored? : SessionInput → Option (String → StoredRoomKey)
  | ready _ _ _ stored _ | tick _ stored _ _ => some stored
  | _ => none

end SessionInput

/-- Some JOIN for a room is among the envelopes. -/
def carriesJoin (sent : List Envelope) : Bool :=
  sent.any fun envelope => envelope.messageType = .join && envelope.room.isSome

/-- A JOIN went out that is not the answer to the user's wish. -/
def SessionEntry.isAutomatic (entry : SessionEntry) : Bool :=
  match entry.1 with
  | .join _ _ _ _ => false
  | _ => carriesJoin entry.2.report.sent

theorem carriesJoin_of_joinKeys {sent : List Envelope}
    (none : ∀ name, joinKeys name sent = []) : carriesJoin sent = false := by
  refine List.any_eq_false.mpr ?_
  intro envelope member joins
  simp only [Bool.and_eq_true, decide_eq_true_eq] at joins
  obtain ⟨name, named⟩ := Option.isSome_iff_exists.mp joins.2
  have kept := List.filter_eq_nil_iff.mp (List.map_eq_nil_iff.mp (none name)) envelope member
  exact kept (decide_eq_true ⟨joins.1, named⟩)

namespace ActiveSession

section Names

variable [UnicodeTables]

/-- One JOIN went out, for the room of this name and with this key. -/
def JoinSent (room : String) (key : Option String) (sent : List Envelope) :
    Prop :=
  ∃ limit name envelope, normalizeRoom room limit = .ok name ∧
    sent = [envelope] ∧ envelope.messageType = .join ∧
    envelope.room = some name ∧ envelope.textBody = key

/-- The room was joined without the user, with what is stored for it. -/
def Rejoined (room : String) (entry : SessionEntry) : Prop :=
  ∃ stored secret, entry.1.stored? = some stored ∧
    (stored room).Gives secret ∧
    JoinSent room secret.key entry.2.report.sent

theorem Join.sent {session : ActiveSession} {nowMs : Nat} {room : String}
    {secret : JoinSecretInput} {answer : SessionTurn × Except ChannelsError String}
    (join : Join session nowMs room secret answer) :
    answer.1.sent = [] ∨ JoinSent room secret.key answer.1.sent := by
  have asked : ∀ {before : ActiveSession} {name : String},
      normalizeRoom room session.maxRoomBytes = .ok name →
      Request before nowMs name secret answer →
        answer.1.sent = [] ∨ JoinSent room secret.key answer.1.sent := by
    intro before name named request
    cases request with
    | refused reason => exact Or.inl rfl
    | withdrawn free reason => exact Or.inl rfl
    | sent free =>
        refine Or.inr ⟨_, name, _, named, rfl, rfl, rfl, ?_⟩
        cases secret.key <;> rfl
  cases join with
  | settled outcome => exact Or.inl rfl
  | fresh named unknown request => exact asked named request
  | retried named failed request => exact asked named request

/-- At the entry no JOIN went out but for the user, or some room of the queue
was joined; only what was behind it is left. -/
def Spends (queue : List String) (entry : SessionEntry) : Prop :=
  (entry.isAutomatic = false ∧
      entry.2.report.session.autoRejoinQueue <:+ queue) ∨
    ∃ room rest, (room :: rest) <:+ queue ∧
      entry.2.report.session.autoRejoinQueue <:+ rest ∧
      entry.isAutomatic = true ∧ Rejoined room entry

/-- What the driver of the rejoins does at an entry. -/
theorem Rejoin.spends {session : ActiveSession} {nowMs : Nat}
    {stored : String → StoredRoomKey} {turn : SessionTurn}
    {entry : SessionEntry} (rejoin : Rejoin session nowMs stored turn)
    (isStored : entry.1.stored? = some stored) (sent : entry.2.report.sent = turn.sent)
    (left : entry.2.report.session.autoRejoinQueue = turn.session.autoRejoinQueue) :
    Spends session.autoRejoinQueue entry := by
  have automatic : entry.isAutomatic = carriesJoin turn.sent := by
    unfold SessionEntry.isAutomatic
    split
    · rename_i isJoin
      rw [isJoin] at isStored
      cases isStored
    · rw [sent]
  have idle : turn.sent = [] → turn.session.autoRejoinQueue <:+
      session.autoRejoinQueue → Spends session.autoRejoinQueue entry := by
    intro nothing behind
    refine Or.inl ⟨?_, left ▸ behind⟩
    rw [automatic, nothing]
    rfl
  cases rejoin with
  | busy => exact idle rfl List.suffix_rfl
  | done => exact idle rfl List.nil_suffix
  | unable next away error => exact idle rfl ((List.suffix_cons _ _).trans next)
  | @joined room rest secret answer next away gives join =>
      have behind : (SessionTurn.concludeRejoin nowMs room
          answer).session.autoRejoinQueue <:+ rest := by
        have kept := join.keeps.rejoins
        obtain ⟨turn, outcome⟩ := answer
        cases outcome with
        | ok name => exact kept
        | error reason => exact kept
      rcases join.sent with nothing | out
      · exact idle nothing (behind.trans ((List.suffix_cons room rest).trans next))
      · refine Or.inr ⟨room, rest, next, left ▸ behind, ?_, stored, secret,
          isStored, gives, sent ▸ out⟩
        obtain ⟨limit, name, envelope, -, alone, isJoin, named, -⟩ := out
        rw [automatic, show (SessionTurn.concludeRejoin nowMs room
          answer).sent = [envelope] from alone]
        simp [carriesJoin, isJoin, named]

/-- Entries in which each room is joined in turn. -/
def InOrder (queue : List String) (trace : List SessionEntry) : Prop :=
  ∃ rooms, rooms.Sublist queue ∧
    List.Forall₂ Rejoined rooms (trace.filter SessionEntry.isAutomatic)

theorem Spends.inOrder {queue : List String} {entry : SessionEntry}
    {trace : List SessionEntry} (spends : Spends queue entry)
    (later : InOrder entry.2.report.session.autoRejoinQueue trace) :
    InOrder queue (entry :: trace) := by
  obtain ⟨rooms, sublist, rejoined⟩ := later
  rcases spends with ⟨quiet, left⟩ | ⟨room, rest, suffix, left, joins, first⟩
  · refine ⟨rooms, sublist.trans left.sublist, ?_⟩
    rw [List.filter_cons_of_neg (by rw [quiet]; exact Bool.false_ne_true)]
    exact rejoined
  · refine ⟨room :: rooms, ((sublist.trans left.sublist).cons_cons room).trans
      suffix.sublist, ?_⟩
    rw [List.filter_cons_of_pos joins]
    exact .cons first rejoined

variable [WordTables]

theorem ready_spends (sha256 : List UInt8 → Bytes 32)
    (session : ActiveSession) (clock : ClientClock) (origin : ConnectOrigin)
    (desired : List String) (stored : String → StoredRoomKey) (send : SendResult) :
    Spends ({ session with connectOrigin := origin }.prepareAutoRejoin
        desired).autoRejoinQueue
      (.ready clock origin desired stored send, session.record sha256
        (.ready clock origin desired stored send)) :=
  (driveAutoRejoin_rejoin _ clock.nowMs stored send).spends rfl rfl rfl

theorem step_spends (sha256 : List UInt8 → Bytes 32) {session : ActiveSession}
    (drained : session.roomSecretActions = []) {input : SessionInput}
    (other : input.isReady = false) :
    Spends session.autoRejoinQueue (input, session.record sha256 input) := by
  have quiet : (∀ name secret,
      ¬ Allows session input name (.requested secret)) →
      carriesJoin (session.step sha256 input).sent = false := by
    intro unasked
    refine carriesJoin_of_joinKeys fun name => ?_
    obtain ⟨marks, stepped, allowed⟩ := step_moves sha256 drained input name
    rw [stepped.joins]
    refine List.filterMap_eq_nil_iff.mpr fun mark member => ?_
    cases mark with
    | requested secret => exact absurd (allowed _ member) (unasked name secret)
    | _ => rfl
  have plainly := fun plain =>
    (@step_keeps _ _ sha256 session input plain).rejoins
  cases input with
  | ready clock origin desired stored send => cases other
  | join clock room secret send => exact Or.inl ⟨rfl, plainly rfl⟩
  | part _ _ _ | text _ _ _ _ | refreshDirectory _ _ | renamed _ _ =>
      exact Or.inl ⟨quiet fun _ _ => id, plainly rfl⟩
  | tick clock stored send taken =>
      have queue : ((session.expire clock).keepKeys clock).autoRejoinQueue =
          session.autoRejoinQueue := by
        unfold expire expireDirectoryRequest
        split <;> rfl
      rw [← queue]
      exact (driveAutoRejoin_rejoin _ clock.nowMs stored send).spends rfl rfl
        rfl
  | packet clock envelope encodedBytes send taken =>
      refine Or.inl ⟨quiet fun _ _ => id, ?_⟩
      rcases handleEnvelope_greeting session clock envelope encodedBytes send
        with keeps | ⟨-, same, -⟩
      · exact keeps.rejoins
      · exact same ▸ List.suffix_rfl
  | offer clock offer accepted answeredAt =>
      exact Or.inl ⟨quiet fun _ _ => id, List.suffix_rfl⟩
  | transferEnded clock index result =>
      refine Or.inl ⟨quiet fun _ _ => id, ?_⟩
      unfold record step endTransfer
      dsimp only
      split
      · exact List.suffix_rfl
      · exact List.suffix_rfl

/-- Until the next time that a session comes up, its own joins follow the
queue. -/
theorem trace_inOrder (sha256 : List UInt8 → Bytes 32)
    {session : ActiveSession} (drained : session.roomSecretActions = [])
    (inputs : List SessionInput) :
    InOrder session.autoRejoinQueue (session.trace sha256
      (inputs.takeWhile fun input => !input.isReady)) := by
  induction inputs generalizing session with
  | nil => exact ⟨[], List.nil_sublist _, .nil⟩
  | cons input rest ih =>
      rw [List.takeWhile_cons]
      split
      · rename_i other
        exact (step_spends sha256 drained (by simpa using other)).inOrder
          (ih (step_drained sha256 drained input))
      · exact ⟨[], List.nil_sublist _, .nil⟩

/-- In every run, what a session joins on its own, from the time that it comes
up until the next, are rooms of the list that it was given: in the order of
the list, each at most as often as it is there, no more than the limit allows,
and with what is stored for the room. -/
theorem rejoinsInOrder_run (sha256 : List UInt8 → Bytes 32) (linkId : LinkId)
    (mdu : Nat) (source : IdentityHash) (destinationHash : Bytes 16)
    (hubIdentity : IdentityHash) (nickname : String)
    (supportsAction supportsResources : Bool) (limits : HubLimits)
    (now : Nat) (early : List SessionInput) (clock : ClientClock)
    (origin : ConnectOrigin) (desired : List String)
    (stored : String → StoredRoomKey) (send : SendResult) (later : List SessionInput) :
    InOrder (desired.take autoRejoinRoomLimit)
      (((new linkId mdu source destinationHash hubIdentity nickname
        supportsAction supportsResources limits now).run sha256 early).trace
          sha256 (.ready clock origin desired stored send ::
            later.takeWhile fun input => !input.isReady)) := by
  have drained := (ordered_run sha256 linkId mdu source destinationHash
    hubIdentity nickname supportsAction supportsResources limits now
    early).accounts.drained
  generalize (new linkId mdu source destinationHash hubIdentity nickname
    supportsAction supportsResources limits now).run sha256 early = session
    at *
  have up := step_drained sha256 drained (.ready clock origin desired stored send)
  obtain ⟨rooms, sublist, rejoined⟩ :=
    (ready_spends sha256 session clock origin desired stored send).inOrder
      (trace_inOrder sha256 up later)
  refine ⟨rooms, sublist.trans ?_, rejoined⟩
  exact List.take_sublist_take_left (Nat.min_le_right _ _)

end Names

end ActiveSession

end Ratspeak
