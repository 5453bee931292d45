import Ratspeak.Client.SessionOrder

/-!
# Runs of a session

Over whole runs: a key waits only for the join that carried it, the actions
that are queued for the store of keys answer the last join, and a room is
shown as joined only on the word of the hub.
-/

namespace Ratspeak

open Library

/-- An input of a session with what came of it. -/
abbrev SessionEntry : Type := SessionInput × SessionRecord

namespace SessionEntry

/-- No JOIN for the room went out. -/
def SentNoJoin (name : String) (entry : SessionEntry) : Prop :=
  joinKeys name entry.2.report.sent = []

/-- Neither went a JOIN for the room out nor was an action on its key
queued. -/
def Silent (name : String) (entry : SessionEntry) : Prop :=
  SentNoJoin name entry ∧ aboutRoom name entry.2.report.secrets = []

end SessionEntry

/-- The input brings this key, or the lack of one, for a join. -/
def SessionInput.Brings (secret : JoinSecretInput) : SessionInput → Prop
  | join _ _ given _ => secret = given
  | ready _ _ _ _ _ | tick _ _ _ _ => ActiveSession.IsSaved secret
  | _ => False

/-- A JOIN for the room went out, the last one with this key. -/
def SessionEntry.Asks (name : String) (secret : JoinSecretInput)
    (entry : SessionEntry) : Prop :=
  entry.1.Brings secret ∧ (joinKeys name entry.2.report.sent).getLast? = some secret.key

namespace ActiveSession

section Envelopes

variable [UnicodeTables]

/-- The envelope of the hub confirms that the user is in the room. -/
def Confirms (session : ActiveSession) (envelope : Envelope) (name : String) : Prop :=
  envelope.source = session.hubIdentity ∧ ShowsJoined envelope name ∧
    session.normalizedEnvelopeRoom envelope = some name

/-- The envelope of the hub is an error about the room. -/
def Rejects (session : ActiveSession) (envelope : Envelope) (name : String) : Prop :=
  envelope.source = session.hubIdentity ∧ envelope.messageType = .error ∧
    session.erroneousRoom envelope = some name

/-- The envelope is the hub's refusal to let the user leave the room. -/
def RefusesPart (session : ActiveSession) (envelope : Envelope) (name : String) : Prop :=
  session.Rejects envelope name ∧ session.phaseOf name = some .parting

/-- The action on a key fits the join and the answer to it. -/
def Answers (session : ActiveSession) (envelope : Envelope)
    (secret : JoinSecretInput) : RoomSecretAction → Prop
  | .persist room key => secret = .user key true ∧ session.Confirms envelope room
  | .forgetRequired room =>
      (∃ key, secret = .user key false) ∧ session.Confirms envelope room
  | .forgetRejected room =>
      (∃ key, secret = .stored key) ∧ session.Rejects envelope room ∧
        hubErrorText envelope = badRoomKeyError
  | .markRequired room =>
      session.Rejects envelope room ∧ hubErrorText envelope = badRoomKeyError

end Envelopes

section Marks

variable [UnicodeTables] [WordTables] {session : ActiveSession}
  {input : SessionInput} {name : String}

omit [WordTables] in
theorem brings_of_allows {secret : JoinSecretInput}
    (allowed : Allows session input name (.requested secret)) :
    input.Brings secret := by
  cases input with
  | join clock room given send => exact allowed
  | ready clock origin desired stored send => exact allowed
  | tick clock stored send taken =>
      rcases allowed with late | saved
      · exact late.elim
      · exact saved
  | packet clock envelope encodedBytes send taken => exact allowed.elim
  | part _ _ _ | text _ _ _ _ | refreshDirectory _ _ | renamed _ _
  | offer _ _ _ _ | transferEnded _ _ _ => exact allowed.elim

omit [WordTables] in
/-- Answers come with packets. -/
theorem packet_of_allows {mark : RoomMark} (answer : mark.IsAnswer)
    (allowed : Allows session input name mark) :
    ∃ clock envelope encodedBytes send taken,
      input = .packet clock envelope encodedBytes send taken ∧
        Tells session envelope name mark := by
  have quiet : ∀ may, ¬ Quiet may name mark := by
    intro may isQuiet
    cases mark with
    | confirmed _ | affirmed | refused _ _ | kept => exact isQuiet
    | requested _ | abandoned | released | unkeyed | parting | partFailed
    | left | timedOut _ | rejoinFailed => exact answer
  cases input with
  | packet clock envelope encodedBytes send taken =>
      exact ⟨clock, envelope, encodedBytes, send, taken, rfl, allowed⟩
  | tick clock stored send taken =>
      rcases allowed with late | isQuiet
      · cases mark with
        | left | timedOut _ => exact answer.elim
        | confirmed _ | affirmed | refused _ _ | kept | requested _
        | abandoned | released | unkeyed | parting | partFailed
        | rejoinFailed => exact late.elim
      · exact absurd isQuiet (quiet _)
  | join _ _ _ _ | part _ _ _ | text _ _ _ _ | refreshDirectory _ _
  | renamed _ _ | ready _ _ _ _ _ | offer _ _ _ _ | transferEnded _ _ _ =>
      exact absurd allowed (quiet _)

omit [WordTables] in
/-- Only a tick ends a wait. -/
theorem punctual_of_allows {mark : RoomMark} (notTick : ∀ clock stored send taken,
      input ≠ .tick clock stored send taken)
    (allowed : Allows session input name mark) (nowMs : Nat) :
    mark ≠ .timedOut nowMs := by
  rintro rfl
  cases input with
  | tick clock stored send taken => exact notTick clock stored send taken rfl
  | packet clock envelope encodedBytes send taken => exact allowed
  | join _ _ _ _ | part _ _ _ | text _ _ _ _ | refreshDirectory _ _
  | renamed _ _ | ready _ _ _ _ _ | offer _ _ _ _ | transferEnded _ _ _ => exact allowed

omit [WordTables] in
/-- A key that has proved itself was brought by the join. -/
theorem answers_of_confirmed {envelope : Envelope} {secret : JoinSecretInput}
    {proved : PendingJoinSecret} {action : RoomSecretAction}
    (isPending : secret.pending = some proved)
    (acts : PendingSecret.action action.room proved = some action)
    (tells : session.Confirms envelope action.room) :
    session.Answers envelope secret action := by
  cases secret with
  | none => cases isPending
  | stored key =>
      rw [← Option.some.inj isPending] at acts
      cases acts
  | user key keeps =>
      cases keeps with
      | true =>
          rw [← Option.some.inj isPending] at acts
          rw [← Option.some.inj acts]
          exact ⟨rfl, tells⟩
      | false =>
          rw [← Option.some.inj isPending] at acts
          rw [← Option.some.inj acts]
          exact ⟨⟨key, rfl⟩, tells⟩

omit [WordTables] in
/-- A key that was refused was brought by the join. -/
theorem answers_of_refused {envelope : Envelope} {secret : JoinSecretInput}
    {pending : Option PendingJoinSecret} {hubText : String} {action : RoomSecretAction}
    (carried : pending = none ∨ pending = secret.pending)
    (acts : errorAction action.room true pending hubText = some action)
    (tells : Tells session envelope action.room (.refused pending hubText)) :
    session.Answers envelope secret action := by
  obtain ⟨fromHub, isError, about, isText⟩ := tells
  unfold errorAction at acts
  split at acts
  · rename_i bad
    have isBad : hubErrorText envelope = badRoomKeyError := by
      rw [isText]
      simpa using bad
    split at acts
    · rename_i isStored
      rw [← Option.some.inj acts]
      rw [isStored] at carried
      refine ⟨?_, ⟨fromHub, isError, about⟩, isBad⟩
      rcases carried with none | same
      · cases none
      · cases secret with
        | none => cases same
        | stored key => exact ⟨key, rfl⟩
        | user key keeps => cases keeps <;> cases same
    · rw [← Option.some.inj acts]
      exact ⟨⟨fromHub, isError, about⟩, isBad⟩
  · cases acts

/-! ## Steps -/

omit [WordTables] in
/-- After a tick a key waits only where a join does. -/
theorem tick_keyed {clock : ClientClock} {stored : String → StoredRoomKey}
    {send : SendResult} (keyed : (session.view name).Keyed) :
    ((session.tick clock stored send).session.view name).Keyed := by
  obtain ⟨late, expired, -⟩ := expireAll_settles session clock name
  have sound : ((session.expire clock).view name).Sound :=
    expired.moves.sound keyed.sound
  have kept : (((session.expire clock).keepKeys clock).view name).Keyed := by
    intro waiting
    have isRetained : (((session.expire clock).keepKeys clock).view
        name).secret = if (session.expire clock).isJoining name = true then
          ((session.expire clock).view name).secret else none := by
      by_cases joining : (session.expire clock).isJoining name = true
      · rw [if_pos joining]
        simp [view, keepKeys, joining]
        cases (session.expire clock).pendingJoinSecrets.lookup name <;> rfl
      · rw [if_neg joining]
        simp [view, keepKeys, joining]
    by_cases joining : (session.expire clock).isJoining name = true
    · rw [isRetained, if_pos joining] at waiting
      refine ⟨(sound waiting).1, ?_⟩
      have phase := of_decide_eq_true joining
      obtain ⟨room, known, isJoining⟩ := Option.map_eq_some_iff.mp phase
      exact ⟨_, view_phase known isJoining⟩
    · rw [isRetained, if_neg joining] at waiting
      exact absurd rfl waiting
  obtain ⟨marks, driven, quiet⟩ := driveAutoRejoin_settles
    ((session.expire clock).keepKeys clock) clock.nowMs stored send name
  rw [tick_eq]
  refine driven.moves.keyed kept ?_
  rintro mark member nowMs rfl
  exact quiet _ member

theorem step_keyed (sha256 : List UInt8 → Bytes 32) (drained : session.roomSecretActions = [])
    (keyed : (session.view name).Keyed) (input : SessionInput) :
    ((session.step sha256 input).session.view name).Keyed := by
  by_cases isTick : ∃ clock stored send taken, input = .tick clock stored send taken
  · obtain ⟨clock, stored, send, taken, rfl⟩ := isTick
    exact tick_keyed keyed
  · obtain ⟨marks, stepped, allowed⟩ := step_moves sha256 drained input name
    refine stepped.moves.keyed keyed ?_
    intro mark member
    refine punctual_of_allows ?_ (allowed mark member)
    rintro clock stored send taken rfl
    exact isTick ⟨clock, stored, send, taken, rfl⟩

/-- What waits in a room was asked for by the last JOIN. -/
def Unanswered (session : ActiveSession) (name : String) (trace : List SessionEntry) : Prop :=
  ∃ secret, Since (SessionEntry.Silent name) (SessionEntry.Asks name secret)
      trace ∧
    ((session.view name).secret = none ∨ (session.view name).secret = secret.pending)

/-- The hub said with this packet that the user is in the room. -/
def Granted (hub : IdentityHash) (name : String) (entry : SessionEntry) :
    Prop :=
  ∃ clock envelope encodedBytes send taken,
    entry.1 = .packet clock envelope encodedBytes send taken ∧
      envelope.source = hub ∧ (entry.2.session.Confirms envelope name ∨
        entry.2.session.RefusesPart envelope name)

/-- What a session can account for from what happened to it. -/
structure Accounts (hub : IdentityHash) (trace : List SessionEntry)
    (session : ActiveSession) : Prop where
  hubIdentity : session.hubIdentity = hub
  drained : session.roomSecretActions = []
  keyed : ∀ name, (session.view name).Keyed
  asked : ∀ name, (session.view name).Waits → session.Unanswered name trace
  granted : ∀ name since,
    (session.view name).phase = some (.joined, since) →
      Since (SessionEntry.SentNoJoin name) (Granted hub name) trace

omit [WordTables] in
/-- A key that waits was carried by the last JOIN. -/
theorem Accounts.key {hub : IdentityHash} {trace : List SessionEntry}
    (accounts : Accounts hub trace session) {pending : PendingJoinSecret}
    (waits : session.pendingJoinSecrets.lookup name = some pending) :
    session.phaseOf name = some .joining ∧
      ∃ secret, secret.pending = some pending ∧
        Since (SessionEntry.Silent name) (SessionEntry.Asks name secret)
          trace := by
  have isKey : (session.view name).secret = some pending := waits
  have some : (session.view name).secret ≠ none := by
    rw [isKey]
    exact Option.some_ne_none pending
  obtain ⟨-, since, joining⟩ := accounts.keyed name some
  refine ⟨phaseOf_of_view joining, ?_⟩
  obtain ⟨secret, asked, carried⟩ := accounts.asked name (Or.inr some)
  refine ⟨secret, ?_, asked⟩
  rcases carried with none | same
  · exact absurd none some
  · exact same.symm.trans isKey

/-- Without a JOIN and an answer, an entry is silent. -/
theorem Stepped.silent {sha256 : List UInt8 → Bytes 32} {marks : List RoomMark}
    (stepped : Stepped session (session.step sha256 input) name marks)
    (noJoin : joinsOf marks = []) (unasked : secretsOf name marks = []) :
    SessionEntry.Silent name (input, session.record sha256 input) :=
  ⟨stepped.joins.trans noJoin, stepped.secrets.trans unasked⟩

theorem accounts_step (sha256 : List UInt8 → Bytes 32) {hub : IdentityHash}
    {trace : List SessionEntry} (accounts : Accounts hub trace session) (input : SessionInput) :
    Accounts hub (trace ++ [(input, session.record sha256 input)])
      (session.record sha256 input).report.session where
  hubIdentity := by
    obtain ⟨marks, stepped, -⟩ := step_moves sha256 accounts.drained input ""
    exact stepped.hubIdentity.trans accounts.hubIdentity
  drained := step_drained sha256 accounts.drained input
  keyed := fun name =>
    step_keyed sha256 accounts.drained (accounts.keyed name) input
  asked := by
    intro name waits
    obtain ⟨marks, stepped, allowed⟩ :=
      step_moves sha256 accounts.drained input name
    rcases stepped.moves.waits (accounts.keyed name).sound waits name with
      ⟨secret, member, last, carried⟩ | ⟨noJoin, unasked, waited, kept⟩
    · refine ⟨secret, Since.now trace ⟨?_, ?_⟩, carried⟩
      · exact brings_of_allows (allowed _ member)
      · exact (congrArg List.getLast? stepped.joins).trans last
    · obtain ⟨secret, since, carried⟩ := accounts.asked name waited
      refine ⟨secret, since.still (stepped.silent noJoin unasked), ?_⟩
      rcases kept with none | same
      · exact Or.inl none
      · exact carried.imp same.trans same.trans
  granted := by
    intro name since joined
    obtain ⟨marks, stepped, allowed⟩ :=
      step_moves sha256 accounts.drained input name
    rcases stepped.moves.joined joined with
      ⟨mark, member, grants⟩ | ⟨noJoin, earlier, wasJoined⟩
    · refine Since.now trace ?_
      have answer : mark.IsAnswer := by
        cases mark with
        | confirmed _ | affirmed | kept => exact trivial
        | requested _ | abandoned | released | unkeyed | parting | partFailed
        | refused _ _ | left | timedOut _ | rejoinFailed => exact grants.elim
      obtain ⟨clock, envelope, encodedBytes, send, taken, isPacket, tells⟩ :=
        packet_of_allows answer (allowed mark member)
      refine ⟨clock, envelope, encodedBytes, send, taken, isPacket, ?_⟩
      cases mark with
      | confirmed _ | affirmed =>
          exact ⟨tells.1.trans accounts.hubIdentity, Or.inl tells⟩
      | kept =>
          exact ⟨tells.1.trans accounts.hubIdentity,
            Or.inr ⟨⟨tells.1, tells.2.1, tells.2.2.1⟩, tells.2.2.2⟩⟩
      | requested _ | abandoned | released | unkeyed | parting | partFailed
      | refused _ _ | left | timedOut _ | rejoinFailed => exact grants.elim
    · exact (accounts.granted name earlier wasJoined).still (stepped.joins.trans noJoin)

/-- An action on a key answers the last JOIN for the room. -/
theorem accounts_secrets (sha256 : List UInt8 → Bytes 32)
    {hub : IdentityHash} {trace : List SessionEntry}
    (accounts : Accounts hub trace session) {action : RoomSecretAction}
    (asked : action ∈ (session.step sha256 input).secrets) :
    ∃ clock envelope encodedBytes send taken secret,
      input = .packet clock envelope encodedBytes send taken ∧
        session.Answers envelope secret action ∧
        Since (SessionEntry.Silent action.room)
          (SessionEntry.Asks action.room secret) trace := by
  obtain ⟨marks, stepped, allowed⟩ :=
    step_moves sha256 accounts.drained input action.room
  have about : action ∈ secretsOf action.room marks := by
    rw [← stepped.secrets]
    exact List.mem_filter.mpr ⟨asked, decide_eq_true rfl⟩
  obtain ⟨mark, member, asks⟩ := List.mem_flatMap.mp about
  have answer : mark.IsAnswer := by
    cases mark with
    | confirmed _ | affirmed | refused _ _ | kept => exact trivial
    | requested _ | abandoned | released | unkeyed | parting | partFailed
    | left | timedOut _ | rejoinFailed => cases asks
  obtain ⟨clock, envelope, encodedBytes, send, taken, rfl, tells⟩ :=
    packet_of_allows answer (allowed mark member)
  obtain ⟨early, late, split⟩ := List.append_of_mem member
  have moves := stepped.moves
  rw [split] at moves
  obtain ⟨middle, reached, reaching, move⟩ := moves.upTo
  -- The wait that is answered began before this packet.
  have before : middle.Waits → ∃ secret,
      (middle.secret = none ∨ middle.secret = secret.pending) ∧
        Since (SessionEntry.Silent action.room)
          (SessionEntry.Asks action.room secret) trace := by
    intro waits
    rcases reaching.waits (accounts.keyed _).sound waits action.room with
      ⟨secret, inEarly, -⟩ | ⟨-, -, waited, kept⟩
    · have inMarks : RoomMark.requested secret ∈ marks := by
        rw [split]
        exact List.mem_append_left _ inEarly
      exact (allowed _ inMarks).elim
    · obtain ⟨secret, since, carried⟩ := accounts.asked _ waited
      refine ⟨secret, ?_, since⟩
      rcases kept with none | same
      · exact Or.inl none
      · exact carried.imp same.trans same.trans
  refine ⟨clock, envelope, encodedBytes, send, taken, ?_⟩
  cases move with
  | confirm now known pending =>
      obtain ⟨proved, isProved, acts⟩ :=
        Option.bind_eq_some_iff.mp (Option.mem_toList.mp asks)
      by_cases tracked : middle.tracked = true
      · rw [if_pos tracked] at isProved
        obtain ⟨secret, carried, since⟩ := before (Or.inr (by
          rw [isProved]
          exact Option.some_ne_none proved))
        refine ⟨secret, rfl, ?_, since⟩
        have isPending : secret.pending = some proved := by
          rcases carried with none | same
          · rw [isProved] at none
            cases none
          · exact same.symm.trans isProved
        exact answers_of_confirmed isPending acts tells
      · rw [if_neg tracked] at isProved
        cases isProved
  | refuse now hubText known =>
      obtain ⟨secret, carried, since⟩ := before (Or.inl ⟨_, known⟩)
      exact ⟨secret, rfl, answers_of_refused carried (Option.mem_toList.mp asks) tells, since⟩
  | request _ _ _ | abandon _ | release _ | unkey _ | part _ _
  | partFail _ _ | affirm _ _ | keep _ _ | leave _ | timeOut _ _ _
  | rejoinFail _ _ => cases asks

/-- At most one action on the key of a room comes of an input. -/
theorem step_secrets_le (sha256 : List UInt8 → Bytes 32)
    (drained : session.roomSecretActions = []) (keyed : (session.view name).Keyed) :
    (aboutRoom name (session.step sha256 input).secrets).length ≤ 1 := by
  cases input with
  | packet clock envelope encodedBytes send taken =>
      obtain ⟨marks, stepped, allowed⟩ := step_moves sha256 drained
        (.packet clock envelope encodedBytes send taken) name
      rw [stepped.secrets]
      exact (stepped.moves.secrets_le keyed.sound name fun secret member => allowed _ member).1
  | renamed previous current =>
      unfold step
      dsimp only
      split
      · exact Nat.zero_le 1
      · exact Nat.zero_le 1
  | join _ _ _ _ | part _ _ _ | text _ _ _ _ | refreshDirectory _ _
  | ready _ _ _ _ _ | offer _ _ _ _ | transferEnded _ _ _ | tick _ _ _ _ =>
      exact Nat.zero_le 1

end Marks

/-! ## Whole runs -/

section Runs

variable [UnicodeTables] [WordTables]

/-- The session can account for what it has from its trace, and joins one
room at a time. -/
structure Ordered (hub : IdentityHash) (trace : List SessionEntry)
    (session : ActiveSession) : Prop where
  accounts : Accounts hub trace session
  inTurn : session.InTurn

variable (sha256 : List UInt8 → Bytes 32) (linkId : LinkId) (mdu : Nat)
  (source : IdentityHash) (destinationHash : Bytes 16)
  (hubIdentity : IdentityHash) (nickname : String)
  (supportsAction supportsResources : Bool) (limits : HubLimits) (now : Nat)

omit [WordTables] in
theorem ordered_new :
    Ordered hubIdentity []
      (new linkId mdu source destinationHash hubIdentity nickname
        supportsAction supportsResources limits now) where
  accounts := {
    hubIdentity := rfl
    drained := rfl
    keyed := fun _ waiting => absurd rfl waiting
    asked := by
      intro name waits
      rcases waits with ⟨since, joining⟩ | waiting
      · cases joining
      · exact absurd rfl waiting
    granted := by
      intro name since joined
      cases joined }
  inTurn := by
    intro first second joining
    cases joining

theorem ordered_run (inputs : List SessionInput) :
    Ordered hubIdentity
      ((new linkId mdu source destinationHash hubIdentity nickname
        supportsAction supportsResources limits now).trace sha256 inputs)
      ((new linkId mdu source destinationHash hubIdentity nickname
        supportsAction supportsResources limits now).run sha256 inputs) := by
  refine invariant_traceFrom ?_ inputs (ordered_new linkId mdu source
    destinationHash hubIdentity nickname supportsAction supportsResources
    limits now)
  intro trace session input ordered
  exact {
    accounts := accounts_step sha256 ordered.accounts input
    inTurn := step_inTurn sha256 ordered.accounts.drained ordered.inTurn input }

/-- At most one room is being joined, and a key waits only there: the last
JOIN for the room carried it, and no action on it was queued since. -/
structure JoinsInTurn (trace : List SessionEntry) (session : ActiveSession) :
    Prop where
  inTurn : session.InTurn
  keys : ∀ name pending,
    session.pendingJoinSecrets.lookup name = some pending →
      session.phaseOf name = some .joining ∧
        ∃ secret, secret.pending = some pending ∧
          Since (SessionEntry.Silent name) (SessionEntry.Asks name secret) trace

/-- In every run, rooms are joined one at a time, and a key waits only for
the answer to the last JOIN, which carried it. -/
theorem joinsInTurn_run (inputs : List SessionInput) :
    JoinsInTurn
      ((new linkId mdu source destinationHash hubIdentity nickname
        supportsAction supportsResources limits now).trace sha256 inputs)
      ((new linkId mdu source destinationHash hubIdentity nickname
        supportsAction supportsResources limits now).run sha256 inputs) := by
  obtain ⟨accounts, inTurn⟩ := ordered_run sha256 linkId mdu source
    destinationHash hubIdentity nickname supportsAction supportsResources
    limits now inputs
  exact ⟨inTurn, fun name pending waits => accounts.key waits⟩

/-- The actions on join keys that an input queues answer the last JOIN for
the room: they come with an envelope of the hub itself, and fit the key that
the JOIN carried.  An input queues no two of them for a room. -/
def SecretsAnswered (trace : List SessionEntry) (entry : SessionEntry) :
    Prop :=
  (∀ name, (aboutRoom name entry.2.report.secrets).length ≤ 1) ∧
  ∀ action ∈ entry.2.report.secrets,
    ∃ clock envelope encodedBytes send taken secret,
      entry.1 = .packet clock envelope encodedBytes send taken ∧
        entry.2.session.Answers envelope secret action ∧
        Since (SessionEntry.Silent action.room) (SessionEntry.Asks action.room secret) trace

/-- In every run, join keys are remembered, forgotten or asked for only when
the hub answers the JOIN that carried them. -/
theorem secretsAnswered_run (inputs : List SessionInput) (input : SessionInput) :
    SecretsAnswered
      ((new linkId mdu source destinationHash hubIdentity nickname
        supportsAction supportsResources limits now).trace sha256 inputs)
      (input, ((new linkId mdu source destinationHash hubIdentity nickname
        supportsAction supportsResources limits now).run sha256
          inputs).record sha256 input) := by
  have ordered := ordered_run sha256 linkId mdu source destinationHash
    hubIdentity nickname supportsAction supportsResources limits now inputs
  refine ⟨fun name => step_secrets_le sha256 ordered.accounts.drained
    (ordered.accounts.keyed name), ?_⟩
  intro action asked
  exact accounts_secrets sha256 ordered.accounts asked

/-- A room is shown as joined since the hub said so, and no JOIN for it went
out after that. -/
def JoinedByHub (hub : IdentityHash) (trace : List SessionEntry)
    (session : ActiveSession) : Prop :=
  ∀ name, session.phaseOf name = some .joined →
    Since (SessionEntry.SentNoJoin name) (Granted hub name) trace

/-- In every run, a room is shown as joined only on the word of the hub. -/
theorem joinedByHub_run (inputs : List SessionInput) :
    JoinedByHub hubIdentity
      ((new linkId mdu source destinationHash hubIdentity nickname
        supportsAction supportsResources limits now).trace sha256 inputs)
      ((new linkId mdu source destinationHash hubIdentity nickname
        supportsAction supportsResources limits now).run sha256 inputs) := by
  have ordered := ordered_run sha256 linkId mdu source destinationHash
    hubIdentity nickname supportsAction supportsResources limits now inputs
  intro name joined
  obtain ⟨room, known, phase⟩ := Option.map_eq_some_iff.mp joined
  exact ordered.accounts.granted name _ (view_phase known phase)

end Runs

end ActiveSession

end Ratspeak
