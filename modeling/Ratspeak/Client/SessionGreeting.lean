import Ratspeak.Client.SessionRuns

/-!
# The greeting over a run

A greeting that came as a resource is what the hub itself announced: of the
size and with the digest that it gave, in a transfer that the client accepted
for this announcement.  Notices never extend it.
-/

namespace Ratspeak

open Library

/-! ## What keeps a greeting -/

/-- No announcement came in, and no greeting as a resource. -/
structure HubGreetingState.Descends (greeting after : HubGreetingState) :
    Prop where
  expected : ∀ pending, after.greetingResourceExpectation = some pending →
    greeting.greetingResourceExpectation = some pending
  shown : ∀ shown, after.hubGreeting = some shown →
    shown.delivery = .resource → greeting.hubGreeting = some shown

namespace HubGreetingState

/-- Nothing that matters changed. -/
theorem Descends.same {greeting after : HubGreetingState}
    (expected : after.greetingResourceExpectation = greeting.greetingResourceExpectation)
    (shown : after.hubGreeting = greeting.hubGreeting) :
    greeting.Descends after where
  expected := fun _ known => expected.symm.trans known
  shown := fun _ known _ => shown.symm.trans known

theorem Descends.refl (greeting : HubGreetingState) :
    greeting.Descends greeting :=
  .same rfl rfl

theorem Descends.trans {first second third : HubGreetingState}
    (one : first.Descends second) (other : second.Descends third) :
    first.Descends third where
  expected := fun pending known =>
    one.expected pending (other.expected pending known)
  shown := fun shown known isResource =>
    one.shown shown (other.shown shown known isResource) isResource

theorem expire_descends (greeting : HubGreetingState) (now : Nat) :
    greeting.Descends (greeting.expireHubGreetingResourceState now) where
  expected := fun _ known => (Option.filter_eq_some_iff.mp known).1
  shown := fun _ known _ => known

/-- Notices begin a greeting of notices or go on with one. -/
theorem applyRoomlessNotice_descends {greeting after : HubGreetingState}
    {fromHub : Bool} {mdu encodedBytes : Nat} {clock : ClientClock} {text : String}
    (applied : greeting.applyRoomlessNotice fromHub mdu encodedBytes clock
      text = some after) : greeting.Descends after := by
  unfold applyRoomlessNotice at applied
  dsimp only at applied
  split at applied
  · rename_i fits
    cases before : greeting.hubGreeting with
    | none =>
        rw [before] at applied
        rw [← Option.some.inj applied]
        refine ⟨fun pending known => (by cases known), ?_⟩
        intro shown known isResource
        rw [← Option.some.inj known] at isResource
        cases isResource
    | some shown =>
        have isNotice : shown.delivery = .notice := by
          have continuing := fits.2.2.2
          rw [before] at continuing
          simp only [Option.isNone_some, Bool.false_eq_true, Option.any_some,
            Bool.and_eq_true, decide_eq_true_eq, false_or] at continuing
          exact continuing.2
        rw [before] at applied
        rw [← Option.some.inj applied]
        refine ⟨fun pending known => known, ?_⟩
        intro later known isResource
        rw [← Option.some.inj known] at isResource
        rw [isNotice] at isResource
        cases isResource
  · cases applied

/-- An envelope brings at most the announcement that it holds. -/
theorem accept_expected (greeting : HubGreetingState)
    (supportsResources : Bool) (now : Nat) (envelope : Envelope) :
    greeting.Descends (greeting.acceptHubGreetingResourceEnvelope
        supportsResources now envelope) ∨
      (greeting.acceptHubGreetingResourceEnvelope supportsResources now
          envelope).hubGreeting = greeting.hubGreeting ∧
        ∃ expectation,
          hubGreetingResourceExpectation now envelope = some expectation ∧
            (greeting.acceptHubGreetingResourceEnvelope supportsResources now
              envelope).greetingResourceExpectation = some expectation := by
  unfold acceptHubGreetingResourceEnvelope
  dsimp only
  split
  · exact Or.inl (.same rfl rfl)
  · split
    · exact Or.inl (.same rfl rfl)
    · rename_i expectation announced
      split
      · exact Or.inl (.same rfl rfl)
      · exact Or.inr ⟨rfl, expectation, announced, rfl⟩

/-- A transfer that starts is for what was expected. -/
theorem offer_descends (greeting : HubGreetingState) (linkId : LinkId)
    (now : Nat) (offer : ResourceOffer) (accepted : Bool) (answeredAt : Nat) :
    greeting.Descends (greeting.handleHubGreetingResourceOffer linkId now
        offer accepted answeredAt).1 ∧
      ∀ transfer ∈ (greeting.handleHubGreetingResourceOffer linkId now offer
          accepted answeredAt).2,
        greeting.greetingResourceExpectation =
          some transfer.expectation := by
  unfold handleHubGreetingResourceOffer
  split
  · exact ⟨.refl greeting, fun _ started => by cases started⟩
  · rename_i expectation pending
    split
    · exact ⟨.refl greeting, fun _ started => by cases started⟩
    · split
      · refine ⟨⟨fun _ known => (by cases known), fun _ known _ => known⟩, ?_⟩
        intro transfer started
        rw [← Option.some.inj started]
        exact pending
      · split
        · exact ⟨.refl greeting, fun _ started => by cases started⟩
        · exact ⟨⟨fun _ known => (by cases known), fun _ known _ => known⟩,
            fun _ started => by cases started⟩

/-- What is shown after the end of a transfer was shown before, or is what
was expected. -/
theorem completion_shown (greeting : HubGreetingState)
    (sha256 : List UInt8 → Bytes 32) (linkId : LinkId) (clock : ClientClock)
    (transfer : GreetingTransfer) (result : Option ReceivedResource) :
    greeting.Descends (greeting.applyHubGreetingResourceCompletion sha256
        linkId clock transfer result) ∨
      (greeting.applyHubGreetingResourceCompletion sha256 linkId clock
          transfer result).greetingResourceExpectation = none ∧
        ∃ received text, result = some received ∧
          resourceIsExpected sha256 transfer received = true ∧
          Chat.fromUtf8 received.data = some text ∧
          (greeting.applyHubGreetingResourceCompletion sha256 linkId clock
              transfer result).hubGreeting =
            some ⟨text, clock.nowMs, .resource⟩ := by
  unfold applyHubGreetingResourceCompletion
  split
  · exact Or.inl (.refl greeting)
  · split
    · exact Or.inl (.refl greeting)
    · dsimp only
      split
      · exact Or.inl (.same rfl rfl)
      · split
        · exact Or.inl (.same rfl rfl)
        · rename_i received
          split
          · exact Or.inl (.same rfl rfl)
          · rename_i expected
            split
            · exact Or.inl (.same rfl rfl)
            · rename_i text decoded
              exact Or.inr ⟨rfl, received, text, rfl, by simpa using expected,
                decoded, rfl⟩

end HubGreetingState

namespace ActiveSession

/-- No announcement came in, no transfer began or ended, no greeting came as a
resource, and no room is to be joined again that was not before. -/
structure Keeps (session after : ActiveSession) : Prop where
  transfers : after.transfers = session.transfers
  greeting : session.greeting.Descends after.greeting
  rejoins : after.autoRejoinQueue <:+ session.autoRejoinQueue

theorem Keeps.same {session after : ActiveSession}
    (transfers : after.transfers = session.transfers)
    (greeting : after.greeting = session.greeting)
    (rejoins : after.autoRejoinQueue = session.autoRejoinQueue) :
    session.Keeps after where
  transfers := transfers
  greeting := by
    rw [greeting]
    exact .refl session.greeting
  rejoins := by rw [rejoins]

theorem Keeps.refl (session : ActiveSession) : session.Keeps session :=
  .same rfl rfl rfl

theorem Keeps.trans {first second third : ActiveSession}
    (one : first.Keeps second) (other : second.Keeps third) :
    first.Keeps third where
  transfers := other.transfers.trans one.transfers
  greeting := one.greeting.trans other.greeting
  rejoins := other.rejoins.trans one.rejoins

theorem Request.keeps {session : ActiveSession} {nowMs : Nat} {room : String}
    {secret : JoinSecretInput} {answer : SessionTurn × Except ChannelsError String}
    (request : Request session nowMs room secret answer) :
    session.Keeps answer.1.session := by
  cases request with
  | refused reason => exact .refl session
  | withdrawn free reason => exact .same rfl rfl rfl
  | sent free =>
      unfold notePending
      dsimp only
      split
      · exact .same rfl rfl rfl
      · exact .same rfl rfl rfl

section Names

variable [UnicodeTables]

theorem Join.keeps {session : ActiveSession} {nowMs : Nat} {room : String}
    {secret : JoinSecretInput} {answer : SessionTurn × Except ChannelsError String}
    (join : Join session nowMs room secret answer) :
    session.Keeps answer.1.session := by
  cases join with
  | settled outcome => exact .refl session
  | fresh named unknown request => exact request.keeps
  | retried named failed request =>
      refine Keeps.trans ?_ request.keeps
      exact .same rfl rfl rfl

theorem partRoom_keeps (session : ActiveSession) (nowMs : Nat)
    (room : String) (send : SendResult) :
    session.Keeps (session.partRoom nowMs room send).1.session := by
  unfold partRoom
  split
  · exact .refl session
  · dsimp only
    split
    · exact .same rfl rfl rfl
    · cases send with
      | error reason => exact .same rfl rfl rfl
      | ok taken => exact .same rfl rfl rfl

theorem sendRoomText_keeps (session : ActiveSession) (nowMs : Nat)
    (room text : String) (send : SendResult) :
    session.Keeps (session.sendRoomText nowMs room text send).1.session := by
  unfold sendRoomText
  split
  · exact .refl session
  · split
    · exact .refl session
    · split
      · exact .refl session
      · dsimp only
        split
        · exact .refl session
        · cases send with
          | error reason => exact .refl session
          | ok taken => exact .refl session

omit [UnicodeTables] in
theorem refreshRoomDirectory_keeps (session : ActiveSession)
    (clock : ClientClock) (send : SendResult) :
    session.Keeps (session.refreshRoomDirectory clock send).1.session := by
  unfold refreshRoomDirectory
  split
  · exact .refl session
  · split
    · exact .refl session
    · cases send with
      | error reason => exact .same rfl rfl rfl
      | ok taken => exact .same rfl rfl rfl

theorem driveAutoRejoin_keeps (session : ActiveSession) (nowMs : Nat)
    (stored : String → StoredRoomKey) (send : SendResult) :
    session.Keeps (session.driveAutoRejoin nowMs stored send).session := by
  have queued : ∀ {room rest}, (room :: rest) <:+ session.autoRejoinQueue →
      session.Keeps { session with autoRejoinQueue := rest } :=
    fun next => ⟨rfl, .same rfl rfl, (List.suffix_cons _ _).trans next⟩
  have rejoin := driveAutoRejoin_rejoin session nowMs stored send
  generalize session.driveAutoRejoin nowMs stored send = turn at *
  cases rejoin with
  | busy => exact .refl session
  | done => exact ⟨rfl, .same rfl rfl, List.nil_suffix⟩
  | unable next away error => exact (queued next).trans (.same rfl rfl rfl)
  | @joined room rest secret answer next away gives join =>
      have after := (queued next).trans join.keeps
      obtain ⟨turn, outcome⟩ := answer
      cases outcome with
      | ok name => exact after.trans (.same rfl rfl rfl)
      | error reason => exact after.trans (.same rfl rfl rfl)

theorem tick_keeps (session : ActiveSession) (clock : ClientClock)
    (stored : String → StoredRoomKey) (send : SendResult) :
    session.Keeps (session.tick clock stored send).session := by
  have expired : session.Keeps (session.expire clock) := by
    unfold expire expireDirectoryRequest
    split
    · exact .same rfl rfl rfl
    · exact .same rfl rfl rfl
  have kept : (session.expire clock).Keeps
      ((session.expire clock).keepKeys clock) :=
    ⟨rfl, HubGreetingState.expire_descends _ clock.now, List.suffix_rfl⟩
  rw [tick_eq]
  exact expired.trans (kept.trans (driveAutoRejoin_keeps _ clock.nowMs stored send))

/-! ## Envelopes -/

omit [UnicodeTables] in
theorem SameSession.keeps {session after : ActiveSession}
    (same : SameSession session after) : session.Keeps after :=
  .same same.transfers same.greeting same.rejoins

omit [UnicodeTables] in
theorem recordJoinConfirmation_keeps (session : ActiveSession)
    (confirmation : Option (String × ChannelRoomPhase)) :
    session.Keeps (session.recordJoinConfirmation confirmation) := by
  unfold recordJoinConfirmation
  split
  · exact .refl session
  · split
    · exact .refl session
    · unfold completePendingJoinSecret
      split
      · exact .refl session
      · exact .same rfl rfl rfl

omit [UnicodeTables] in
theorem recordPartConfirmation_keeps (session : ActiveSession)
    (confirmation : Option (String × ChannelRoomPhase)) :
    session.Keeps (session.recordPartConfirmation confirmation) := by
  unfold recordPartConfirmation
  split
  · exact .refl session
  · split
    · exact .refl session
    · exact .same rfl rfl rfl

theorem appendError_keeps (session : ActiveSession) (nowMs : Nat) (envelope : Envelope) :
    session.Keeps (session.appendError nowMs envelope) := by
  unfold appendError
  dsimp only
  split
  · exact .same rfl rfl rfl
  · split
    · exact .same rfl rfl rfl
    · split
      · exact .same rfl rfl rfl
      · exact .same rfl rfl rfl

variable [WordTables]

theorem appendContent_keeps (session : ActiveSession) (clock : ClientClock)
    (envelope : Envelope) (encodedBytes : Nat) :
    session.Keeps (session.appendContent clock envelope encodedBytes) := by
  unfold appendContent
  split
  · exact .refl session
  · dsimp only
    split
    · unfold heardMember
      split
      · exact .same rfl rfl rfl
      · exact .same rfl rfl rfl
    · split
      · exact .refl session
      · split
        · rename_i greeting applied
          exact ⟨rfl, HubGreetingState.applyRoomlessNotice_descends applied, List.suffix_rfl⟩
        · exact ⟨rfl, .same rfl rfl, List.suffix_rfl⟩

theorem applyNotice_keeps (session : ActiveSession) (clock : ClientClock)
    (envelope : Envelope) (encodedBytes : Nat) :
    session.Keeps (session.applyNotice clock envelope encodedBytes) := by
  have first :=
    (applyRoomDirectoryNotice_rest session clock.nowMs envelope).1.keeps
  unfold applyNotice
  dsimp only
  split
  · exact first.trans ⟨rfl, .same rfl rfl, List.suffix_rfl⟩
  · exact first.trans (appendContent_keeps _ clock envelope encodedBytes)
  · have second := first.trans (applyRrcdRoomStatusNotice_rooms
      (session.applyRoomDirectoryNotice clock.nowMs envelope).1 clock.nowMs
      envelope).1.keeps
    split
    · exact second.trans (recordJoinConfirmation_keeps _ _)
    · exact second.trans (appendContent_keeps _ clock envelope encodedBytes)

theorem applyEnvelope_keeps (session : ActiveSession) (clock : ClientClock)
    (envelope : Envelope) (encodedBytes : Nat) :
    session.Keeps (session.applyEnvelope clock envelope encodedBytes) := by
  unfold applyEnvelope
  cases envelope.messageType with
  | hello | ping | pong | join | part | resourceEnvelope | unknown _ =>
      exact .refl session
  | welcome => exact .same rfl rfl rfl
  | joined =>
      exact (applyJoined_rooms session clock.nowMs envelope).1.keeps.trans
        (recordJoinConfirmation_keeps _ _)
  | parted =>
      exact (applyParted_rooms session envelope).1.keeps.trans
        (recordPartConfirmation_keeps _ _)
  | message | action => exact appendContent_keeps session clock envelope encodedBytes
  | notice => exact applyNotice_keeps session clock envelope encodedBytes
  | error =>
      dsimp only
      split
      · rename_i rejected isRejected
        unfold applyRoomDirectoryError at isRejected
        split at isRejected
        · cases isRejected
        · rw [← Option.some.inj isRejected]
          exact .same rfl rfl rfl
      · exact appendError_keeps session clock.nowMs envelope

/-- The hub itself announces this greeting in the envelope. -/
def Announces (session : ActiveSession) (now : Nat) (envelope : Envelope)
    (expectation : HubGreetingResourceExpectation) : Prop :=
  envelope.source = session.hubIdentity ∧
    envelope.messageType = .resourceEnvelope ∧
    hubGreetingResourceExpectation now envelope = some expectation

omit [UnicodeTables] [WordTables] in
theorem expectation_restamp (now : Nat) (envelope : Envelope) (timestampMs : Nat) :
    hubGreetingResourceExpectation now
        { envelope with timestampMs := timestampMs } =
      hubGreetingResourceExpectation now envelope :=
  rfl

/-- An envelope keeps the greeting, or announces one. -/
theorem handleEnvelope_greeting (session : ActiveSession)
    (clock : ClientClock) (envelope : Envelope) (encodedBytes : Nat) (send : SendResult) :
    session.Keeps
        (session.handleEnvelope clock envelope encodedBytes send).session ∨
      ((session.handleEnvelope clock envelope encodedBytes
          send).session.transfers = session.transfers ∧
        (session.handleEnvelope clock envelope encodedBytes
          send).session.autoRejoinQueue = session.autoRejoinQueue ∧
        (session.handleEnvelope clock envelope encodedBytes
          send).session.greeting.hubGreeting = session.greeting.hubGreeting ∧
        ∃ expectation, session.Announces clock.now envelope expectation ∧
          (session.handleEnvelope clock envelope encodedBytes
            send).session.greeting.greetingResourceExpectation =
              some expectation) := by
  unfold handleEnvelope
  split
  · exact Or.inl (.refl session)
  · rename_i admitted
    have remembered : ∀ id, (session.remember id).1.transfers =
        session.transfers ∧
        (session.remember id).1.greeting = session.greeting ∧
        (session.remember id).1.autoRejoinQueue = session.autoRejoinQueue ∧
        (session.remember id).1.hubIdentity = session.hubIdentity := by
      intro id
      unfold remember
      split
      · exact ⟨rfl, rfl, rfl, rfl⟩
      · exact ⟨rfl, rfl, rfl, rfl⟩
    obtain ⟨transfers, greeting, rejoins, hub⟩ := remembered envelope.messageId
    have first : session.Keeps (session.remember envelope.messageId).1 :=
      .same transfers greeting rejoins
    dsimp only
    split
    · exact Or.inl first
    · split
      · exact Or.inl first
      · rename_i isResource
        dsimp only
        rcases HubGreetingState.accept_expected
          (session.remember envelope.messageId).1.greeting
          (session.remember envelope.messageId).1.supportsResources clock.now
          { envelope with
            timestampMs := sanitizeDisplayTimestampMs envelope.timestampMs clock.nowMs } with
          descends | ⟨shown, expectation, announced, expected⟩
        · refine Or.inl (first.trans ⟨rfl, descends, List.suffix_rfl⟩)
        · refine Or.inr ⟨transfers, rejoins,
            shown.trans (by rw [greeting]), expectation,
            ⟨?_, isResource, ?_⟩, expected⟩
          · by_contra foreign
            refine admitted ⟨?_, foreign⟩
            rw [isResource]
            rfl
          · rw [← announced]
            exact (expectation_restamp _ _ _).symm
      · refine Or.inl (first.trans (Keeps.trans ?_ (applyEnvelope_keeps _
          clock _ encodedBytes)))
        exact ⟨rfl, .same rfl rfl, List.suffix_rfl⟩

end Names

end ActiveSession

/-- The input has to do with neither greetings nor rooms to be joined
again. -/
def SessionInput.isPlain : SessionInput → Bool
  | packet _ _ _ _ _ | ready _ _ _ _ _ | offer _ _ _ _
  | transferEnded _ _ _ => false
  | _ => true

/-! ## What was announced -/

/-- The data are what the hub announced. -/
structure ResourceEnvelopeBody.Fits (sha256 : List UInt8 → Bytes 32)
    (body : ResourceEnvelopeBody) (data : List UInt8) : Prop where
  kind : body.kind = "motd"
  size : data.length = body.size
  bounded : data.length ≤ hubGreetingResourceMaxBytes
  nonempty : data ≠ []
  digest : ∀ expected, body.sha256 = some expected → expected = sha256 data
  encoding : isUtf8Encoding body.encoding = true

theorem fits_of_expected {sha256 : List UInt8 → Bytes 32} {now : Nat}
    {envelope : Envelope} {transfer : GreetingTransfer} {received : ReceivedResource}
    (announced : hubGreetingResourceExpectation now envelope = some transfer.expectation)
    (expected : HubGreetingState.resourceIsExpected sha256 transfer received = true) :
    envelope.room = none ∧ ∃ body,
      parseResourceEnvelope envelope = .ok body ∧
        body.Fits sha256 received.data := by
  unfold hubGreetingResourceExpectation at announced
  split at announced
  · cases announced
  · rename_i roomless
    refine ⟨by simpa using roomless, ?_⟩
    split at announced
    · cases announced
    · rename_i body parsed
      split at announced
      · cases announced
      · rename_i admitted
        simp only [not_or, not_not, Nat.not_lt, Bool.not_eq_false] at admitted
        have isExpectation := (Option.some.inj announced).symm
        simp only [HubGreetingState.resourceIsExpected, isExpectation,
          Bool.and_eq_true, decide_eq_true_eq, Bool.not_eq_true',
          List.isEmpty_eq_false_iff] at expected
        obtain ⟨⟨⟨⟨⟨⟨⟨⟨⟨⟨⟨-, -⟩, size⟩, nonempty⟩, bounded⟩, -⟩, -⟩, -⟩, -⟩,
          -⟩, digest⟩, encoding⟩ := expected
        refine ⟨body, parsed, admitted.1, size, bounded, nonempty, ?_, encoding⟩
        intro given isGiven
        rw [isGiven] at digest
        simpa using digest

namespace ActiveSession

/-- At this entry the hub itself announced a greeting. -/
def AnnouncedAt (hub : IdentityHash)
    (expectation : HubGreetingResourceExpectation) (entry : SessionEntry) :
    Prop :=
  ∃ clock envelope encodedBytes send taken,
    entry.1 = .packet clock envelope encodedBytes send taken ∧
      envelope.source = hub ∧ envelope.messageType = .resourceEnvelope ∧
      hubGreetingResourceExpectation clock.now envelope = some expectation

/-- At this entry a transfer ended that the client had accepted for an
announcement, and its data are this text. -/
def ArrivedAt (sha256 : List UInt8 → Bytes 32) (hub : IdentityHash)
    (text : String) (early : List SessionEntry) (entry : SessionEntry) :
    Prop :=
  ∃ clock index received transfer,
    entry.1 = .transferEnded clock index (some received) ∧
      entry.2.session.transfers[index]? = some transfer ∧
      HubGreetingState.resourceIsExpected sha256 transfer received = true ∧
      Chat.fromUtf8 received.data = some text ∧
      ∃ announcement ∈ early, AnnouncedAt hub transfer.expectation announcement

/-- What is expected, what is transferred and what is shown was announced. -/
structure Greets (sha256 : List UInt8 → Bytes 32) (hub : IdentityHash)
    (trace : List SessionEntry) (session : ActiveSession) : Prop where
  expected : ∀ pending,
    session.greeting.greetingResourceExpectation = some pending →
      ∃ entry ∈ trace, AnnouncedAt hub pending entry
  transfers : ∀ transfer ∈ session.transfers,
    ∃ entry ∈ trace, AnnouncedAt hub transfer.expectation entry
  shown : ∀ shown, session.greeting.hubGreeting = some shown →
    shown.delivery = .resource →
      ∃ early entry late, trace = early ++ entry :: late ∧
        ArrivedAt sha256 hub shown.text early entry

namespace Greets

variable {sha256 : List UInt8 → Bytes 32} {hub : IdentityHash}
  {trace : List SessionEntry} {session after : ActiveSession}

/-- What was announced stays so. -/
theorem later (greets : Greets sha256 hub trace session)
    (keeps : session.Keeps after) (entry : SessionEntry) :
    Greets sha256 hub (trace ++ [entry]) after where
  expected := by
    intro pending known
    obtain ⟨announcement, member, announced⟩ :=
      greets.expected pending (keeps.greeting.expected pending known)
    exact ⟨announcement, List.mem_append_left _ member, announced⟩
  transfers := by
    intro transfer member
    rw [keeps.transfers] at member
    obtain ⟨announcement, inTrace, announced⟩ :=
      greets.transfers transfer member
    exact ⟨announcement, List.mem_append_left _ inTrace, announced⟩
  shown := by
    intro shown known isResource
    obtain ⟨early, arrival, late, split, arrived⟩ := greets.shown shown
      (keeps.greeting.shown shown known isResource) isResource
    refine ⟨early, arrival, late ++ [entry], ?_, arrived⟩
    rw [split, List.append_assoc, List.cons_append]

/-- An announcement came in. -/
theorem announce (greets : Greets sha256 hub trace session)
    {entry : SessionEntry} {expectation : HubGreetingResourceExpectation}
    (announced : AnnouncedAt hub expectation entry)
    (transfers : after.transfers = session.transfers)
    (shown : after.greeting.hubGreeting = session.greeting.hubGreeting)
    (expected : after.greeting.greetingResourceExpectation = some expectation) :
    Greets sha256 hub (trace ++ [entry]) after where
  expected := by
    intro pending known
    rw [expected] at known
    rw [← Option.some.inj known]
    exact ⟨entry, List.mem_append_right _ List.mem_cons_self, announced⟩
  transfers := (greets.later (.refl session) entry).transfers |> fun held => by
    rw [transfers]
    exact held
  shown := by
    rw [shown]
    exact (greets.later (.refl session) entry).shown

/-- A transfer was accepted for what is expected. -/
theorem offer (greets : Greets sha256 hub trace session)
    (clock : ClientClock) (offer : ResourceOffer) (accepted : Bool)
    (answeredAt : Nat) (entry : SessionEntry) :
    Greets sha256 hub (trace ++ [entry])
      (session.receiveOffer clock offer accepted answeredAt) := by
  obtain ⟨descends, started⟩ := session.greeting.offer_descends
    session.linkId clock.now offer accepted answeredAt
  have kept : session.Keeps { session.receiveOffer clock offer accepted
      answeredAt with transfers := session.transfers } :=
    ⟨rfl, descends, List.suffix_rfl⟩
  have held := greets.later kept entry
  refine ⟨held.expected, ?_, held.shown⟩
  intro transfer member
  rcases List.mem_append.mp member with before | isNew
  · exact held.transfers transfer before
  · obtain ⟨announcement, inTrace, announced⟩ := greets.expected _
      (started transfer (Option.mem_toList.mp isNew))
    exact ⟨announcement, List.mem_append_left _ inTrace, announced⟩

/-- A transfer ended. -/
theorem complete (greets : Greets sha256 hub trace session)
    (clock : ClientClock) (index : Nat) (result : Option ReceivedResource)
    {entry : SessionEntry} (isEnd : entry.1 = .transferEnded clock index result)
    (isSession : entry.2.session = session) :
    Greets sha256 hub (trace ++ [entry])
      (session.endTransfer sha256 clock index result) := by
  unfold endTransfer
  cases found : session.transfers[index]? with
  | none => exact greets.later (.refl session) entry
  | some transfer =>
      dsimp only
      have fewer : ∀ tested, tested ∈ session.transfers.eraseIdx index →
          tested ∈ session.transfers :=
        fun tested member => List.mem_of_mem_eraseIdx member
      rcases session.greeting.completion_shown sha256 session.linkId clock
        transfer result with descends |
          ⟨unexpected, received, text, isReceived, fits, decoded, shows⟩
      · have kept : session.Keeps { session with
            greeting := session.greeting.applyHubGreetingResourceCompletion
              sha256 session.linkId clock transfer result } :=
          ⟨rfl, descends, List.suffix_rfl⟩
        have held := greets.later kept entry
        exact ⟨held.expected,
          fun tested member => held.transfers tested (fewer tested member),
          held.shown⟩
      · have held := greets.later (.refl session) entry
        refine ⟨?_, fun tested member =>
          held.transfers tested (fewer tested member), ?_⟩
        · intro pending known
          rw [unexpected] at known
          cases known
        · intro shown known isResource
          rw [shows] at known
          rw [← Option.some.inj known]
          refine ⟨trace, entry, [], rfl, clock, index, received, transfer,
            ?_, ?_, fits, decoded, greets.transfers transfer (List.mem_of_getElem? found)⟩
          · rw [isEnd, isReceived]
          · rw [isSession]
            exact found

end Greets

section Runs

variable [UnicodeTables] [WordTables]

theorem step_keeps (sha256 : List UInt8 → Bytes 32) (session : ActiveSession)
    {input : SessionInput} (plain : input.isPlain = true) :
    session.Keeps (session.step sha256 input).session := by
  cases input with
  | join clock room secret send =>
      have keeps :=
        (joinRoom_join session clock.nowMs room secret send).keeps
      simp only [step]
      exact keeps
  | part clock room send =>
      have keeps := partRoom_keeps session clock.nowMs room send
      simp only [step]
      exact keeps
  | text clock room text send =>
      have keeps := sendRoomText_keeps session clock.nowMs room text send
      simp only [step]
      exact keeps
  | refreshDirectory clock send =>
      have keeps := refreshRoomDirectory_keeps session clock send
      simp only [step]
      exact keeps
  | renamed previous current =>
      unfold step
      dsimp only
      split
      · exact .refl session
      · exact .same rfl rfl rfl
  | tick clock stored send taken =>
      have keeps := tick_keeps session clock stored send
      have taken : (session.tick clock stored send).session.Keeps
          ((session.tick clock stored send).session.enqueuePersistence taken) :=
        .same rfl rfl rfl
      simp only [step]
      exact keeps.trans taken
  | packet _ _ _ _ _ | ready _ _ _ _ _ | offer _ _ _ _
  | transferEnded _ _ _ => cases plain

theorem greets_step {sha256 : List UInt8 → Bytes 32} {hub : IdentityHash}
    {trace : List SessionEntry} {session : ActiveSession}
    (greets : Greets sha256 hub trace session)
    (isHub : session.hubIdentity = hub) (input : SessionInput) :
    Greets sha256 hub (trace ++ [(input, session.record sha256 input)])
      (session.record sha256 input).report.session := by
  have plainly := fun plain =>
    greets.later (@step_keeps _ _ sha256 session input plain)
      (input, session.record sha256 input)
  cases input with
  | join _ _ _ _ | part _ _ _ | text _ _ _ _ | refreshDirectory _ _
  | renamed _ _ | tick _ _ _ _ => exact plainly rfl
  | ready clock origin desired stored send =>
      have prepared : Greets sha256 hub trace
          ({ session with connectOrigin := origin }.prepareAutoRejoin desired) :=
        ⟨greets.expected, greets.transfers, greets.shown⟩
      exact prepared.later (driveAutoRejoin_keeps _ clock.nowMs stored send) _
  | offer clock offer accepted answeredAt =>
      exact greets.offer clock offer accepted answeredAt _
  | transferEnded clock index result => exact greets.complete clock index result rfl rfl
  | packet clock envelope encodedBytes send taken =>
      rcases handleEnvelope_greeting session clock envelope encodedBytes send
        with keeps | ⟨transfers, -, shown, expectation, announces, expected⟩
      · refine greets.later ?_ _
        refine keeps.trans ?_
        exact .same rfl rfl rfl
      · refine greets.announce ?_ transfers shown expected
        exact ⟨clock, envelope, encodedBytes, send, taken, rfl,
          announces.1.trans isHub, announces.2⟩

/-- A greeting that is shown as a resource came in a transfer that the client
had accepted, and is what the hub itself had announced before: of its size,
with its digest, and in UTF-8. -/
def GreetingAnnounced (sha256 : List UInt8 → Bytes 32) (hub : IdentityHash)
    (trace : List SessionEntry) (session : ActiveSession) : Prop :=
  ∀ shown, session.greeting.hubGreeting = some shown →
    shown.delivery = .resource →
      ∃ early entry late received body,
        trace = early ++ entry :: late ∧
        (∃ clock index, entry.1 = .transferEnded clock index (some received)) ∧
        Chat.fromUtf8 received.data = some shown.text ∧
        body.Fits sha256 received.data ∧
        ∃ announcement ∈ early, ∃ clock envelope encodedBytes send taken,
          announcement.1 =
              .packet clock envelope encodedBytes send taken ∧
            envelope.source = hub ∧
            envelope.messageType = .resourceEnvelope ∧
            envelope.room = none ∧ parseResourceEnvelope envelope = .ok body

omit [UnicodeTables] [WordTables] in
theorem greets_new (sha256 : List UInt8 → Bytes 32) (linkId : LinkId)
    (mdu : Nat) (source : IdentityHash) (destinationHash : Bytes 16)
    (hubIdentity : IdentityHash) (nickname : String)
    (supportsAction supportsResources : Bool) (limits : HubLimits) (now : Nat) :
    Greets sha256 hubIdentity []
      (new linkId mdu source destinationHash hubIdentity nickname
        supportsAction supportsResources limits now) where
  expected := by
    intro pending known
    cases known
  transfers := by
    intro transfer member
    cases member
  shown := by
    intro shown known
    cases known

/-- In every run, a greeting that came as a resource is the one that the hub
announced. -/
theorem greetingAnnounced_run (sha256 : List UInt8 → Bytes 32)
    (linkId : LinkId) (mdu : Nat) (source : IdentityHash)
    (destinationHash : Bytes 16) (hubIdentity : IdentityHash)
    (nickname : String) (supportsAction supportsResources : Bool)
    (limits : HubLimits) (now : Nat) (inputs : List SessionInput) :
    GreetingAnnounced sha256 hubIdentity
      ((new linkId mdu source destinationHash hubIdentity nickname
        supportsAction supportsResources limits now).trace sha256 inputs)
      ((new linkId mdu source destinationHash hubIdentity nickname
        supportsAction supportsResources limits now).run sha256 inputs) := by
  have both := @invariant_traceFrom _ _ _ (record sha256)
    (fun record => record.report.session)
    (fun trace session => Accounts hubIdentity trace session ∧
      Greets sha256 hubIdentity trace session)
    (fun trace session input held =>
      ⟨accounts_step sha256 held.1 input, greets_step held.2 held.1.hubIdentity input⟩) _ inputs
    ⟨(ordered_new linkId mdu source destinationHash hubIdentity nickname
      supportsAction supportsResources limits now).accounts,
      greets_new sha256 linkId mdu source destinationHash hubIdentity
        nickname supportsAction supportsResources limits now⟩
  intro shown known isResource
  obtain ⟨early, entry, late, split, clock, index, received, transfer, isEnd,
    -, expected, decoded, announcement, member, announced⟩ :=
    both.2.shown shown known isResource
  obtain ⟨clockThen, envelope, encodedBytes, send, taken, isPacket, fromHub,
    isType, isExpectation⟩ := announced
  obtain ⟨roomless, body, parsed, fits⟩ :=
    fits_of_expected isExpectation expected
  exact ⟨early, entry, late, received, body, split, ⟨clock, index, isEnd⟩,
    decoded, fits, announcement, member, clockThen, envelope, encodedBytes,
    send, taken, isPacket, fromHub, isType, roomless, parsed⟩

end Runs

end ActiveSession

end Ratspeak
