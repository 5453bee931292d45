import Ratspeak.Hub.Admission
import Ratspeak.Hub.Restart

/-!
# Payloads that links deliver

The hub consults its gate for resources on behalf of its links.  Closing a
session makes the gate forget the link; besides that only a few events call
it.  So every run of the hub is, for the gate, a run of calls, and a link
that has no session holds nothing.  A payload goes into a room only if its
link announced it for that room and the room lets the link speak when the
payload is there.
-/

namespace Ratspeak

open Library

/-! ## What leaves the gate alone -/

/-- The gate and the identities of the links are as they were. -/
structure HubCore.Keeps (before after : HubCore) : Prop where
  admission : after.admission = before.admission
  identity : ∀ link, after.sessionIdentity link = before.sessionIdentity link

namespace HubCore

theorem keeps_of_sessions {before after : HubCore}
    (admission : after.admission = before.admission)
    (sessions : after.sessions = before.sessions) : before.Keeps after :=
  ⟨admission, fun link => by rw [sessionIdentity, sessions]; rfl⟩

theorem Keeps.refl (core : HubCore) : core.Keeps core :=
  keeps_of_sessions rfl rfl

theorem Keeps.trans {first second third : HubCore}
    (one : first.Keeps second) (two : second.Keeps third) :
    first.Keeps third :=
  ⟨two.admission.trans one.admission, fun link => (two.identity link).trans (one.identity link)⟩

theorem Housed.keeps {before after : HubCore}
    (housed : Housed before after) : before.Keeps after := by
  obtain ⟨_, _, _, rfl⟩ := housed
  exact keeps_of_sessions rfl rfl

end HubCore

namespace HubTurn

theorem keeps_foldl {α : Type} {step : HubTurn → α → HubTurn}
    (one : ∀ (turn : HubTurn) (item : α), turn.core.Keeps (step turn item).core)
    (items : List α) (turn : HubTurn) :
    turn.core.Keeps (items.foldl step turn).core := by
  induction items generalizing turn with
  | nil => exact .refl _
  | cons item rest ih => exact (one turn item).trans (ih (step turn item))

theorem keeps_pushAll (turn : HubTurn) (sends : List HubSend) :
    turn.core.Keeps (turn.pushAll sends).core := by
  rw [pushAll_core]
  exact .refl _

theorem keeps_modifySession (turn : HubTurn) (linkId : LinkId)
    (change : HubSession → HubSession)
    (same : ∀ session, (change session).identity = session.identity) :
    turn.core.Keeps (turn.modifySession linkId change).core := by
  refine ⟨rfl, fun link => ?_⟩
  simp only [HubCore.sessionIdentity, modifySession, mapCore_core, FiniteMap.lookup_adjust]
  split
  · rename_i isLink
    subst isLink
    cases turn.core.sessions.lookup link with
    | none => rfl
    | some session => exact same session
  · rfl

/-- The session of a link gives up a room. -/
theorem keeps_giveUp (turn : HubTurn) (linkId : LinkId) (roomName : String) :
    turn.core.Keeps (turn.modifySession linkId fun session =>
      { session with rooms := session.rooms.erase roomName }).core :=
  turn.keeps_modifySession linkId _ fun _ => rfl

theorem keeps_modifyRoom (turn : HubTurn) (roomName : String) (change : HubRoom → HubRoom) :
    turn.core.Keeps (turn.modifyRoom roomName change).core :=
  HubCore.keeps_of_sessions rfl rfl

theorem keeps_ejectIdentityFromRoom (turn : HubTurn) (roomName : String)
    (target : IdentityHash) (reason : String) :
    turn.core.Keeps
      (turn.ejectIdentityFromRoom roomName target reason).core := by
  have ejects (before : HubTurn) (linkId : LinkId) : before.core.Keeps
      (ejectLink roomName target reason before linkId).core :=
    (before.keeps_giveUp linkId roomName).trans
      (housed_removeMemberWithParted _ roomName linkId target _).keeps
  exact (turn.keeps_modifyRoom roomName _).trans (keeps_foldl ejects _ _)

theorem keeps_leaveOnClose (expires : Option WallTime) (linkId : LinkId)
    (identity : IdentityHash) (nickname : Option String) (turn : HubTurn) (roomName : String) :
    turn.core.Keeps
      (leaveOnClose expires linkId identity nickname turn roomName).core := by
  unfold leaveOnClose
  extract_lets eligible leased
  have leases : turn.core.Keeps leased.core := by
    simp only [leased]
    split
    · exact .refl _
    · split
      · exact turn.keeps_modifyRoom roomName _
      · exact .refl _
  exact leases.trans (housed_removeMemberWithParted leased _ _ _ _).keeps

theorem keeps_leaveRoom (turn : HubTurn) (roomName : String)
    (linkId : LinkId) (identity : IdentityHash) :
    turn.core.Keeps (turn.leaveRoom roomName linkId identity).core :=
  (turn.keeps_giveUp linkId roomName).trans
    (housed_removeMemberWithParted _ roomName linkId identity _).keeps

theorem keeps_persistRoom (turn : HubTurn) (roomName : String) (origin : Option LinkId) :
    turn.core.Keeps (turn.persistRoom roomName origin).core := by
  rw [persistRoom]
  split
  · exact .refl _
  · split
    · exact .refl _
    · exact turn.keeps_modifyRoom roomName _

theorem keeps_dropIfEmpty (turn : HubTurn) (roomName : String) :
    turn.core.Keeps (turn.dropIfEmpty roomName).core := by
  rw [dropIfEmpty]
  split
  · exact .refl _
  · split
    · exact HubCore.keeps_of_sessions rfl rfl
    · exact .refl _

theorem keeps_seatMember (turn : HubTurn) (roomName : String)
    (linkId : LinkId) (identity : IdentityHash) :
    turn.core.Keeps (turn.seatMember roomName linkId identity).core := by
  unfold seatMember
  extract_lets consumedInvite seated persisted
  have enters : turn.core.Keeps seated.core :=
    (turn.keeps_modifyRoom roomName _).trans (keeps_modifyRoom _ roomName _)
  have stores : seated.core.Keeps persisted.core := by
    simp only [persisted]
    split
    · exact seated.keeps_persistRoom roomName (some linkId)
    · exact .refl _
  exact (enters.trans stores).trans (persisted.keeps_modifySession linkId _ fun _ => rfl)

theorem keeps_enterRoom (turn : HubTurn) (roomName : String)
    (linkId : LinkId) (identity : IdentityHash) :
    turn.core.Keeps (turn.enterRoom roomName linkId identity).core := by
  have seats := turn.keeps_seatMember roomName linkId identity
  have confirms (entered : HubTurn) : entered.core.Keeps
      (entered.confirmJoined roomName linkId identity).core := by
    rw [confirmJoined]
    split
    · split
      · exact .refl _
      · exact keeps_pushAll _ _
    · exact .refl _
  unfold enterRoom
  extract_lets room alreadyPresent existingMembers seated announced
  have announces : seated.core.Keeps announced.core := by
    simp only [announced]
    split
    · exact .refl _
    · exact keeps_pushAll _ _
  exact (seats.trans announces).trans (confirms announced)

end HubTurn

/-! ## What makes the gate forget -/

/-- Every link that lost its identity is forgotten by the gate, which changed
in no other way. -/
structure HubCore.Departs (gone : List LinkId) (before after : HubCore) :
    Prop where
  admission : after.admission = gone.foldl AdmissionState.forgetLink before.admission
  identity : ∀ link, after.sessionIdentity link =
    if link ∈ gone then none else before.sessionIdentity link

namespace HubCore

theorem Keeps.departs {before after : HubCore} (keeps : before.Keeps after) :
    Departs [] before after :=
  ⟨keeps.admission, fun link => by
    rw [if_neg List.not_mem_nil]
    exact keeps.identity link⟩

theorem Departs.trans {early late : List LinkId}
    {first second third : HubCore} (one : Departs early first second)
    (two : Departs late second third) :
    Departs (early ++ late) first third := by
  refine ⟨?_, fun link => ?_⟩
  · rw [two.admission, one.admission, List.foldl_append]
  · rw [two.identity, one.identity]
    by_cases isLate : link ∈ late
    · rw [if_pos isLate, if_pos (List.mem_append_right early isLate)]
    · rw [if_neg isLate]
      by_cases isEarly : link ∈ early
      · rw [if_pos isEarly, if_pos (List.mem_append_left late isEarly)]
      · have neither : ¬ link ∈ early ++ late := by
          rw [List.mem_append]
          exact fun either => either.elim isEarly isLate
        rw [if_neg isEarly, if_neg neither]

theorem runFrom_forgetLinks (links : List LinkId) (state : AdmissionState) :
    runFrom AdmissionState.perform state
        (links.map AdmissionOp.forgetLink) =
      links.foldl AdmissionState.forgetLink state := by
  induction links generalizing state with
  | nil => rfl
  | cons linkId rest ih => exact ih (state.forgetLink linkId)

end HubCore

namespace HubTurn

theorem departs_closeSession (turn : HubTurn) (linkId : LinkId)
    (reason : HubSessionCloseReason) :
    HubCore.Departs [linkId] turn.core
      (turn.closeSession linkId reason).core := by
  refine ⟨?_, fun link => ?_⟩
  · unfold closeSession
    extract_lets forgetting grace expires
    split
    · rfl
    · rename_i session live
      split
      · rfl
      · rename_i identity proved
        obtain ⟨byIdentity, unindexed, -⟩ :=
          forgetting.unindexLink_eq identity linkId
        have unindexes : forgetting.core.Keeps
            (forgetting.unindexLink identity linkId).core := by
          rw [unindexed]
          exact HubCore.keeps_of_sessions rfl rfl
        have leaves := unindexes.trans (keeps_foldl
          (keeps_leaveOnClose expires linkId identity session.nickname)
          session.rooms.toList _)
        exact leaves.admission
  · rw [HubCore.sessionIdentity, closeSession_lookup]
    simp only [List.mem_singleton]
    split
    · rfl
    · rfl

theorem departs_dismissLink (turn : HubTurn) (linkId : LinkId) :
    HubCore.Departs [linkId] turn.core (turn.dismissLink linkId).core :=
  departs_closeSession
    ((turn.pushError linkId "banned" none).push (.close linkId)) linkId
    .kicked

theorem departs_dismissIdentity (turn : HubTurn) (target : IdentityHash) :
    ∃ gone, HubCore.Departs gone turn.core
      (turn.dismissIdentity target).core := by
  rw [dismissIdentity]
  generalize turn.core.linksForIdentity target = links
  induction links generalizing turn with
  | nil => exact ⟨[], (HubCore.Keeps.refl _).departs⟩
  | cons linkId rest ih =>
      obtain ⟨gone, later⟩ := ih (turn.dismissLink linkId)
      exact ⟨_, (turn.departs_dismissLink linkId).trans later⟩

end HubTurn

/-- A move that does not call the gate on its own makes it forget the links
whose sessions it ends. -/
theorem Move.departs {limits : Limits} (unmetered : ¬ limits.meters)
    {before after : HubTurn} (move : Move limits before after) :
    ∃ gone, HubCore.Departs gone before.core after.core := by
  have keep {first second : HubCore} (keeps : first.Keeps second) :
      ∃ gone, HubCore.Departs gone first second :=
    ⟨[], keeps.departs⟩
  cases move with
  | reply plain => exact keep (.refl _)
  | relay found scope content clear =>
      rw [HubTurn.reseats_fanOut_core]
      exact keep (.refl _)
  | tend seats =>
      refine keep ⟨rfl, fun link => ?_⟩
      have seat := seats link
      simp only [HubCore.sessionIdentity]
      generalize before.core.sessions.lookup link = earlier at seat ⊢
      generalize AList.lookup link _ = later at seat ⊢
      cases seat with
      | none => rfl
      | some same => exact same.1
  | note metered => exact keep (HubCore.keeps_of_sessions (metered unmetered) rfl)
  | retouch same => exact keep (HubCore.keeps_of_sessions rfl rfl)
  | welcome permitted => exact keep (before.keeps_modifySession _ _ fun _ => rfl)
  | found named absent empty noBans ephemeral clean storable =>
      exact keep (HubCore.keeps_of_sessions rfl rfl)
  | enter permitted live identified welcomed held clear =>
      exact keep (before.keeps_enterRoom _ _ _)
  | leave permitted identified => exact keep (before.keeps_leaveRoom _ _ _)
  | expel permitted => exact keep (before.keeps_ejectIdentityFromRoom _ _ _)
  | ban permitted =>
      exact keep (((before.keeps_modifyRoom _ _).trans
        (HubTurn.keeps_ejectIdentityFromRoom _ _ _ _)).trans
        (HubTurn.keeps_persistRoom _ _ _))
  | close permitted => exact ⟨_, before.departs_closeSession _ _⟩
  | kline permitted answers =>
      rename_i announced target origin
      obtain ⟨gone, dismisses⟩ := announced.departs_dismissIdentity target
      have records : before.core.Keeps announced.core := by
        rw [answers.core_eq]
        exact HubCore.keeps_of_sessions rfl rfl
      exact ⟨_, records.departs.trans dismisses⟩
  | unkline => exact keep (HubCore.keeps_of_sessions rfl rfl)
  | restateKlines => exact keep (HubCore.keeps_of_sessions rfl rfl)
  | amend amends answers =>
      refine keep (HubCore.Keeps.trans ?_ (HubTurn.keeps_persistRoom _ _ _))
      rw [answers.core_eq]
      exact before.keeps_modifyRoom _ _
  | register change pending present registers others settled answers =>
      refine keep (HubCore.Keeps.trans ?_ (HubTurn.keeps_persistRoom _ _ _))
      rw [answers.core_eq]
      exact HubCore.keeps_of_sessions rfl rfl
  | unregister change pending unregisters others settled answers drops =>
      subst drops
      rename_i announced roomName origin scope roomTokens tokensDrawn
      refine keep ((HubCore.Keeps.trans ?_
        (announced.keeps_dropIfEmpty roomName)).trans
        (HubCore.keeps_of_sessions rfl rfl))
      rw [answers.core_eq]
      exact HubCore.keeps_of_sessions rfl rfl
  | restate => exact keep (before.keeps_persistRoom _ _)
  | retire empty => exact keep (HubCore.keeps_of_sessions rfl rfl)
  | drain =>
      rw [HubTurn.drainRemovals, HubTurn.pushAll_core]
      exact keep (HubCore.keeps_of_sessions rfl rfl)
  | lesserWrite lesser => exact keep (.refl _)

/-! ## What calls the gate -/

/-- The gate was called like this; the identities of links are as they
were. -/
structure HubCore.Calls (ops : List AdmissionOp) (before after : HubCore) :
    Prop where
  admission : after.admission = runFrom AdmissionState.perform before.admission ops
  identity : ∀ link, after.sessionIdentity link = before.sessionIdentity link

namespace HubCore

theorem Keeps.calls {before after : HubCore} (keeps : before.Keeps after) :
    Calls [] before after :=
  ⟨keeps.admission, keeps.identity⟩

theorem Calls.trans {early late : List AdmissionOp}
    {first second third : HubCore} (one : Calls early first second)
    (two : Calls late second third) : Calls (early ++ late) first third :=
  ⟨by rw [two.admission, one.admission, runFrom_append],
    fun link => (two.identity link).trans (one.identity link)⟩

end HubCore

namespace HubTurn

theorem calls_modifyAdmission (turn : HubTurn) (op : AdmissionOp) :
    HubCore.Calls [op] turn.core
      (turn.modifyAdmission fun admission => admission.perform op).core :=
  ⟨rfl, fun _ => rfl⟩

theorem calls_rejectResource (turn : HubTurn) (linkId : LinkId)
    (text : String) (room : Option String) :
    HubCore.Calls [.noteRejected] turn.core (turn.rejectResource linkId text room).core :=
  ⟨rfl, fun _ => rfl⟩

theorem withRelayGate_cases (turn : HubTurn) (linkId : LinkId)
    (identity : IdentityHash) (roomName : String) (refused next : HubTurn → HubTurn) :
    (∃ text, turn.withRelayGate linkId identity roomName refused next =
      refused (turn.pushError linkId text (some roomName))) ∨
    turn.core.relayRefusal linkId identity roomName = none ∧
      turn.withRelayGate linkId identity roomName refused next =
        next turn := by
  rw [withRelayGate]
  split
  · rename_i text refusal
    exact Or.inl ⟨text, rfl⟩
  · rename_i passes
    exact Or.inr ⟨passes, rfl⟩

end HubTurn

section Announcements

variable [UnicodeTables]

/-- What an envelope says will be delivered, if it says so. -/
def HubCore.announcement (core : HubCore) (now : Instant)
    (envelope : Envelope) : Option InboundExpectation :=
  (parseResourceEnvelope envelope).toOption.bind fun body =>
    (HubTurn.namedRoom envelope).bind fun roomRaw =>
      (core.normRoom roomRaw).toOption.map fun roomName =>
        { id := body.id
          size := body.size
          sha256 := body.sha256
          encoding := body.encoding
          room := roomName
          createdAt := now }

/-- What an event announces on a link. -/
def HubCore.announces (linkId : LinkId) (core : HubCore)
    (input : ServiceInput) : Multiset InboundExpectation :=
  match input.input.event with
  | .linkPacket source (some envelope) =>
      if source = linkId then
        ((core.announcement input.input.ambient.instant envelope).toList :
          Multiset InboundExpectation)
      else 0
  | _ => 0

/-- A welcomed link announces a payload for a room that lets it speak. -/
structure HubCore.Promises [HubCrypto] (core : HubCore) (input : HubInput)
    (linkId : LinkId) (identity : IdentityHash) (envelope : Envelope)
    (expectation : InboundExpectation) : Prop where
  enabled : core.config.resourceAcceptEnabled = true
  delivered : core.delivered input = some (linkId, identity, envelope)
  announced : core.announcement input.ambient.instant envelope = some expectation
  gate : core.relayRefusal linkId identity expectation.room = none

/-- An announcement calls the gate once at most to expect a payload. -/
theorem HubTurn.calls_onResourceEnvelope (turn : HubTurn) (linkId : LinkId)
    (envelope : Envelope) :
    ∃ ops, HubCore.Calls ops turn.core
        (turn.onResourceEnvelope linkId envelope).core ∧
      (ops = [] ∨ ops = [.noteRejected] ∨
        turn.core.config.resourceAcceptEnabled = true ∧
        ∃ identity expectation,
          turn.core.sessionIdentity linkId = some identity ∧
          turn.core.announcement turn.ambient.instant envelope = some expectation ∧
          turn.core.relayRefusal linkId identity expectation.room = none ∧
          (ops = [.expect linkId expectation] ∨
            ops = [.expect linkId expectation, .noteRejected])) := by
  have rejects (text : String) (room : Option String) :
      ∃ ops, HubCore.Calls ops turn.core
          (turn.rejectResource linkId text room).core ∧
        (ops = [] ∨ ops = [.noteRejected] ∨
          turn.core.config.resourceAcceptEnabled = true ∧
          ∃ identity expectation,
            turn.core.sessionIdentity linkId = some identity ∧
            turn.core.announcement turn.ambient.instant envelope = some expectation ∧
            turn.core.relayRefusal linkId identity expectation.room = none ∧
            (ops = [.expect linkId expectation] ∨
              ops = [.expect linkId expectation, .noteRejected])) :=
    ⟨_, turn.calls_rejectResource linkId text room, Or.inr (Or.inl rfl)⟩
  unfold onResourceEnvelope
  dsimp only
  split
  · exact rejects _ _
  · rename_i enabled
    split
    · exact ⟨[], (HubCore.Keeps.refl _).calls, Or.inl rfl⟩
    · rename_i identity proved
      have accepts : turn.core.config.resourceAcceptEnabled = true := by
        simpa using enabled
      split
      · exact rejects _ _
      · rename_i body parsed
        split
        · exact rejects _ _
        · split
          · exact rejects _ _
          · split
            · exact rejects _ _
            · rename_i roomRaw named
              split
              · exact rejects _ _
              · rename_i roomName normed
                have announcement :
                    turn.core.announcement turn.ambient.instant envelope =
                      some
                        { id := body.id
                          size := body.size
                          sha256 := body.sha256
                          encoding := body.encoding
                          room := roomName
                          createdAt := turn.ambient.instant } := by
                  rw [HubCore.announcement, parsed, named]
                  simp only [Except.toOption, Option.bind_some, normed, Option.map_some]
                have refuses (told : HubTurn) : HubCore.Calls [.noteRejected]
                    told.core
                    (told.modifyAdmission AdmissionState.noteRejected).core :=
                  told.calls_modifyAdmission .noteRejected
                rcases turn.withRelayGate_cases linkId _ roomName _ _ with
                  ⟨text, gated⟩ | ⟨passes, gated⟩
                · rw [gated]
                  exact ⟨_, refuses _, Or.inr (Or.inl rfl)⟩
                · rw [gated]
                  have expects (expectation : InboundExpectation) :
                      HubCore.Calls [.expect linkId expectation] turn.core
                        (turn.modifyAdmission fun _ =>
                          (turn.core.admission.expect linkId expectation).1).core :=
                    ⟨rfl, fun _ => rfl⟩
                  split
                  · exact ⟨_, expects _, Or.inr (Or.inr ⟨accepts, identity,
                      _, proved, announcement, passes, Or.inl rfl⟩)⟩
                  · exact ⟨_, HubCore.Calls.trans (expects _)
                        (calls_rejectResource _ linkId _ _),
                      Or.inr (Or.inr ⟨accepts, identity, _, proved,
                        announcement, passes, Or.inr rfl⟩)⟩

end Announcements

/-! ## Deliveries -/

section Deliveries

variable [HubCrypto]

/-- The hub looks for the announcement of a payload of the link. -/
structure HubCore.Receives (core : HubCore) (linkId : LinkId)
    (data : List UInt8) (hasMetadata : Bool) : Prop where
  enabled : core.config.resourceAcceptEnabled = true
  identified : (core.sessionIdentity linkId).isSome = true
  plain : hasMetadata = false
  nonempty : data ≠ []
  fits : data.length ≤ HubTurn.inboundResourceCap core.config

instance (core : HubCore) (linkId : LinkId) (data : List UInt8)
    (hasMetadata : Bool) : Decidable (core.Receives linkId data hasMetadata) :=
  decidable_of_iff
    (core.config.resourceAcceptEnabled = true ∧
      (core.sessionIdentity linkId).isSome = true ∧ hasMetadata = false ∧
      data ≠ [] ∧ data.length ≤ HubTurn.inboundResourceCap core.config)
    ⟨fun ⟨enabled, identified, plain, nonempty, fits⟩ =>
        ⟨enabled, identified, plain, nonempty, fits⟩,
      fun receives => ⟨receives.enabled, receives.identified, receives.plain,
        receives.nonempty, receives.fits⟩⟩

/-- What the gate holds for the payload, the slot given up before. -/
def HubCore.taken (core : HubCore) (now : Instant) (linkId : LinkId)
    (resourceHash : Bytes 32) (data : List UInt8) :
    AdmissionState × Option InboundExpectation :=
  (core.admission.retire linkId resourceHash).takeMatching linkId data.length
    (HubCrypto.sha256 data) now

theorem HubTurn.onResourceCompleted_cases (turn : HubTurn) (linkId : LinkId)
    (resourceHash : Bytes 32) (data : List UInt8) (hasMetadata : Bool) :
    let after := turn.onResourceCompleted linkId resourceHash data hasMetadata
    let retired := turn.modifyAdmission fun admission =>
      admission.retire linkId resourceHash
    let taken := turn.core.taken turn.ambient.instant linkId resourceHash data
    let claimed := retired.modifyAdmission fun _ => taken.1
    ¬ turn.core.Receives linkId data hasMetadata ∧
        (after = retired ∨ after = retired.modifyAdmission AdmissionState.noteRejected) ∨
      turn.core.Receives linkId data hasMetadata ∧
        (after = claimed.modifyAdmission AdmissionState.noteRejected ∨
          (∃ text room, after = claimed.rejectResource linkId text room) ∨
          (∃ text room, after = (claimed.pushError linkId text
            room).modifyAdmission AdmissionState.noteRejected) ∨
          ∃ identity expectation text,
            turn.core.sessionIdentity linkId = some identity ∧
            taken.2 = some expectation ∧
            String.fromUTF8? ⟨data.toArray⟩ = some text ∧
            startsWithChar '/' (trimStart text) = false ∧
            turn.core.relayRefusal linkId identity expectation.room = none ∧
            after = claimed.fanOutResourceNotice linkId identity
              expectation.room text) := by
  intro after retired taken claimed
  simp only [after]
  unfold onResourceCompleted
  extract_lets rejected found second rejectedClaim
  by_cases disabled : (!retired.core.config.resourceAcceptEnabled) = true
  · rw [if_pos disabled]
    refine Or.inl ⟨fun receives => ?_, Or.inl rfl⟩
    have enabled : retired.core.config.resourceAcceptEnabled = true :=
      receives.enabled
    rw [enabled] at disabled
    cases disabled
  rw [if_neg disabled]
  have enabled : retired.core.config.resourceAcceptEnabled = true := by
    simpa using disabled
  cases proved : retired.core.sessionIdentity linkId with
  | none =>
      refine Or.inl ⟨fun receives => ?_, Or.inl rfl⟩
      have identified : (retired.core.sessionIdentity linkId).isSome = true :=
        receives.identified
      rw [proved] at identified
      cases identified
  | some identity =>
      dsimp only
      by_cases unfit : hasMetadata = true ∨ data.isEmpty = true ∨
          inboundResourceCap retired.core.config < data.length
      · rw [if_pos unfit]
        refine Or.inl ⟨fun receives => ?_, Or.inr rfl⟩
        rcases unfit with metadata | empty | large
        · rw [receives.plain] at metadata
          cases metadata
        · exact receives.nonempty (List.isEmpty_iff.mp empty)
        · exact absurd receives.fits (Nat.not_le.mpr large)
      rw [if_neg unfit]
      rw [not_or, not_or] at unfit
      have known : turn.core.sessionIdentity linkId = some identity := proved
      have receives : turn.core.Receives linkId data hasMetadata :=
        ⟨enabled, by rw [known]; rfl, Bool.eq_false_iff.mpr unfit.1,
          fun nothing => unfit.2.1 (List.isEmpty_iff.mpr nothing),
          Nat.not_lt.mp unfit.2.2⟩
      refine Or.inr ⟨receives, ?_⟩
      cases matched : found.2 with
      | none => exact Or.inl rfl
      | some expectation =>
          dsimp only
          split
          · exact Or.inl rfl
          · rename_i text decoded
            have readable : String.fromUTF8? ⟨data.toArray⟩ = some text := by
              split at decoded
              · exact decoded
              · cases decoded
            split
            · exact Or.inr (Or.inl ⟨_, _, rfl⟩)
            · rename_i plain
              rcases second.withRelayGate_cases linkId identity
                expectation.room _ _ with ⟨refusal, gated⟩ | ⟨passes, gated⟩
              · rw [gated]
                exact Or.inr (Or.inr (Or.inl ⟨_, _, rfl⟩))
              · rw [gated]
                exact Or.inr (Or.inr (Or.inr
                  ⟨identity, expectation, text, known, matched, readable,
                    Bool.eq_false_iff.mpr plain, passes, rfl⟩))

/-- What the gate hands out in an event for a payload of a link. -/
def HubCore.claims [UnicodeTables] (linkId : LinkId) (core : HubCore)
    (input : ServiceInput) : Multiset InboundExpectation :=
  match input.input.event with
  | .resourceCompleted source resourceHash data hasMetadata =>
      if source = linkId ∧ core.Receives source data hasMetadata then
        ((core.taken input.input.ambient.instant source resourceHash
          data).2.toList : Multiset InboundExpectation)
      else 0
  | _ => 0

end Deliveries

namespace HubTurn

theorem keeps_notePacket (turn : HubTurn) (linkId : LinkId) :
    turn.core.Keeps (turn.notePacket linkId).1.core := by
  unfold notePacket
  split
  · exact .refl _
  · split
    · exact .refl _
    · exact turn.keeps_modifySession linkId _ fun _ => rfl

theorem keeps_notePackets (turn : HubTurn) (linkId : LinkId) (count : Nat) :
    turn.core.Keeps (turn.notePackets linkId count).1.core := by
  induction count generalizing turn with
  | zero => exact .refl _
  | succ count ih => exact (turn.keeps_notePacket linkId).trans (ih _)

/-- A piece of the text of a payload, as a notice of the identity. -/
def noticePiece (ms : Nat) (identity : IdentityHash) (roomName : String)
    (nickname : Option String) (chunk : String) : Envelope :=
  { Envelope.new ms .notice identity with
    room := some roomName
    nickname := nickname
    body := some (.text chunk) }

/-- The pieces go to the members of the room one after the other. -/
def fanOutPieces (room : HubRoom) (identity : IdentityHash)
    (roomName : String) (nickname : Option String) (turn : HubTurn)
    (chunks : List String) : HubTurn :=
  chunks.foldl
    (fun turn chunk => turn.fanOut room
      (noticePiece turn.ambient.ms identity roomName nickname chunk)) turn

/-- A notice that came as a resource costs its sender some packets, and goes
out in pieces if it is paid for and the room is there. -/
theorem fanOutResourceNotice_cases (turn : HubTurn) (linkId : LinkId)
    (identity : IdentityHash) (roomName text : String) :
    ∃ nickname bytes,
      let chunks := chunkText text bytes
      let paid := (turn.notePackets linkId chunks.length).1
      let after := turn.fanOutResourceNotice linkId identity roomName text
      after = paid ∨
      (∃ change, after = (paid.modifyStats change).push
        ((paid.modifyStats change).hubErrorEcho linkId "rate limited" (some roomName))) ∨
      ∃ room change, turn.core.rooms.lookup roomName = some room ∧
        after = ((paid.modifyStats change).fanOutPieces room identity
          roomName nickname chunks).noteRelayed roomName := by
  unfold fanOutResourceNotice
  extract_lets _ _ _ nickname budget chunks after
  refine ⟨nickname, max budget minNoticeBodyBytes, ?_⟩
  intro same paid
  have equal : same = chunks := rfl
  simp only [after, paid, equal]
  clear_value nickname chunks
  split
  · exact Or.inr (Or.inl ⟨_, rfl⟩)
  · split
    · exact Or.inl rfl
    · rename_i room held
      rw [notePackets_rooms] at held
      exact Or.inr (Or.inr ⟨room, _, held, rfl⟩)

theorem keeps_fanOutPieces (room : HubRoom) (identity : IdentityHash)
    (roomName : String) (nickname : Option String) (turn : HubTurn) (chunks : List String) :
    turn.core.Keeps (turn.fanOutPieces room identity roomName nickname chunks).core :=
  keeps_foldl (fun _ _ => keeps_pushAll _ _) chunks turn

theorem keeps_fanOutResourceNotice (turn : HubTurn) (linkId : LinkId)
    (identity : IdentityHash) (roomName text : String) :
    turn.core.Keeps
      (turn.fanOutResourceNotice linkId identity roomName text).core := by
  obtain ⟨nickname, bytes, cases⟩ :=
    turn.fanOutResourceNotice_cases linkId identity roomName text
  extract_lets chunks paid after at cases
  have pays : turn.core.Keeps paid.core :=
    turn.keeps_notePackets linkId chunks.length
  change turn.core.Keeps after.core
  rcases cases with unknown | ⟨change, poor⟩ | ⟨room, change, -, relayed⟩
  · rw [unknown]
    exact pays
  · rw [poor]
    exact pays.trans (HubCore.keeps_of_sessions rfl rfl)
  · rw [relayed]
    have counts : paid.core.Keeps (paid.modifyStats change).core :=
      HubCore.keeps_of_sessions rfl rfl
    exact ((pays.trans counts).trans (keeps_fanOutPieces _ _ _ _ _ _)).trans
      (housed_mintRoomToken _ roomName).keeps

/-- What is no error is a piece of the text from the identity, and goes to a
member of the room. -/
def Notifies (identity : IdentityHash) (roomName text : String)
    (rooms : FiniteMap String HubRoom) (sent : Sent) : Prop :=
  ∀ target envelope, sent.send = .envelope target envelope →
    envelope.messageType ≠ .error →
      (∃ ms nickname bytes, ∃ chunk ∈ chunkText text bytes,
        envelope = noticePiece ms identity roomName nickname chunk) ∧
      sent.core.rooms = rooms ∧
      ∃ room, rooms.lookup roomName = some room ∧ target ∈ room.members

section Notices

variable {identity : IdentityHash} {roomName notice : String}
  {rooms : FiniteMap String HubRoom}

theorem notifies_hubErrorEcho (turn : HubTurn) (linkId : LinkId)
    (text : String) (room : Option String) :
    Sends (Notifies identity roomName notice rooms) turn
      (turn.push (turn.hubErrorEcho linkId text room)) := by
  have echoes : ∃ scope, turn.hubErrorEcho linkId text room =
      turn.hubError linkId text scope := by
    rw [hubErrorEcho]
    split
    · exact ⟨room, rfl⟩
    · exact ⟨none, rfl⟩
  obtain ⟨scope, isError⟩ := echoes
  rw [isError]
  apply sends_push
  intro target envelope isSend kind
  cases isSend
  exact absurd rfl kind

theorem notifies_pushError (turn : HubTurn) (linkId : LinkId)
    (text : String) (room : Option String) :
    Sends (Notifies identity roomName notice rooms) turn
      (turn.pushError linkId text room) := by
  apply sends_push
  intro target envelope isSend kind
  cases isSend
  exact absurd rfl kind

theorem notePackets_out (turn : HubTurn) (linkId : LinkId) (count : Nat) :
    (turn.notePackets linkId count).1.out = turn.out := by
  induction count generalizing turn with
  | zero => rfl
  | succ count ih => exact (ih _).trans (turn.notePacket_frame linkId).2

theorem notifies_fanOutPieces {room : HubRoom} {nickname : Option String}
    {bytes : Nat} (held : rooms.lookup roomName = some room) (chunks : List String)
    (pieces : ∀ chunk ∈ chunks, chunk ∈ chunkText notice bytes)
    (turn : HubTurn) (same : turn.core.rooms = rooms) :
    Sends (Notifies identity roomName notice rooms) turn
      (turn.fanOutPieces room identity roomName nickname chunks) := by
  induction chunks generalizing turn with
  | nil => exact sends_of_eq rfl
  | cons chunk rest ih =>
      have first : Sends (Notifies identity roomName notice rooms) turn
          (turn.fanOut room
            (noticePiece turn.ambient.ms identity roomName nickname
              chunk)) := by
        refine sends_pushAll turn fun send among => ?_
        obtain ⟨member, inside, rfl⟩ := List.mem_map.mp among
        intro target content isSend _
        cases isSend
        exact ⟨⟨turn.ambient.ms, nickname, bytes, chunk,
          pieces chunk List.mem_cons_self, rfl⟩, same, room, held, inside⟩
      refine first.trans (ih
        (fun later member =>
          pieces later (List.mem_cons_of_mem chunk member)) _ ?_)
      rw [reseats_fanOut_core]
      exact same

end Notices

theorem notifies_fanOutResourceNotice (turn : HubTurn) (linkId : LinkId)
    (identity : IdentityHash) (roomName text : String) :
    Sends (Notifies identity roomName text turn.core.rooms) turn
      (turn.fanOutResourceNotice linkId identity roomName text) := by
  obtain ⟨nickname, bytes, cases⟩ :=
    turn.fanOutResourceNotice_cases linkId identity roomName text
  extract_lets chunks paid after at cases
  have pays : Sends (Notifies identity roomName text turn.core.rooms) turn
      paid :=
    sends_of_eq (turn.notePackets_out linkId chunks.length)
  have counts {change : HubStats → HubStats} :
      Sends (Notifies identity roomName text turn.core.rooms) paid (paid.modifyStats change) :=
    sends_of_eq rfl
  change Sends _ turn after
  rcases cases with unknown | ⟨change, poor⟩ | ⟨room, change, held, relayed⟩
  · rw [unknown]
    exact pays
  · rw [poor]
    exact (pays.trans counts).trans (notifies_hubErrorEcho _ _ _ _)
  · rw [relayed]
    exact ((pays.trans counts).trans (notifies_fanOutPieces held chunks
      (fun _ member => member) _
      (turn.notePackets_rooms linkId chunks.length))).trans
      (sends_of_eq (mintRoomToken_out _ roomName))

end HubTurn

/-! ## Events as calls -/

section Events

variable [UnicodeTables] [HubCrypto]

/-- What an event does to the gate is these calls: they hand out what the
event claims, they take no more announcements than the event makes, and only
such as welcomed links make for rooms that let them speak, and a link that
loses its identity is left with nothing. -/
structure HubCore.Serves (ops : List AdmissionOp) (core : HubCore)
    (input : ServiceInput) (after : HubCore) : Prop where
  admission : after.admission = runFrom AdmissionState.perform core.admission ops
  claimed : ∀ linkId,
    tally AdmissionState.perform (AdmissionState.claimed linkId)
      core.admission ops = core.claims linkId input
  announced : ∀ linkId,
    tally AdmissionState.perform (AdmissionState.announced linkId)
      core.admission ops ≤ core.announces linkId input
  promised : ∀ linkId expectation,
    AdmissionOp.expect linkId expectation ∈ ops →
      ∃ identity envelope, core.Promises input.input linkId identity envelope expectation
  vacated : ∀ linkId, after.sessionIdentity linkId = none →
    core.sessionIdentity linkId = none ∨ after.admission.Vacant linkId

namespace HubCore

/-- Quiet calls, in an event that claims nothing. -/
theorem serves_of_quiet {ops : List AdmissionOp} {core after : HubCore}
    {input : ServiceInput} (admission : after.admission =
      runFrom AdmissionState.perform core.admission ops)
    (claimsNothing : ∀ linkId, core.claims linkId input = 0) (quiet : ∀ op ∈ ops, op.Quiet)
    (vacated : ∀ linkId, after.sessionIdentity linkId = none →
      core.sessionIdentity linkId = none ∨ after.admission.Vacant linkId) :
    core.Serves ops input after := by
  have silent (linkId : LinkId) (op : AdmissionOp) (among : op ∈ ops)
      (state : AdmissionState) :=
    AdmissionState.silent_of_quiet (quiet op among) linkId state
  refine ⟨admission, fun linkId => ?_, fun linkId => ?_,
    fun linkId expectation among => (quiet _ among).elim, vacated⟩
  · rw [claimsNothing, tally_eq_zero fun op among state =>
      (silent linkId op among state).1]
  · rw [tally_eq_zero fun op among state => (silent linkId op among state).2]
    exact Multiset.zero_le _

omit [UnicodeTables] [HubCrypto] in
theorem vacant_of_gone {gone : List LinkId} {linkId : LinkId}
    (among : linkId ∈ gone) (state : AdmissionState) :
    (gone.foldl AdmissionState.forgetLink state).Vacant linkId := by
  induction gone generalizing state with
  | nil => cases among
  | cons first rest ih =>
      rw [List.foldl_cons]
      rcases List.mem_cons.mp among with same | later
      · rw [← runFrom_forgetLinks]
        apply AdmissionState.vacant_run
        · rw [same]
          exact state.vacant_forgetLink first
        · intro expectation listed
          obtain ⟨link, -, isForget⟩ := List.mem_map.mp listed
          cases isForget
      · exact ih later (state.forgetLink first)

theorem Departs.serves {gone : List LinkId} {core after : HubCore}
    (departs : Departs gone core after) {input : ServiceInput}
    (claimsNothing : ∀ linkId, core.claims linkId input = 0) :
    core.Serves (gone.map AdmissionOp.forgetLink) input after := by
  refine serves_of_quiet ?_ claimsNothing (fun op among => ?_)
    fun linkId lost => ?_
  · rw [runFrom_forgetLinks]
    exact departs.admission
  · obtain ⟨link, -, rfl⟩ := List.mem_map.mp among
    trivial
  · rw [departs.identity] at lost
    by_cases isGone : linkId ∈ gone
    · rw [departs.admission]
      exact Or.inr (vacant_of_gone isGone _)
    · rw [if_neg isGone] at lost
      exact Or.inl lost

theorem Calls.serves {ops : List AdmissionOp} {core after : HubCore}
    (calls : Calls ops core after) {input : ServiceInput}
    (claimsNothing : ∀ linkId, core.claims linkId input = 0)
    (quiet : ∀ op ∈ ops, op.Quiet) : core.Serves ops input after := by
  refine serves_of_quiet calls.admission claimsNothing quiet fun linkId lost => ?_
  rw [calls.identity] at lost
  exact Or.inl lost

/-- A delivery claims what the gate holds for it, and no more. -/
theorem serves_resourceCompleted {core : HubCore} {input : ServiceInput}
    {source : LinkId} {resourceHash : Bytes 32} {data : List UInt8} {hasMetadata : Bool}
    (event : input.input.event = .resourceCompleted source resourceHash data hasMetadata) :
    ∃ ops, core.Serves ops input (core.step input.input) := by
  have handled : core.step input.input =
      ((core.turn input.input.ambient).onResourceCompleted source
        resourceHash data hasMetadata).core := by
    rw [HubCore.step, HubCore.handle, event]
    rfl
  rw [handled]
  have cases := (core.turn input.input.ambient).onResourceCompleted_cases
    source resourceHash data hasMetadata
  extract_lets after retired taken claimed at cases
  change ∃ ops, core.Serves ops input after.core
  have retires : Calls [.retire source resourceHash] core retired.core :=
    ⟨rfl, fun _ => rfl⟩
  have rejects (turn : HubTurn) : Calls [.noteRejected] turn.core
      (turn.modifyAdmission AdmissionState.noteRejected).core :=
    ⟨rfl, fun _ => rfl⟩
  rcases cases with ⟨unfit, cases⟩ | ⟨receives, cases⟩
  · have claimsNothing (linkId : LinkId) : core.claims linkId input = 0 := by
      rw [claims, event]
      exact if_neg fun both => unfit both.2
    rcases cases with ended | rejected
    · rw [ended]
      exact ⟨_, retires.serves claimsNothing (by simp [AdmissionOp.Quiet])⟩
    · rw [rejected]
      exact ⟨_, (retires.trans (rejects retired)).serves claimsNothing
        (by simp [AdmissionOp.Quiet])⟩
  · have claimsAll (linkId : LinkId) : core.claims linkId input =
        if source = linkId then
          (taken.2.toList : Multiset InboundExpectation)
        else 0 := by
      rw [claims, event]
      by_cases same : source = linkId
      · rw [if_pos same]
        exact if_pos ⟨same, receives⟩
      · rw [if_neg same]
        exact if_neg fun both => same both.1
    have takes : Calls [.retire source resourceHash,
        .takeMatching source data.length (HubCrypto.sha256 data)
          input.input.ambient.instant] core claimed.core :=
      ⟨rfl, fun _ => rfl⟩
    have serves {rest : List AdmissionOp} {last : HubCore}
        (calls : Calls rest claimed.core last)
        (each : ∀ op ∈ rest, op.Quiet) :
        ∃ ops, core.Serves ops input last := by
      have both := takes.trans calls
      refine ⟨_, both.admission, fun linkId => ?_, fun linkId => ?_,
        fun linkId expectation among => ?_, fun linkId lost => ?_⟩
      · rw [tally_append, tally_eq_zero fun op among state =>
          (AdmissionState.silent_of_quiet (each op among) linkId state).1,
          claimsAll]
        simp only [tally, AdmissionState.claimed, add_zero, zero_add]
        rfl
      · rw [tally_append, tally_eq_zero fun op among state =>
          (AdmissionState.silent_of_quiet (each op among) linkId state).2]
        exact Multiset.zero_le _
      · rcases List.mem_append.mp among with early | late
        · simp at early
        · exact (each _ late).elim
      · rw [both.identity] at lost
        exact Or.inl lost
    rcases cases with unmatched | ⟨text, room, rejected⟩ |
      ⟨text, room, refused⟩ |
      ⟨identity, expectation, text, -, -, -, -, -, relayed⟩
    · rw [unmatched]
      exact serves (rejects claimed) (by simp [AdmissionOp.Quiet])
    · rw [rejected]
      exact serves (claimed.calls_rejectResource source text room) (by simp [AdmissionOp.Quiet])
    · have refuses : Calls [.noteRejected] claimed.core
          ((claimed.pushError source text room).modifyAdmission
            AdmissionState.noteRejected).core :=
        ⟨rfl, fun _ => rfl⟩
      rw [refused]
      exact serves refuses (by simp [AdmissionOp.Quiet])
    · rw [relayed]
      exact serves
        (claimed.keeps_fanOutResourceNotice source identity _ text).calls
        (by simp)

omit [UnicodeTables] [HubCrypto] in
theorem keeps_received (turn : HubTurn) (linkId : LinkId) (envelope : Envelope) :
    turn.core.Keeps (turn.received linkId envelope).core :=
  (turn.keeps_notePacket linkId).trans (HubTurn.keeps_modifySession _ linkId _ fun _ => rfl)

/-- An envelope that announces a resource reaches its handler, or costs its
sender a token only. -/
theorem onPacket_resourceEnvelope {core : HubCore} {input : HubInput}
    {linkId : LinkId} {envelope : Envelope}
    (event : input.event = .linkPacket linkId (some envelope))
    (kind : envelope.messageType = .resourceEnvelope) :
    let turn := core.turn input.ambient
    core.Keeps (turn.onPacket linkId (some envelope)).core ∨
      ∃ identity,
        core.delivered input = some (linkId, identity, envelope) ∧
        turn.onPacket linkId (some envelope) =
          (turn.received linkId envelope).onResourceEnvelope linkId
            envelope := by
  intro turn
  have pays : core.Keeps (turn.notePacket linkId).1.core :=
    turn.keeps_notePacket linkId
  unfold HubTurn.onPacket
  dsimp only
  split
  · exact Or.inl (pays.trans (keeps_of_sessions rfl rfl))
  · rename_i allowed
    unfold HubTurn.onEnvelope
    split
    · exact Or.inl pays
    · rename_i paid live
      split
      · exact Or.inl pays
      · rename_i identified
        split
        · exact Or.inl (pays.trans (keeps_of_sessions rfl rfl))
        · rename_i fresh
          have receives : core.Keeps (turn.received linkId envelope).core :=
            keeps_received turn linkId envelope
          simp only [kind]
          split
          · rename_i welcomed
            obtain ⟨identity, delivered⟩ := HubTurn.delivered_of_paid event
              live identified fresh (by simpa using allowed) welcomed
            refine Or.inr ⟨identity, delivered, ?_⟩
            simp only [HubTurn.onWelcomedEnvelope, kind]
            rfl
          · exact Or.inl (receives.trans (keeps_of_sessions rfl rfl))

/-- An announcement is taken once at most. -/
theorem serves_resourceEnvelope {core : HubCore} {input : ServiceInput}
    {source : LinkId} {envelope : Envelope}
    (event : input.input.event = .linkPacket source (some envelope))
    (kind : envelope.messageType = .resourceEnvelope) :
    ∃ ops, core.Serves ops input (core.step input.input) := by
  have handled : core.step input.input =
      ((core.turn input.input.ambient).onPacket source
        (some envelope)).core := by
    rw [HubCore.step, HubCore.handle, event]
    rfl
  have claimsNothing (linkId : LinkId) : core.claims linkId input = 0 := by
    rw [claims, event]
  rw [handled]
  rcases onPacket_resourceEnvelope event kind with
    keeps | ⟨identity, delivered, reached⟩
  · exact ⟨_, keeps.calls.serves claimsNothing (by simp)⟩
  · rw [reached]
    have receives : core.Keeps
        ((core.turn input.input.ambient).received source envelope).core :=
      keeps_received (core.turn input.input.ambient) source envelope
    have sameAmbient :=
      (core.turn input.input.ambient).received_ambient source envelope
    have accounted :=
      (core.turn input.input.ambient).accounted_received source envelope
    obtain ⟨ops, calls, ended⟩ :=
      ((core.turn input.input.ambient).received source
        envelope).calls_onResourceEnvelope source envelope
    have all := receives.calls.trans calls
    rw [List.nil_append] at all
    rcases ended with rfl | rfl |
      ⟨enabled, sender, expectation, proved, announced, passes, ended⟩
    · exact ⟨_, all.serves claimsNothing (by simp)⟩
    · exact ⟨_, all.serves claimsNothing (by simp [AdmissionOp.Quiet])⟩
    · rw [accounted.relayRefusal] at passes
      rw [receives.identity] at proved
      obtain ⟨_, _, -, paid⟩ := accounted
      rw [sameAmbient, paid] at announced
      rw [paid] at enabled
      have promises :
          core.Promises input.input source identity envelope expectation := by
        have same : sender = identity := Option.some.inj
          (proved.symm.trans (sessionIdentity_of_delivered delivered))
        exact ⟨enabled, delivered, announced, same ▸ passes⟩
      have announces (linkId : LinkId) : core.announces linkId input =
          if source = linkId then {expectation} else 0 := by
        rw [HubCore.announces, event]
        dsimp only
        rw [promises.announced]
        rfl
      refine ⟨ops, all.admission, fun linkId => ?_, fun linkId => ?_,
        fun linkId other among => ?_, fun linkId lost => ?_⟩
      · rw [claimsNothing]
        rcases ended with rfl | rfl
        · rfl
        · rfl
      · rw [announces]
        rcases ended with rfl | rfl
        · simp only [tally, add_zero]
          exact AdmissionState.announced_expect_le _ _ _ _
        · simp only [tally, AdmissionState.announced, add_zero]
          exact AdmissionState.announced_expect_le _ _ _ _
      · have isThis : linkId = source ∧ other = expectation := by
          rcases ended with rfl | rfl
          · simpa using among
          · simpa using among
        rw [isThis.1, isThis.2]
        exact ⟨identity, envelope, promises⟩
      · rw [all.identity] at lost
        exact Or.inl lost

theorem claims_of_unmetered (core : HubCore) {input : ServiceInput}
    (unmetered : ¬ input.input.event.Meters) (linkId : LinkId) :
    core.claims linkId input = 0 := by
  rw [claims]
  split
  · rename_i source resourceHash data hasMetadata event
    rw [event] at unmetered
    exact absurd trivial unmetered
  · rfl

omit [UnicodeTables] [HubCrypto] in
theorem keeps_openSession (turn : HubTurn) (linkId : LinkId) :
    turn.core.Keeps (turn.openSession linkId).core := by
  rw [HubTurn.openSession]
  split
  · exact .refl _
  · rename_i absent
    refine ⟨rfl, fun link => ?_⟩
    simp only [HubCore.sessionIdentity, HubTurn.mapCore_core, FiniteMap.lookup_insert_ite]
    split
    · rename_i isLink
      rw [isLink, absent]
      rfl
    · rfl

omit [UnicodeTables] [HubCrypto] in
theorem departs_refuseLink (turn : HubTurn) (linkId : LinkId) :
    Departs [linkId] turn.core (turn.refuseLink linkId).core := by
  refine ⟨rfl, fun link => ?_⟩
  simp only [HubCore.sessionIdentity, HubTurn.refuseLink,
    HubTurn.mapCore_core, FiniteMap.lookup_erase_ite, List.mem_singleton]
  split
  · rfl
  · rfl

omit [UnicodeTables] [HubCrypto] in
theorem calls_resourceCycle (turn : HubTurn) :
    Calls [.sweep turn.ambient.instant] turn.core turn.resourceCycle.core := by
  refine ⟨rfl, fun link => ?_⟩
  simp only [HubCore.sessionIdentity, HubTurn.resourceCycle,
    HubTurn.modifyAdmission, HubTurn.mapCore_core, FiniteMap.lookup_mapValues]
  cases turn.core.sessions.lookup link with
  | none => rfl
  | some session => rfl

omit [UnicodeTables] [HubCrypto] in
/-- A link that proves an identity leaves the gate alone, and no link loses
its identity by it. -/
theorem bindIdentity_gate (turn : HubTurn) (linkId : LinkId) (identity : IdentityHash) :
    (turn.bindIdentity linkId identity).core.admission =
        turn.core.admission ∧
      ∀ link, (turn.bindIdentity linkId identity).core.sessionIdentity link =
          none → turn.core.sessionIdentity link = none := by
  have opens := keeps_openSession turn linkId
  refine ⟨opens.admission, fun link lost => ?_⟩
  rw [← opens.identity]
  simp only [HubCore.sessionIdentity, HubTurn.bindIdentity,
    HubTurn.mapCore_core, HubTurn.modifySession, FiniteMap.lookup_adjust]
    at lost ⊢
  split at lost
  · rename_i isLink
    subst isLink
    cases held : (turn.openSession link).core.sessions.lookup link with
    | none => rfl
    | some session =>
        rw [held] at lost
        cases lost
  · exact lost

/-- An event that is one call of the gate. -/
theorem serves_call {core : HubCore} {input : ServiceInput}
    {op : AdmissionOp} (quiet : op.Quiet)
    (event : ∀ source resourceHash data hasMetadata, input.input.event ≠
      .resourceCompleted source resourceHash data hasMetadata)
    (calls : Calls [op] core (core.step input.input)) :
    ∃ ops, core.Serves ops input (core.step input.input) := by
  have claimsNothing (linkId : LinkId) : core.claims linkId input = 0 := by
    rw [claims]
    split
    · rename_i isEvent
      exact absurd isEvent (event _ _ _ _)
    · rfl
  refine ⟨_, calls.serves claimsNothing fun other among => ?_⟩
  rw [List.mem_singleton.mp among]
  exact quiet

/-- Every event is, for the gate, some calls. -/
theorem serves_step (core : HubCore) (input : ServiceInput) :
    ∃ ops, core.Serves ops input (core.step input.input) := by
  by_cases meters : input.input.event.Meters
  · cases event : input.input.event with
    | linkPacket source decoded =>
        rw [event] at meters
        cases decoded with
        | none => exact meters.elim
        | some envelope => exact serves_resourceEnvelope event meters
    | inboundConcluded source resourceHash =>
        have quiet : (AdmissionOp.retire source resourceHash).Quiet := trivial
        refine serves_call quiet (by simp [event]) ?_
        rw [step, handle, event]
        exact ⟨rfl, fun _ => rfl⟩
    | resourceCompleted source resourceHash data hasMetadata =>
        exact serves_resourceCompleted event
    | resourceAdvertised source adv =>
        have quiet : (AdmissionOp.offer source adv
            input.input.ambient.instant).Quiet := trivial
        refine serves_call quiet (by simp [event]) ?_
        rw [step, handle, event]
        exact ⟨rfl, fun _ => rfl⟩
    | resourceTick =>
        have quiet : (AdmissionOp.sweep
            input.input.ambient.instant).Quiet := trivial
        refine serves_call quiet (by simp [event]) ?_
        rw [step, handle, event]
        exact calls_resourceCycle (core.turn input.input.ambient)
    | _ =>
        rw [event] at meters
        exact meters.elim
  · have claimsNothing := core.claims_of_unmetered meters
    have departs (ended : ∃ gone,
        Departs gone core (core.step input.input)) :
        ∃ ops, core.Serves ops input (core.step input.input) := by
      obtain ⟨gone, left⟩ := ended
      exact ⟨_, left.serves claimsNothing⟩
    rcases links_or_moves core input.input with ⟨link, handled⟩ |
      ⟨link, identity, handled⟩ | moves
    · rw [step, handled] at departs ⊢
      have opens : core.Keeps
          ((core.turn input.input.ambient).openSession link).core :=
        keeps_openSession (core.turn input.input.ambient) link
      exact departs ⟨[], opens.departs⟩
    · rw [step, handled] at departs ⊢
      rw [HubTurn.onLinkIdentified] at departs ⊢
      split
      · rename_i klined
        rw [if_pos klined] at departs
        have refuses : Departs [link] core
            ((core.turn input.input.ambient).refuseLink link).core :=
          departs_refuseLink (core.turn input.input.ambient) link
        exact departs ⟨_, refuses⟩
      · have binds := bindIdentity_gate (core.turn input.input.ambient) link
          identity
        exact ⟨[], serves_of_quiet binds.1 claimsNothing (by simp)
          fun linkId lost => Or.inl (binds.2 linkId lost)⟩
    · apply departs
      have kept (before after : HubTurn)
          (move : Move (core.limitsOf input.input) before after)
          (left : ∃ gone, Departs gone core before.core) :
          ∃ gone, Departs gone core after.core := by
        obtain ⟨early, leftEarly⟩ := left
        obtain ⟨late, leftLate⟩ := move.departs meters
        exact ⟨_, leftEarly.trans leftLate⟩
      exact moves.induct kept ⟨[], (Keeps.refl core).departs⟩

omit [UnicodeTables] [HubCrypto] in
theorem keeps_notePersistFailed (core : HubCore) (op : HubRoomOp) :
    core.Keeps (core.notePersistFailed op) := by
  cases op with
  | upsert row => exact keeps_of_sessions rfl rfl
  | touched roomName lastUsed => exact keeps_of_sessions rfl rfl
  | removed roomName => exact keeps_of_sessions rfl rfl
  | replaceKlines subjects => exact keeps_of_sessions rfl rfl
  | gcInvites before => exact .refl core

theorem keeps_serve (core : HubCore) (input : ServiceInput) :
    (core.step input.input).Keeps (core.serve input) := by
  rw [serve]
  generalize core.step input.input = after
  induction core.written input generalizing after with
  | nil => exact .refl after
  | cons outcome rest ih =>
      rw [List.foldl_cons]
      refine Keeps.trans ?_ (ih _)
      split
      · exact .refl after
      · exact keeps_notePersistFailed after outcome.1

theorem serves_serve (core : HubCore) (input : ServiceInput) :
    ∃ ops, core.Serves ops input (core.serve input) := by
  obtain ⟨ops, stepped⟩ := serves_step core input
  have keeps := keeps_serve core input
  refine ⟨ops, keeps.admission.trans stepped.admission, stepped.claimed,
    stepped.announced, stepped.promised, fun linkId lost => ?_⟩
  rw [keeps.identity] at lost
  rw [keeps.admission]
  exact stepped.vacated linkId lost

/-- A run of the hub is, for the gate, a run of calls. -/
theorem gate_run (core : HubCore) (inputs : List ServiceInput) :
    ∃ ops, (runFrom serve core inputs).admission =
        runFrom AdmissionState.perform core.admission ops ∧
      ∀ linkId,
        tally AdmissionState.perform (AdmissionState.claimed linkId)
            core.admission ops = tally serve (claims linkId) core inputs ∧
        tally AdmissionState.perform (AdmissionState.announced linkId)
            core.admission ops ≤
          tally serve (announces linkId) core inputs := by
  induction inputs generalizing core with
  | nil => exact ⟨[], rfl, fun linkId => ⟨rfl, le_rfl⟩⟩
  | cons input rest ih =>
      obtain ⟨early, first⟩ := core.serves_serve input
      obtain ⟨late, reached, tallies⟩ :=
        ih (core.serve input)
      rw [first.admission] at reached tallies
      refine ⟨early ++ late, ?_, fun linkId => ⟨?_, ?_⟩⟩
      · rw [runFrom_append]
        exact reached
      · rw [tally_append, first.claimed, (tallies linkId).1]
        rfl
      · rw [tally_append]
        exact add_le_add (first.announced linkId) (tallies linkId).2

/-- The gate holds nothing for a link that proved no identity, and nothing at
all while resources are off. -/
structure Attended (core : HubCore) : Prop where
  unproved : ∀ linkId, core.sessionIdentity linkId = none → core.admission.Vacant linkId
  off : core.config.resourceAcceptEnabled = false → ∀ linkId, core.admission.Vacant linkId

theorem attended_serve {core : HubCore} (attended : core.Attended) (input : ServiceInput)
    (sameConfig : (core.serve input).config = core.config) :
    (core.serve input).Attended := by
  obtain ⟨ops, serves⟩ := core.serves_serve input
  constructor
  · intro linkId lost
    rcases serves.vacated linkId lost with unproved | vacant
    · rw [serves.admission]
      apply AdmissionState.vacant_run (attended.unproved linkId unproved)
      intro expectation among
      obtain ⟨identity, envelope, promises⟩ :=
        serves.promised linkId expectation among
      have identified := sessionIdentity_of_delivered promises.delivered
      rw [unproved] at identified
      cases identified
    · exact vacant
  · intro disabled linkId
    rw [sameConfig] at disabled
    rw [serves.admission]
    apply AdmissionState.vacant_run (attended.off disabled linkId)
    intro expectation among
    obtain ⟨identity, envelope, promises⟩ :=
      serves.promised linkId expectation among
    have enabled := promises.enabled
    rw [disabled] at enabled
    cases enabled

end HubCore

/-! ## What a delivery relays -/

/-- A payload of a link may go into the room that it was announced for. -/
structure HubCore.Delivers (core : HubCore) (input : ServiceInput)
    (linkId : LinkId) (data : List UInt8) (identity : IdentityHash)
    (expectation : InboundExpectation) (room : HubRoom) : Prop where
  enabled : core.config.resourceAcceptEnabled = true
  identified : core.sessionIdentity linkId = some identity
  expected : expectation ∈ core.admission.pending linkId
  claimed : core.claims linkId input = {expectation}
  size : expectation.size = data.length
  digest : ∀ want ∈ expectation.sha256, want = HubCrypto.sha256 data
  fresh : input.input.ambient.instant - expectation.createdAt ≤ resourceExpectationTtl
  fits : data.length ≤ HubTurn.inboundResourceCap core.config
  gate : core.relayRefusal linkId identity expectation.room = none
  held : core.rooms.lookup expectation.room = some room

/-- What is sent besides errors while a payload is delivered are pieces of its
text, which is no command. -/
theorem HubCore.piece_of_send {core : HubCore} {input : HubInput}
    {source : LinkId} {resourceHash : Bytes 32} {data : List UInt8} {hasMetadata : Bool}
    (event : input.event = .resourceCompleted source resourceHash data hasMetadata)
    {sent : Sent} (among : sent ∈ (core.handle input).out)
    {target : LinkId} {envelope : Envelope} (isSend : sent.send = .envelope target envelope)
    (kind : envelope.messageType ≠ .error) :
    ∃ identity expectation text,
      core.Receives source data hasMetadata ∧
      core.sessionIdentity source = some identity ∧
      (core.taken input.ambient.instant source resourceHash data).2 = some expectation ∧
      String.fromUTF8? ⟨data.toArray⟩ = some text ∧
      startsWithChar '/' (trimStart text) = false ∧
      core.relayRefusal source identity expectation.room = none ∧
      (∃ ms nickname bytes, ∃ chunk ∈ chunkText text bytes,
        envelope = HubTurn.noticePiece ms identity expectation.room nickname chunk) ∧
      sent.core.rooms = core.rooms ∧
      ∃ room, core.rooms.lookup expectation.room = some room ∧
        target ∈ room.members := by
  have handled : core.handle input =
      (core.turn input.ambient).onResourceCompleted source
        resourceHash data hasMetadata := by
    rw [HubCore.handle, event]
    rfl
  rw [handled] at among
  have cases := (core.turn input.ambient).onResourceCompleted_cases
    source resourceHash data hasMetadata
  extract_lets after retired taken claimed at cases
  change sent ∈ after.out at among
  -- All that is sent besides the last case is an error.
  have silent (sends : HubTurn.Sends
      (HubTurn.Notifies core.hubHash "" "" ∅) claimed after) : False := by
    have told := sends.all (by simp [claimed, retired, HubCore.turn,
      HubTurn.modifyAdmission, HubTurn.mapCore]) sent among
    obtain ⟨-, -, room, held, -⟩ := told target envelope isSend kind
    rw [AList.lookup_empty] at held
    cases held
  rcases cases with ⟨-, ended | rejected⟩ |
    ⟨receives, unmatched | ⟨text, room, rejected⟩ | ⟨text, room, refused⟩ |
      ⟨identity, expectation, text, known, matched, readable, plain, passes, relayed⟩⟩
  · refine (silent (HubTurn.sends_of_eq ?_)).elim
    rw [ended]
    rfl
  · refine (silent (HubTurn.sends_of_eq ?_)).elim
    rw [rejected]
    rfl
  · refine (silent (HubTurn.sends_of_eq ?_)).elim
    rw [unmatched]
    rfl
  · refine (silent ?_).elim
    rw [rejected]
    exact (HubTurn.sends_of_eq rfl).trans (HubTurn.notifies_hubErrorEcho _ _ _ _)
  · refine (silent ?_).elim
    rw [refused]
    exact (claimed.notifies_pushError source text room).trans (HubTurn.sends_of_eq rfl)
  · have sends := claimed.notifies_fanOutResourceNotice source identity
      expectation.room text
    rw [← relayed] at sends
    have told := sends.all (by simp [claimed, retired, HubCore.turn,
      HubTurn.modifyAdmission, HubTurn.mapCore]) sent among
    obtain ⟨piece, same, room, held, inside⟩ :=
      told target envelope isSend kind
    exact ⟨identity, expectation, text, receives, known, matched, readable,
      plain, passes, piece, same, room, held, inside⟩

omit [UnicodeTables] in
/-- What the gate hands out for a payload it expected, and the payload is as
it was announced. -/
theorem HubCore.pending_of_taken {core : HubCore} {now : Instant}
    {linkId : LinkId} {resourceHash : Bytes 32} {data : List UInt8}
    {expectation : InboundExpectation}
    (isTaken : (core.taken now linkId resourceHash data).2 = some expectation) :
    expectation ∈ core.admission.pending linkId ∧
      expectation.size = data.length ∧
      (∀ want ∈ expectation.sha256, want = HubCrypto.sha256 data) ∧
      now - expectation.createdAt ≤ resourceExpectationTtl := by
  rcases AdmissionState.takeMatching_cases
    (core.admission.retire linkId resourceHash) linkId data.length
    (HubCrypto.sha256 data) now with
    nothing | ⟨found, rest, isFound, sized, digested, holds⟩
  · rw [taken, nothing] at isTaken
    cases isTaken
  · rw [taken, isFound] at isTaken
    cases isTaken
    have kept := holds.subset List.mem_cons_self
    rw [AdmissionState.pending_prune, AdmissionState.pending_retire,
      List.mem_filter, decide_eq_true_eq] at kept
    exact ⟨kept.1, sized, digested, kept.2⟩

/-- What goes into a room while a payload is delivered was announced for the
room, and goes to its members. -/
theorem HubCore.delivers_of_send {core : HubCore} {input : ServiceInput}
    {source : LinkId} {resourceHash : Bytes 32} {data : List UInt8} {hasMetadata : Bool}
    (event : input.input.event = .resourceCompleted source resourceHash data hasMetadata)
    {sent : Sent} (among : sent ∈ (core.handle input.input).out)
    {target : LinkId} {envelope : Envelope} (isSend : sent.send = .envelope target envelope)
    (kind : envelope.messageType ≠ .error) :
    ∃ identity expectation room,
      core.Delivers input source data identity expectation room ∧
      envelope.source = identity ∧
      envelope.room = some expectation.room ∧ target ∈ room.members := by
  obtain ⟨identity, expectation, text, receives, known, isTaken, -, -, passes,
    ⟨ms, nickname, bytes, chunk, -, rfl⟩, -, room, held, inside⟩ :=
    piece_of_send event among isSend kind
  refine ⟨identity, expectation, room, ?_, rfl, rfl, inside⟩
  have spent : core.claims source input = {expectation} := by
    rw [HubCore.claims, event]
    dsimp only
    rw [if_pos ⟨rfl, receives⟩, isTaken]
    rfl
  obtain ⟨expected, sized, digested, fresh⟩ := pending_of_taken isTaken
  exact ⟨receives.enabled, known, expected, spent, sized, digested, fresh,
    receives.fits, passes, held⟩

/-! ## Runs -/

/-- What holds of the state after a run of the hub. -/
structure HubCore.MetersResources (first : HubCore)
    (inputs : List ServiceInput) (core : HubCore) : Prop where
  /-- No link has more than its share of the gate. -/
  bounded : core.admission.Bounded
  /-- What was handed out for payloads of a link, with what it still expects,
  was announced by the link, each announcement counted once. -/
  once : ∀ linkId,
    tally serve (claims linkId) first inputs +
        (core.admission.pending linkId : Multiset InboundExpectation) ≤
      tally serve (announces linkId) first inputs
  /-- What goes into a room while a payload is delivered was announced for the
  room, and goes to its members. -/
  relays : ∀ (input : ServiceInput) (source : LinkId)
    (resourceHash : Bytes 32) (data : List UInt8) (hasMetadata : Bool),
    input.input.event =
        .resourceCompleted source resourceHash data hasMetadata →
      ∀ sent ∈ (core.handle input.input).out, ∀ target envelope,
        sent.send = .envelope target envelope →
          envelope.messageType ≠ .error →
            ∃ identity expectation room,
              core.Delivers input source data identity expectation room ∧
              expectation ∈ tally serve (announces source) first inputs ∧
              envelope.source = identity ∧
              envelope.room = some expectation.room ∧ target ∈ room.members
  /-- Nothing is let in while resources are off. -/
  off : core.config.resourceAcceptEnabled = false →
    ∀ linkId, core.admission.Vacant linkId ∧
      ∀ adv now, (core.admission.admitAdvertised linkId adv now).2 = false
  /-- The gate holds nothing for a link that was closed or turned away. -/
  vacated : ∀ linkId, core.sessionIdentity linkId = none → core.admission.Vacant linkId

omit [HubCrypto] in
theorem HubCore.admission_restore (core : HubCore) (now : WallTime) (rows : List HubRoomRow) :
    (core.restore now rows).admission = core.admission :=
  @HubCore.restore_induct _
    (fun restored => restored.admission = core.admission) now
    (fun _ _ same _ => same) core rows rfl

/-- The gate that a hub starts with holds nothing, and from then on nothing
for a link that proved no identity. -/
theorem attended_run (config : ChannelHubConfig) (hubHash : IdentityHash)
    (klines : FiniteSet IdentityHash) (pepper : Bytes 32)
    (restored : List HubRoomRow) (start : Ambient) (inputs : List ServiceInput) :
    let admission := AdmissionState.new config.resourceAcceptEnabled
      (HubTurn.inboundResourceCap config)
    let first := HubCore.new config hubHash klines admission pepper restored start
    first.admission = admission ∧
      (runFrom HubCore.serve first inputs).Restorable config hubHash ∧
      (runFrom HubCore.serve first inputs).Attended := by
  intro admission first
  have gate : first.admission = admission := by
    simp only [first, HubCore.new]
    exact HubCore.admission_restore _ _ _
  have kept (core : HubCore) (input : ServiceInput)
      (known : core.Restorable config hubHash ∧ core.Attended) :
      (core.serve input).Restorable config hubHash ∧
        (core.serve input).Attended := by
    have restorable := restorable_serve known.1 input
    exact ⟨restorable, HubCore.attended_serve known.2 input
      (restorable.sameConfig.trans known.1.sameConfig.symm)⟩
  have vacant (linkId : LinkId) : first.admission.Vacant linkId := by
    rw [gate]
    exact ⟨rfl, rfl⟩
  exact ⟨gate, invariant_of_forall_step kept inputs
    ⟨restorable_new config hubHash klines admission pepper restored start,
      fun linkId _ => vacant linkId, fun _ linkId => vacant linkId⟩⟩

/-- The gate for resources keeps its promises in every order of calls, and so
does the hub in every run. -/
theorem inboundResources_run (config : ChannelHubConfig)
    (hubHash : IdentityHash) (klines : FiniteSet IdentityHash)
    (pepper : Bytes 32) (restored : List HubRoomRow) (start : Ambient) :
    let admission := AdmissionState.new config.resourceAcceptEnabled
      (HubTurn.inboundResourceCap config)
    let first := HubCore.new config hubHash klines admission pepper restored start
    (∀ ops, (runFrom AdmissionState.perform admission ops).Sound
      config.resourceAcceptEnabled (HubTurn.inboundResourceCap config) ops) ∧
    ∀ inputs, (runFrom HubCore.serve first inputs).config = config ∧
      first.MetersResources inputs (runFrom HubCore.serve first inputs) := by
  intro admission first
  have sound (ops : List AdmissionOp) :=
    AdmissionState.sound_run config.resourceAcceptEnabled
      (HubTurn.inboundResourceCap config) ops
  refine ⟨sound, fun inputs => ?_⟩
  obtain ⟨gate, restorable, attended⟩ :=
    attended_run config hubHash klines pepper restored start inputs
  obtain ⟨ops, reached, tallies⟩ := first.gate_run inputs
  rw [gate] at reached tallies
  have state := sound ops
  generalize runFrom HubCore.serve first inputs = core at *
  rw [← reached] at state
  have once (linkId : LinkId) :
      tally HubCore.serve (HubCore.claims linkId) first inputs +
          (core.admission.pending linkId : Multiset InboundExpectation) ≤
        tally HubCore.serve (HubCore.announces linkId) first inputs :=
    (add_le_add (tallies linkId).1.ge le_rfl).trans
      ((state.once linkId).trans (tallies linkId).2)
  refine ⟨restorable.sameConfig, state.bounded, once, ?_, ?_, attended.unproved⟩
  · intro input source resourceHash data hasMetadata event sent among target
      envelope isSend kind
    obtain ⟨identity, expectation, room, delivers, sender, scope, inside⟩ :=
      HubCore.delivers_of_send event among isSend kind
    refine ⟨identity, expectation, room, delivers, ?_, sender, scope, inside⟩
    exact Multiset.mem_of_le ((Multiset.le_add_left _ _).trans (once source)) delivers.expected
  · intro disabled linkId
    refine ⟨attended.off disabled linkId, fun adv now => ?_⟩
    rw [restorable.sameConfig] at disabled
    rw [Bool.eq_false_iff]
    intro admitted
    have enabled := (state.admits linkId adv now admitted).1
    rw [disabled] at enabled
    cases enabled

end Events

end Ratspeak
