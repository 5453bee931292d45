import Ratspeak.Hub.Procedures

/-!
# The events as moves

An event but two is a sequence of moves: the exceptions are that a link is
there, and that it proved an identity.  Which operations on the roll an event
may carry out follows from the event and the state it meets, and the functions
here that say so are what conditions on the inputs of a run are made of.
-/

namespace Ratspeak

open Library

/-! ## What an event is about -/

/-- The event consults the gate for resources, other than by closing a
link. -/
def HubEvent.Meters : HubEvent → Prop
  | .linkPacket _ (some envelope) => envelope.messageType = .resourceEnvelope
  | .inboundConcluded _ _ => True
  | .resourceCompleted _ _ _ _ => True
  | .resourceAdvertised _ _ => True
  | .resourceTick => True
  | _ => False

namespace HubCore

section Delivered

variable [UnicodeTables] [HubCrypto]

/-- The envelope of an event that is paid for, new, and of a session that was
welcomed, with the identity of its sender. -/
def delivered (core : HubCore) (input : HubInput) :
    Option (LinkId × IdentityHash × Envelope) :=
  match input.event with
  | .linkPacket linkId (some envelope) =>
      (core.sessions.lookup linkId).bind fun session =>
        (session.identity.filter fun _ =>
          session.welcomed && !decide (envelope.messageId ∈ session.seenIds) &&
            (session.rate.allow input.ambient.instant core.config.rateMessagesPerMinute).2).map
          fun identity => (linkId, identity, envelope)
  | _ => none

/-- The delivered envelope, if it is a command. -/
def commanded (core : HubCore) (input : HubInput) :
    Option (LinkId × IdentityHash × Envelope) :=
  (core.delivered input).filter fun (_, _, envelope) =>
    decide (envelope.messageType ∈
      [MessageType.message, MessageType.notice, MessageType.action]) &&
      HubTurn.isSlashText envelope

/-- The identity that an event bans from the hub. -/
def klinedBy (core : HubCore) (input : HubInput) : Option IdentityHash :=
  match input.event with
  | .adminMutation actor (.setHubBan target true) =>
      if actor ∈ core.serverOps ∧ ¬ target ∈ core.serverOps ∧
          ¬ target ∈ core.klines then some target
      else none
  | _ =>
      (core.commanded input).bind fun (_, identity, envelope) =>
        core.klinedBySlash identity envelope

/-- The room that an accepted `/register` registers. -/
def registeredBy (core : HubCore) (input : HubInput) : Option String :=
  (core.commanded input).bind fun (linkId, identity, envelope) =>
    core.registeredBySlash linkId identity envelope

/-- The room that an accepted `/unregister` unregisters. -/
def unregisteredBy (core : HubCore) (input : HubInput) : Option String :=
  (core.commanded input).bind fun (_, identity, envelope) =>
    core.unregisteredBySlash identity envelope

/-- The room that an event removes an identity from, and who that is. -/
def expelledBy (core : HubCore) (input : HubInput) :
    Option (String × IdentityHash) :=
  match input.event with
  | .adminMutation actor mutation => core.expelledByOwner actor mutation
  | _ =>
      (core.commanded input).bind fun (_, identity, envelope) =>
        core.expelledBySlash identity envelope

/-- The room that an event enters the link into. -/
def entering (core : HubCore) (input : HubInput) :
    Option (LinkId × IdentityHash × String) :=
  (core.delivered input).bind fun (linkId, identity, envelope) =>
    if envelope.messageType = .join then
      ((HubTurn.namedRoom envelope).bind fun raw =>
        (core.normRoom raw).toOption.filter fun roomName =>
          HubTurn.admits core roomName identity envelope.textBody input.ambient.unix).map
        fun roomName => (linkId, identity, roomName)
    else none

/-- The room that an event takes the link out of at its own wish. -/
def parting (core : HubCore) (input : HubInput) :
    Option (LinkId × IdentityHash × String) :=
  (core.delivered input).bind fun (linkId, identity, envelope) =>
    if envelope.messageType = .part then
      ((HubTurn.namedRoom envelope).bind fun raw =>
        (core.normRoom raw).toOption).map
        fun roomName => (linkId, identity, roomName)
    else none

/-- The links whose sessions an event ends. -/
def closing (core : HubCore) (input : HubInput) : List LinkId :=
  match input.event with
  | .linkClosed linkId => [linkId]
  | .pingTick => (HubTurn.deadLinks core input.ambient.instant).map Prod.fst
  | _ =>
      match core.klinedBy input with
      | none => []
      | some target => core.linksForIdentity target

/-- No write is outstanding for a room when a command registers it, nor for
one that stays when a command unregisters it. -/
def Careful (core : HubCore) (input : HubInput) : Prop :=
  (∀ roomName, core.registeredBy input = some roomName → ¬ roomName ∈ core.pendingRemovals) ∧
  ∀ roomName, core.unregisteredBy input = some roomName → core.cleanToUnregister roomName

/-- Why an event may send an envelope into a room: a welcomed link said it,
and it is no command. -/
structure Said (core : HubCore) (input : HubInput) (roomName : String)
    (envelope : Envelope) (linkId : LinkId) (identity : IdentityHash)
    (said : Envelope) : Prop where
  delivered : core.delivered input = some (linkId, identity, said)
  kind : said.messageType ∈ [MessageType.message, MessageType.notice, MessageType.action]
  plain : HubTurn.isSlashText said = false
  named : core.normRoom (said.room.getD "") = .ok roomName
  gate : core.relayRefusal linkId identity roomName = none
  held : (core.rooms.lookup roomName).isSome = true
  source : envelope.source = identity
  messageId : envelope.messageId = said.messageId
  messageType : envelope.messageType = said.messageType
  body : envelope.body = said.body

/-- What an event may send into a room.  What goes there while a payload is
delivered is another matter. -/
def MayRelay (core : HubCore) (input : HubInput) (roomName : String)
    (envelope : Envelope) : Prop :=
  (∃ linkId identity said, core.Said input roomName envelope linkId identity said) ∨
  ∃ linkId resourceHash data hasMetadata, input.event =
    .resourceCompleted linkId resourceHash data hasMetadata

/-- The link goes away in an event without having been turned out. -/
def loses (core : HubCore) (input : HubInput) (link : LinkId) : Prop :=
  input.event = .linkClosed link ∨
    input.event = .pingTick ∧
      ∃ reason : HubSessionCloseReason, reason.keepsLease = true ∧
        (link, reason) ∈ HubTurn.deadLinks core input.ambient.instant

/-- What an event may do. -/
def limitsOf (core : HubCore) (input : HubInput) : Limits where
  permits
    | .establish _ => False
    | .bind _ _ => False
    | .refuse _ => False
    | .welcome _ => True
    | .enter linkId roomName => ∃ identity,
        core.entering input = some (linkId, identity, roomName)
    | .leave linkId roomName => ∃ identity,
        core.parting input = some (linkId, identity, roomName)
    | .expel roomName target _ => core.expelledBy input = some (roomName, target)
    | .close linkId => linkId ∈ core.closing input
    | .relax _ => True
  names roomName := ∃ raw, core.normRoom raw = .ok roomName
  meters := input.event.Meters
  careful := core.Careful input
  relays := core.MayRelay input
  remembers := ∃ link envelope, input.event = .linkPacket link (some envelope)
  loses := core.loses input

end Delivered

/-! ## Accounting -/

/-- The cores differ in what a packet costs its session, and in counters. -/
def Accounted (before after : HubCore) : Prop :=
  ∃ (change : LinkId → HubSession → HubSession) (stats : HubStats),
    (∀ link session, SameSeat session (change link session) ∧
      (change link session).nickname = session.nickname) ∧
    after =
      { before with
        sessions := FiniteMap.mapValues change before.sessions
        stats := stats }

theorem mem_linksForIdentity (core : HubCore) (target : IdentityHash) (link : LinkId) :
    link ∈ core.linksForIdentity target ↔
      core.sessionIdentity link = some target := by
  simp only [linksForIdentity, List.mem_filter, beq_iff_eq,
    FiniteMap.mem_keys_iff, and_iff_right_iff_imp]
  intro proved
  cases live : core.sessions.lookup link with
  | none => simp [sessionIdentity, live] at proved
  | some session => exact ⟨session, rfl⟩

theorem Accounted.refl (core : HubCore) : Accounted core core :=
  ⟨fun _ session => session, core.stats,
    fun _ _ => ⟨⟨rfl, rfl, rfl⟩, rfl⟩, by
      rw [FiniteMap.mapValues_id]⟩

theorem Accounted.trans {first second third : HubCore}
    (one : Accounted first second) (two : Accounted second third) :
    Accounted first third := by
  obtain ⟨change, stats, same, rfl⟩ := one
  obtain ⟨later, laterStats, laterSame, rfl⟩ := two
  refine ⟨fun link session => later link (change link session), laterStats,
    fun link session => ?_, by rw [FiniteMap.mapValues_mapValues]⟩
  obtain ⟨⟨identity, welcomed, rooms⟩, nickname⟩ := same link session
  obtain ⟨⟨laterIdentity, laterWelcomed, laterRooms⟩, laterNickname⟩ :=
    laterSame link (change link session)
  exact ⟨⟨laterIdentity.trans identity, laterWelcomed.trans welcomed,
    laterRooms.trans rooms⟩, laterNickname.trans nickname⟩

theorem Accounted.lookup {before after : HubCore}
    (accounted : Accounted before after) {link : LinkId} {session : HubSession}
    (live : before.sessions.lookup link = some session) :
    ∃ paid, after.sessions.lookup link = some paid ∧
      SameSeat session paid := by
  obtain ⟨change, stats, same, rfl⟩ := accounted
  refine ⟨change link session, ?_, (same link session).1⟩
  simp [FiniteMap.lookup_mapValues, live]

theorem accounted_modifySession (turn : HubTurn) (linkId : LinkId)
    {change : HubSession → HubSession} (same : ∀ session, SameSeat session (change session) ∧
      (change session).nickname = session.nickname) :
    Accounted turn.core (turn.modifySession linkId change).core := by
  refine ⟨fun found session =>
    if found = linkId then change session else session, turn.core.stats,
    fun found session => ?_, rfl⟩
  dsimp only
  by_cases changed : found = linkId
  · rw [if_pos changed]
    exact same session
  · rw [if_neg changed]
    exact ⟨⟨rfl, rfl, rfl⟩, rfl⟩

theorem accounted_modifyStats (turn : HubTurn) (change : HubStats → HubStats) :
    Accounted turn.core (turn.modifyStats change).core :=
  ⟨fun _ session => session, change turn.core.stats,
    fun _ session => ⟨⟨rfl, rfl, rfl⟩, rfl⟩, by
      rw [FiniteMap.mapValues_id]
      rfl⟩

theorem Accounted.sessionIdentity {before after : HubCore}
    (accounted : Accounted before after) (link : LinkId) :
    after.sessionIdentity link = before.sessionIdentity link := by
  obtain ⟨change, stats, same, rfl⟩ := accounted
  simp only [HubCore.sessionIdentity, FiniteMap.lookup_mapValues]
  cases before.sessions.lookup link with
  | none => rfl
  | some session => exact (same link session).1.1

theorem Accounted.sessionInRoom {before after : HubCore}
    (accounted : Accounted before after) (link : LinkId) (roomName : String) :
    after.sessionInRoom link roomName =
      before.sessionInRoom link roomName := by
  obtain ⟨change, stats, same, rfl⟩ := accounted
  simp only [HubCore.sessionInRoom, FiniteMap.lookup_mapValues]
  cases before.sessions.lookup link with
  | none => rfl
  | some session => simp [(same link session).1.2.2]

/-- What a packet costs has no part in what the gate of a room says. -/
theorem Accounted.relayRefusal {before after : HubCore}
    (accounted : Accounted before after) (link : LinkId)
    (identity : IdentityHash) (roomName : String) :
    after.relayRefusal link identity roomName =
      before.relayRefusal link identity roomName := by
  have present : ∀ room,
      after.identityInRoom room identity =
        before.identityInRoom room identity := by
    intro room
    unfold identityInRoom
    simp only [accounted.sessionIdentity]
  have visible : ∀ room,
      after.canViewRoom room identity = before.canViewRoom room identity := by
    intro room
    unfold canViewRoom
    rw [present]
    obtain ⟨_, _, -, rfl⟩ := accounted
    rfl
  unfold HubCore.relayRefusal
  simp only [accounted.sessionInRoom, visible]
  obtain ⟨_, _, -, rfl⟩ := accounted
  rfl

theorem Accounted.matchingIdentities {before after : HubCore}
    (accounted : Accounted before after) {matched : HubSession → IdentityHash → Bool}
    (blind : ∀ first second identity,
      SameSeat first second → second.nickname = first.nickname →
        matched second identity = matched first identity) :
    after.matchingIdentities matched = before.matchingIdentities matched := by
  obtain ⟨change, stats, same, rfl⟩ := accounted
  simp only [HubCore.matchingIdentities, FiniteMap.bindings_mapValues, List.foldl_map]
  congr 1
  funext found entry
  obtain ⟨seat, nickname⟩ := same entry.1 entry.2
  simp only [seat.1, nickname]
  cases entry.2.identity with
  | none => rfl
  | some identity => simp only [blind _ _ identity seat nickname]

section Targets

variable [UnicodeTables]

theorem Accounted.resolveTarget {before after : HubCore}
    (accounted : Accounted before after) (token : String) :
    after.resolveTarget token = before.resolveTarget token := by
  unfold HubCore.resolveTarget
  dsimp only
  rw [accounted.matchingIdentities]
  intro first second identity seat nickname
  rw [nickname]

theorem Accounted.resolveTargetOrHash {before after : HubCore}
    (accounted : Accounted before after) (token : String) :
    after.resolveTargetOrHash token = before.resolveTargetOrHash token := by
  unfold HubCore.resolveTargetOrHash
  rw [accounted.resolveTarget]

theorem Accounted.klinedBySlash {before after : HubCore}
    (accounted : Accounted before after) (identity : IdentityHash) (envelope : Envelope) :
    after.klinedBySlash identity envelope =
      before.klinedBySlash identity envelope := by
  have operators : after.serverOps = before.serverOps := by
    obtain ⟨_, _, -, rfl⟩ := accounted
    rfl
  unfold HubCore.klinedBySlash HubCore.klinedByCommand
  simp only [accounted.resolveTargetOrHash, operators]

theorem Accounted.operatedRoom {before after : HubCore}
    (accounted : Accounted before after) (identity : IdentityHash) (roomArg : String) :
    after.operatedRoom identity roomArg =
      before.operatedRoom identity roomArg := by
  obtain ⟨_, _, -, rfl⟩ := accounted
  rfl

theorem Accounted.expelledBySlash {before after : HubCore}
    (accounted : Accounted before after) (identity : IdentityHash) (envelope : Envelope) :
    after.expelledBySlash identity envelope =
      before.expelledBySlash identity envelope := by
  unfold HubCore.expelledBySlash HubCore.kickedByCommand HubCore.bannedByCommand
  simp only [accounted.resolveTargetOrHash, accounted.resolveTarget, accounted.operatedRoom]

theorem Accounted.registeredBySlash {before after : HubCore}
    (accounted : Accounted before after) (linkId : LinkId)
    (identity : IdentityHash) (envelope : Envelope) :
    after.registeredBySlash linkId identity envelope =
      before.registeredBySlash linkId identity envelope := by
  unfold HubCore.registeredBySlash HubCore.registeredByCommand
  simp only [accounted.sessionInRoom]
  obtain ⟨_, _, -, rfl⟩ := accounted
  rfl

theorem Accounted.unregisteredBySlash {before after : HubCore}
    (accounted : Accounted before after) (identity : IdentityHash) (envelope : Envelope) :
    after.unregisteredBySlash identity envelope =
      before.unregisteredBySlash identity envelope := by
  obtain ⟨_, _, -, rfl⟩ := accounted
  rfl

end Targets

theorem delivered_eq_some_iff (core : HubCore) (input : HubInput)
    (linkId : LinkId) (identity : IdentityHash) (envelope : Envelope) :
    core.delivered input = some (linkId, identity, envelope) ↔
      input.event = .linkPacket linkId (some envelope) ∧
      ∃ session, core.sessions.lookup linkId = some session ∧
        session.identity = some identity ∧ session.welcomed = true ∧
        ¬ envelope.messageId ∈ session.seenIds ∧
        (session.rate.allow input.ambient.instant
          core.config.rateMessagesPerMinute).2 = true := by
  unfold delivered
  split
  · rename_i link content event
    simp only [event, HubEvent.linkPacket.injEq, Option.some.injEq]
    constructor
    · intro equal
      obtain ⟨session, live, equal⟩ := Option.bind_eq_some_iff.mp equal
      obtain ⟨found, proved, equal⟩ := Option.map_eq_some_iff.mp equal
      cases equal
      obtain ⟨identified, passes⟩ := Option.filter_eq_some_iff.mp proved
      simp only [Bool.and_eq_true, Bool.not_eq_true',
        decide_eq_false_iff_not] at passes
      exact ⟨⟨rfl, rfl⟩, session, live, identified, passes.1.1, passes.1.2, passes.2⟩
    · rintro ⟨⟨rfl, rfl⟩, session, live, identified, welcomed, fresh,
        allowed⟩
      simp [live, identified, welcomed, fresh, allowed, Option.filter]
  · rename_i other
    constructor
    · intro equal
      cases equal
    · rintro ⟨event, -⟩
      exact absurd event (other linkId envelope)

theorem sessionIdentity_of_delivered {core : HubCore} {input : HubInput}
    {linkId : LinkId} {identity : IdentityHash} {envelope : Envelope}
    (delivered : core.delivered input = some (linkId, identity, envelope)) :
    core.sessionIdentity linkId = some identity := by
  obtain ⟨-, session, live, identified, -⟩ :=
    (core.delivered_eq_some_iff input linkId identity envelope).mp delivered
  simp [HubCore.sessionIdentity, live, identified]

end HubCore

namespace HubTurn

/-! ## Inbound packets -/

/-- The turn after a packet was paid for and its id remembered. -/
def received (turn : HubTurn) (linkId : LinkId) (envelope : Envelope) :
    HubTurn :=
  (turn.notePacket linkId).1.modifySession linkId fun session =>
    session.remember envelope.messageId

theorem sameSeat_remember (session : HubSession) (id : MessageId) :
    SameSeat session (session.remember id) :=
  ⟨rfl, rfl, rfl⟩

theorem accounted_notePacket (turn : HubTurn) (linkId : LinkId) :
    HubCore.Accounted turn.core (turn.notePacket linkId).1.core := by
  unfold notePacket
  split
  · exact .refl turn.core
  · split
    · exact .refl turn.core
    · exact HubCore.accounted_modifySession turn linkId fun session => ⟨⟨rfl, rfl, rfl⟩, rfl⟩

theorem accounted_received (turn : HubTurn) (linkId : LinkId) (envelope : Envelope) :
    HubCore.Accounted turn.core (turn.received linkId envelope).core :=
  (turn.accounted_notePacket linkId).trans
    (HubCore.accounted_modifySession _ linkId fun _ => ⟨sameSeat_remember _ _, rfl⟩)

theorem notePacket_frame (turn : HubTurn) (linkId : LinkId) :
    (turn.notePacket linkId).1.ambient = turn.ambient ∧
      (turn.notePacket linkId).1.out = turn.out := by
  unfold notePacket
  split
  · exact ⟨rfl, rfl⟩
  · split
    · exact ⟨rfl, rfl⟩
    · exact ⟨rfl, rfl⟩

/-- What an identified session pays is decided by its own bucket. -/
theorem notePacket_paid {turn : HubTurn} {linkId : LinkId} {paid : HubSession}
    (live : (turn.notePacket linkId).1.core.sessions.lookup linkId = some paid)
    (identified : ¬ paid.identity.isNone = true) :
    ∃ session, turn.core.sessions.lookup linkId = some session ∧
      SameSeat session paid ∧ paid.seenIds = session.seenIds ∧
      (turn.notePacket linkId).2 =
        (session.rate.allow turn.ambient.instant
          turn.core.config.rateMessagesPerMinute).2 := by
  cases found : turn.core.sessions.lookup linkId with
  | none => simp [notePacket, found] at live
  | some session =>
      by_cases anonymous : session.identity.isNone = true
      · simp only [notePacket, found, anonymous, if_true,
          Option.some.injEq] at live
        subst live
        exact absurd anonymous identified
      · simp only [notePacket, found, anonymous, if_false, modifySession,
          mapCore, FiniteMap.lookup_adjust, if_true, Option.map_some,
          Option.some.injEq, Bool.false_eq_true] at live ⊢
        subst live
        exact ⟨session, rfl, ⟨rfl, rfl, rfl⟩, rfl, rfl⟩

theorem received_ambient (turn : HubTurn) (linkId : LinkId) (envelope : Envelope) :
    (turn.received linkId envelope).ambient = turn.ambient :=
  (turn.notePacket_frame linkId).1

theorem received_out (turn : HubTurn) (linkId : LinkId) (envelope : Envelope) :
    (turn.received linkId envelope).out = turn.out :=
  (turn.notePacket_frame linkId).2

section Packets

variable [UnicodeTables] [HubCrypto]

/-- A delivered envelope reaches the handlers of welcomed sessions. -/
theorem handle_delivered {core : HubCore} {input : HubInput}
    {linkId : LinkId} {identity : IdentityHash} {envelope : Envelope}
    (delivered : core.delivered input = some (linkId, identity, envelope))
    (command : envelope.messageType ≠ .ping ∧ envelope.messageType ≠ .pong ∧
      envelope.messageType ≠ .hello) :
    core.handle input =
      ((core.turn input.ambient).received linkId envelope).onWelcomedEnvelope
        linkId envelope := by
  obtain ⟨event, session, live, identified, welcomed, fresh, allowed⟩ :=
    (core.delivered_eq_some_iff input linkId identity envelope).mp delivered
  have paid : (core.turn input.ambient).notePacket linkId =
      ((core.turn input.ambient).modifySession linkId fun paying =>
        { paying with
          rate := (session.rate.allow input.ambient.instant
            core.config.rateMessagesPerMinute).1 }, true) := by
    have found : (core.turn input.ambient).core.sessions.lookup linkId = some session := live
    unfold notePacket
    rw [found]
    simp only [identified, Option.isNone_some]
    exact Prod.ext rfl allowed
  rw [HubCore.handle, event]
  simp only [handle, onPacket, received, paid]
  simp only [onEnvelope, modifySession, mapCore, FiniteMap.lookup_adjust,
    HubCore.turn, live, Option.map_some, identified, if_true, fresh,
    if_false, Option.isNone_some, welcomed, Bool.not_true,
    Bool.false_eq_true]
  obtain ⟨notPing, notPong, notHello⟩ := command
  split
  · rename_i kind
    exact absurd kind notPing
  · rename_i kind
    exact absurd kind notPong
  · rename_i kind
    exact absurd kind notHello
  · rfl

theorem slashLimits_of_commanded {core : HubCore} {input : HubInput}
    {ready : HubTurn} {linkId : LinkId} {identity : IdentityHash} {envelope : Envelope}
    (commanded : core.commanded input = some (linkId, identity, envelope))
    (accounted : HubCore.Accounted core ready.core)
    (unwritten : ready.Unwritten) (remembers : Prop) :
    SlashLimits { core.limitsOf input with remembers := remembers } ready
      linkId identity envelope := by
  have event : ∃ link content,
      input.event = .linkPacket link (some content) := by
    obtain ⟨delivered, -⟩ := Option.filter_eq_some_iff.mp commanded
    exact ⟨_, _, ((core.delivered_eq_some_iff _ _ _ _).mp delivered).1⟩
  obtain ⟨link, content, event⟩ := event
  refine ⟨fun roomName target ban named => ?_,
    fun target named other proved => ?_,
    fun careful => ⟨unwritten, fun roomName named => ?_⟩,
    fun careful => ⟨unwritten, fun roomName named => ?_⟩⟩
  · rw [accounted.expelledBySlash] at named
    simp [HubCore.limitsOf, HubCore.expelledBy, event, commanded, named]
  · rw [accounted.klinedBySlash] at named
    rw [accounted.sessionIdentity] at proved
    have klined : core.klinedBy input = some target := by
      simp [HubCore.klinedBy, event, commanded, named]
    simp only [HubCore.limitsOf, HubCore.closing, event, klined]
    exact (core.mem_linksForIdentity target other).mpr proved
  · rw [accounted.registeredBySlash] at named
    have registered : core.registeredBy input = some roomName := by
      simp [HubCore.registeredBy, commanded, named]
    obtain ⟨_, _, -, same⟩ := accounted
    rw [same]
    exact careful.1 roomName registered
  · rw [accounted.unregisteredBySlash] at named
    have unregistered : core.unregisteredBy input = some roomName := by
      simp [HubCore.unregisteredBy, commanded, named]
    obtain ⟨_, _, -, same⟩ := accounted
    rw [same]
    exact careful.2 roomName unregistered

/-- A delivered envelope moves the turn within what its event may do. -/
theorem moves_delivered {core : HubCore} {input : HubInput}
    {ready : HubTurn} {linkId : LinkId} {identity : IdentityHash} {envelope : Envelope}
    (delivered : core.delivered input = some (linkId, identity, envelope))
    (accounted : HubCore.Accounted core ready.core)
    (sameAmbient : ready.ambient = input.ambient)
    (unwritten : ready.Unwritten) (remembers : Prop) :
    Moves { core.limitsOf input with remembers := remembers } ready
      (ready.onWelcomedEnvelope linkId envelope) := by
  obtain ⟨event, session, live, identified, welcomed, fresh, allowed⟩ :=
    (core.delivered_eq_some_iff input linkId identity envelope).mp delivered
  have proved := HubCore.sessionIdentity_of_delivered delivered
  have relays : envelope.messageType ∈
      [MessageType.message, MessageType.notice, MessageType.action] →
        Moves { core.limitsOf input with remembers := remembers } ready
          (ready.onRelay linkId envelope) := by
    intro kind
    have content : envelope.isRoster = false := by
      simp only [List.mem_cons, List.not_mem_nil, or_false] at kind
      rcases kind with kind | kind | kind <;>
        simp [Envelope.isRoster, kind]
    refine moves_onRelay ready linkId envelope content
      (fun sender known slash => ?_)
      fun sender roomName stamp known plain normed passes there => ?_
    · rw [accounted.sessionIdentity, proved] at known
      cases known
      refine slashLimits_of_commanded ?_ accounted unwritten remembers
      rw [HubCore.commanded, delivered]
      simp [Option.filter, slash, kind]
    · rw [accounted.sessionIdentity, proved] at known
      cases known
      rw [accounted.relayRefusal] at passes
      obtain ⟨_, _, -, same⟩ := accounted
      rw [same] at normed there
      refine Or.inl ⟨linkId, identity, envelope, delivered, kind, plain,
        normed, passes, there, ?_, ?_, ?_, ?_⟩
      · rw [relayedEnvelope, source_shedNickname]
      · rw [relayedEnvelope, messageId_shedNickname]
      · rw [relayedEnvelope, messageType_shedNickname]
      · rw [relayedEnvelope, body_shedNickname]
  unfold onWelcomedEnvelope
  split
  · rename_i kind
    have counted := accounted.trans (HubCore.accounted_modifyStats ready
      fun stats => { stats with joins := stats.joins + 1 })
    refine .head (move_modifyStats ready _) (moves_onJoin _ linkId envelope ?_ ?_ ?_)
    · intro found foundLive
      obtain ⟨paid, paidLive, -, samePlace, -⟩ := counted.lookup live
      have equal : found = paid :=
        Option.some.inj (foundLive.symm.trans paidLive)
      rw [equal, samePlace]
      exact welcomed
    · intro sender raw roomName known named normed passes
      rw [counted.sessionIdentity, proved] at known
      cases known
      refine ⟨identity, ?_⟩
      obtain ⟨_, _, -, same⟩ := counted
      rw [same] at passes normed
      have normed' : core.normRoom raw = .ok roomName := normed
      have passes' : admits core roomName identity envelope.textBody
          input.ambient.unix = true := by
        rw [← sameAmbient]
        exact passes
      simp [HubCore.entering, delivered, kind, named, normed', passes',
        Except.toOption, Option.filter]
    · intro raw roomName normed
      obtain ⟨_, _, -, same⟩ := counted
      rw [same] at normed
      exact ⟨raw, normed⟩
  · rename_i kind
    have counted := accounted.trans (HubCore.accounted_modifyStats ready
      fun stats => { stats with parts := stats.parts + 1 })
    refine .head (move_modifyStats ready _) (moves_onPart _ linkId envelope
      fun sender raw roomName known named normed => ?_)
    rw [counted.sessionIdentity, proved] at known
    cases known
    refine ⟨identity, ?_⟩
    obtain ⟨_, _, -, same⟩ := counted
    rw [same] at normed
    have normed' : core.normRoom raw = .ok roomName := normed
    simp [HubCore.parting, delivered, kind, named, normed', Except.toOption]
  · rename_i kind
    exact relays (by simp [kind])
  · rename_i kind
    exact relays (by simp [kind])
  · rename_i kind
    exact relays (by simp [kind])
  · rename_i kind
    have meters : ({ core.limitsOf input with
        remembers := remembers } : Limits).meters := by
      simp only [HubCore.limitsOf, event, HubEvent.Meters, kind]
    exact moves_onResourceEnvelope meters ready linkId envelope
  · exact .refl

omit [UnicodeTables] [HubCrypto] in
/-- The gate of a bucket is asked for every identified session. -/
theorem notePacket_allowed {turn : HubTurn} {linkId : LinkId} {session : HubSession}
    (live : turn.core.sessions.lookup linkId = some session)
    (identified : session.identity.isSome = true) :
    (turn.notePacket linkId).2 =
      (session.rate.allow turn.ambient.instant
        turn.core.config.rateMessagesPerMinute).2 := by
  unfold notePacket
  rw [live]
  obtain ⟨identity, proved⟩ := Option.isSome_iff_exists.mp identified
  simp [proved]

omit [UnicodeTables] [HubCrypto] in
/-- What a paid, identified and welcomed session says anew is delivered. -/
theorem delivered_of_paid {core : HubCore} {input : HubInput}
    {linkId : LinkId} {envelope : Envelope} {paid : HubSession}
    (event : input.event = .linkPacket linkId (some envelope))
    (live : ((core.turn input.ambient).notePacket
      linkId).1.core.sessions.lookup linkId = some paid)
    (identified : ¬ paid.identity.isNone = true) (fresh : ¬ envelope.messageId ∈ paid.seenIds)
    (allowed : ((core.turn input.ambient).notePacket linkId).2 = true)
    (welcomed : paid.welcomed = true) :
    ∃ identity, core.delivered input = some (linkId, identity, envelope) := by
  obtain ⟨session, found, seat, sameIds, cost⟩ :=
    notePacket_paid live identified
  obtain ⟨identity, proved⟩ := Option.ne_none_iff_exists'.mp (by simpa using identified)
  refine ⟨identity, ?_⟩
  rw [HubCore.delivered_eq_some_iff]
  exact ⟨event, session, found, seat.1.symm.trans proved,
    seat.2.1.symm.trans welcomed, sameIds ▸ fresh, cost.symm.trans allowed⟩

/-- An envelope of an identified session, paid for and new on its link, is
taken: its id is recorded before anything else.  Of any other packet no id is
recorded. -/
theorem onPacket_cases {core : HubCore} {input : HubInput}
    {linkId : LinkId} {decoded : Option Envelope}
    (event : input.event = .linkPacket linkId decoded) (remembers : Prop) :
    let limits : Limits := { core.limitsOf input with remembers := remembers }
    let turn := core.turn input.ambient
    (∃ envelope, decoded = some envelope ∧
      (∃ session, core.sessions.lookup linkId = some session ∧
        session.identity.isSome = true ∧
        ¬ envelope.messageId ∈ session.seenIds ∧
        (session.rate.allow input.ambient.instant core.config.rateMessagesPerMinute).2 = true) ∧
      Moves limits (turn.received linkId envelope) (turn.onPacket linkId decoded)) ∨
    Moves limits turn (turn.onPacket linkId decoded) ∧
      ∀ envelope session, decoded = some envelope →
        core.sessions.lookup linkId = some session →
          session.identity.isSome = true →
            (session.rate.allow input.ambient.instant
              core.config.rateMessagesPerMinute).2 = true →
              envelope.messageId ∈ session.seenIds := by
  intro limits turn
  have pays : Moves limits turn (turn.notePacket linkId).1 :=
    moves_notePacket _ linkId
  have paid : ∀ session, core.sessions.lookup linkId = some session →
      session.identity.isSome = true →
        (turn.notePacket linkId).2 =
          (session.rate.allow input.ambient.instant core.config.rateMessagesPerMinute).2 :=
    fun session live identified => notePacket_allowed live identified
  unfold onPacket
  dsimp only
  split
  · rename_i refused
    refine Or.inr ⟨(pays.tail (move_pushError _ _ _ _)).tail (move_modifyStats _ _), ?_⟩
    intro envelope session _ live identified allowed
    rw [paid session live identified, allowed] at refused
    cases refused
  · rename_i allowed
    split
    · rename_i envelope
      unfold onEnvelope
      split
      · rename_i absent
        refine Or.inr ⟨pays, ?_⟩
        intro _ session _ live
        obtain ⟨found, foundLive, -⟩ :=
          (accounted_notePacket turn linkId).lookup live
        rw [foundLive] at absent
        cases absent
      · rename_i charged live
        split
        · rename_i anonymous
          refine Or.inr ⟨pays, ?_⟩
          intro _ session _ found identified
          obtain ⟨other, otherLive, seat⟩ :=
            (accounted_notePacket turn linkId).lookup found
          have same : other = charged :=
            Option.some.inj (otherLive.symm.trans live)
          rw [same] at seat
          rw [seat.1, Option.isNone_iff_eq_none] at anonymous
          rw [anonymous] at identified
          cases identified
        · rename_i identified
          obtain ⟨session, found, seat, sameIds, cost⟩ :=
            notePacket_paid live identified
          split
          · rename_i known
            refine Or.inr ⟨pays.tail (move_modifyStats _ _), ?_⟩
            intro other held isEnvelope heldLive _ _
            cases isEnvelope
            have same : held = session :=
              Option.some.inj (heldLive.symm.trans found)
            rw [same, ← sameIds]
            exact known
          · rename_i fresh
            have isSome : session.identity.isSome = true := by
              rw [← seat.1]
              simpa [Option.isSome_iff_ne_none] using identified
            have enough : (session.rate.allow input.ambient.instant
                core.config.rateMessagesPerMinute).2 = true := by
              simp only [cost, Bool.not_eq_true', Bool.not_eq_false] at allowed
              exact allowed
            rw [sameIds] at fresh
            refine Or.inl ⟨envelope, rfl, ⟨session, found, isSome, fresh, enough⟩, ?_⟩
            split
            · exact .single (Move.reply ⟨rfl, by
                rintro roomName ⟨-, kind⟩
                simp [Envelope.pong, Envelope.new] at kind⟩)
            · refine .tail (.single (move_modifySession _ linkId
                (fun session => ?_) fun _ session => ?_))
                (move_modifyStats _ _)
              · exact ⟨rfl, rfl, rfl⟩
              · rfl
            · exact moves_onHello _ linkId envelope trivial
            · split
              · rename_i welcomed
                obtain ⟨identity, delivers⟩ := delivered_of_paid event live
                  identified (sameIds.symm ▸ fresh) (by simpa using allowed)
                  welcomed
                refine moves_delivered delivers (accounted_received _ _ _)
                  (received_ambient _ _ _) ?_ remembers
                rw [Unwritten, received_out]
                rfl
              · exact .single (move_pushError _ _ _ _)
    · refine Or.inr ⟨(pays.tail (move_modifyStats _ _)).tail
        (move_pushError _ _ _ _), ?_⟩
      intro envelope session isEnvelope
      cases isEnvelope

theorem moves_onPacket {core : HubCore} {input : HubInput}
    {linkId : LinkId} {decoded : Option Envelope}
    (event : input.event = .linkPacket linkId decoded) :
    Moves (core.limitsOf input) (core.turn input.ambient)
      ((core.turn input.ambient).onPacket linkId decoded) := by
  rcases onPacket_cases event (core.limitsOf input).remembers with
    ⟨envelope, isEnvelope, -, moves⟩ | ⟨moves, -⟩
  · have carries : (core.limitsOf input).remembers :=
      ⟨linkId, envelope, by rw [event, isEnvelope]⟩
    have receives : Moves (core.limitsOf input) (core.turn input.ambient)
        ((core.turn input.ambient).received linkId envelope) :=
      (moves_notePacket _ linkId).tail (move_modifySession _ linkId
        (fun session => sameSeat_remember session _)
        fun silent => absurd carries silent)
    exact receives.trans moves
  · exact moves

/-- Every event but that a link is there or proved an identity is a sequence
of moves. -/
theorem moves_handle {core : HubCore} {input : HubInput}
    (seated : ∀ linkId, input.event ≠ .linkEstablished linkId) (bound : ∀ linkId identity,
      input.event ≠ .linkIdentified linkId identity) :
    Moves (core.limitsOf input) (core.turn input.ambient)
      (core.handle input) := by
  unfold HubCore.handle
  have meters {event : HubEvent} (isEvent : input.event = event)
      (used : event.Meters) : (core.limitsOf input).meters := by
    rw [HubCore.limitsOf, isEvent]
    exact used
  cases event : input.event with
  | adminMutation actor mutation =>
      simp only [handle]
      split
      · exact .refl
      · rename_i after done
        refine moves_adminMutate rfl
          (fun raw roomName normed => ⟨raw, normed⟩)
          (fun roomName target ban named => ?_)
          (fun target same operator spared fresh link proved => ?_) done
        · simp only [HubCore.limitsOf, HubCore.expelledBy, event]
          exact named
        · subst same
          have klined : core.klinedBy input = some target := by
            simp only [HubCore.klinedBy, event]
            exact if_pos ⟨operator, spared, fresh⟩
          simp only [HubCore.limitsOf, HubCore.closing, event, klined]
          exact (core.mem_linksForIdentity target link).mpr proved
  | linkEstablished linkId => exact absurd event (seated linkId)
  | linkIdentified linkId identity => exact absurd event (bound linkId identity)
  | linkPacket linkId decoded => exact moves_onPacket event
  | linkClosed linkId =>
      refine .single (Move.close ?_ fun _ => Or.inl event)
      simp [HubCore.limitsOf, HubCore.closing, event]
  | outboundConcluded linkId resourceHash =>
      refine .single (move_modifySession _ linkId (fun session => ?_)
        fun _ session => ?_)
      · exact ⟨rfl, rfl, rfl⟩
      · rfl
  | inboundConcluded linkId resourceHash =>
      simp only [handle]
      exact .single (move_modifyAdmission (meters event trivial) _ _)
  | resourceCompleted linkId resourceHash data hasMetadata =>
      exact moves_onResourceCompleted (meters event trivial) _ linkId
        resourceHash data hasMetadata fun roomName envelope =>
          Or.inr ⟨linkId, resourceHash, data, hasMetadata, event⟩
  | resourceAdvertised linkId adv =>
      simp only [handle]
      exact .single (move_modifyAdmission (meters event trivial) _ _)
  | resourceStarted linkId resourceHash =>
      refine .single (move_modifySession _ linkId (fun session => ?_)
        fun _ session => ?_)
      · exact ⟨rfl, rfl, rfl⟩
      · rfl
  | resourceTick => exact moves_resourceCycle (meters event trivial) _
  | pingTick =>
      refine moves_pingCycle _ fun link reason dead => ?_
      simp only [HubCore.limitsOf, HubCore.closing, event]
      exact ⟨List.mem_map.mpr ⟨(link, reason), dead, rfl⟩,
        fun keeps => Or.inr ⟨event, reason, keeps, dead⟩⟩
  | pruneTick => exact moves_pruneTick _
  | noteOversize count =>
      simp only [handle]
      exact .single (move_modifyStats _ _)

end Packets

end HubTurn

end Ratspeak
