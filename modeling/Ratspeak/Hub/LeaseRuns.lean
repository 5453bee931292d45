import Ratspeak.Hub.Access
import Ratspeak.Hub.Leases

/-!
# Runs with rejoin leases

In every run, a lease is made in a step that loses the last link of its
holder to the room, and stays sound until it ends, unless a link that is in a
room is identified as the holder of a lease on it.  A lease ends with a kick,
a ban, an uninvite and all that lowers the gate of the room.  The one way to
leave that it does not end with is to part from a room that one is not in.
-/

namespace Ratspeak

open Library

/-! ## Moves -/

/-- A lease after a move was held before, or a link went away that was the
last one of its holder in the room. -/
theorem Move.leased {limits : Limits} {before after : HubTurn}
    (move : Move limits before after) {roomName : String}
    {identity : IdentityHash} (leased : after.core.Leased roomName identity) :
    before.core.Leased roomName identity ∨
      ∃ link room, limits.loses link ∧
        before.core.LastIn link identity roomName room := by
  rcases move.calm_cases with calm |
    ⟨entered, link, known, room, -, held, proved, rfl⟩ |
    ⟨banned, reason, target, origin, rfl⟩ | ⟨link, reason, lost, rfl⟩
  · exact Or.inl ((calm.leasesFrom fun _ => id).earlier leased)
  · exact Or.inl ((HubTurn.descends_enterRoom tolerant_leasedFrom before
      entered link known).leasesFrom.earlier leased)
  · refine Or.inl (HubCore.LeasesFrom.earlier ?_ leased)
    have bans : HubCore.Descends (LeasedFrom fun _ _ => False) before.core
        (before.modifyRoom banned fun room =>
          { room with bans := room.bans.insert target }).core :=
      HubTurn.descends_modifyRoom tolerant_leasedFrom before banned
        fun _ _ => (moderated_leasedFrom before.core.pepperId).bans
    exact ((bans.trans tolerant_leasedFrom
      (HubTurn.descends_ejectIdentityFromRoom tolerant_leasedFrom _ _ _
        _)).trans tolerant_leasedFrom
      (HubTurn.descends_persistRoom tolerant_leasedFrom _ _ _)).leasesFrom
  · have grants : before.core.Grants
        (LeasedFrom fun name other => ∃ room,
          before.core.LastIn link other name room) link :=
      grants_leasedFrom fun other name room last => ⟨room, last⟩
    rcases (HubTurn.descends_closeSession tolerant_leasedFrom
      fun _ => grants).leasesFrom.leased leased with kept | ⟨room, last⟩
    · exact Or.inl kept
    · exact Or.inr ⟨link, room, lost, last⟩

/-! ## Events -/

section Events

variable [UnicodeTables] [HubCrypto]

/-- The event loses a link through which the identity was in the room. -/
def HubCore.LosesMember (core : HubCore) (input : HubInput)
    (roomName : String) (identity : IdentityHash) : Prop :=
  ∃ link, core.loses input link ∧
    core.sessionIdentity link = some identity ∧ core.roll.members roomName link

/-- An event that loses a link lets nobody in. -/
theorem entering_of_loses {core : HubCore} {input : HubInput}
    {link : LinkId} (lost : core.loses input link) :
    core.entering input = none := by
  have silent : core.delivered input = none := by
    rcases lost with event | ⟨event, -⟩
    · simp [HubCore.delivered, event]
    · simp [HubCore.delivered, event]
  rw [HubCore.entering, silent]
  rfl

/-- What a turn keeps of leases while its event is handled. -/
structure HubTurn.KeepsLeases (core : HubCore) (input : HubInput)
    (turn : HubTurn) : Prop where
  traced : Traced (core.limitsOf input).permits (core.turn input.ambient) turn
  unlisted : turn.core.Unlisted
  sound : turn.core.LeasesSound
  minted : ∀ roomName identity, turn.core.Leased roomName identity →
    core.Leased roomName identity ∨ core.LosesMember input roomName identity

theorem HubTurn.keepsLeases_move {core : HubCore} {input : HubInput}
    {before after : HubTurn} (seated : core.roll.Seated)
    (move : Move (core.limitsOf input) before after) (keeps : before.KeepsLeases core input) :
    after.KeepsLeases core input := by
  obtain ⟨traced, unlisted, sound, minted⟩ := keeps
  have unbinding := unbinding_limitsOf core input
  refine ⟨traced.move unbinding.2 move, unlisted_move unbinding move unlisted,
    move.leasesSound unlisted sound, fun roomName identity leased => ?_⟩
  rcases move.leased leased with earlier | ⟨link, room, lost, last⟩
  · exact minted roomName identity earlier
  · have closed : core.entering input = none := entering_of_loses lost
    have kept : ∀ (roll : HubRoll) (op : HubRollOp),
        (roll.joined link roomName → core.roll.joined link roomName) →
        (core.limitsOf input).permits op → roll.Allows op →
        ((roll.apply op).joined link roomName →
          core.roll.joined link roomName) := by
      intro roll op before permitted _ later
      rcases Roll.joined_of_apply later with joined | rfl
      · exact before joined
      · obtain ⟨known, enters⟩ := permitted
        rw [closed] at enters
        cases enters
    have joined : core.roll.joined link roomName :=
      traced.path.induct kept id last.joined
    exact Or.inr ⟨link, lost,
      traced.path.identity unbinding.1 last.identified,
      seated link roomName joined⟩

/-- A link is identified as the holder of a lease on none of the rooms the
link is in, unless the hub turns it away, and an identity parts from no room
that it holds a lease on. -/
def HubCore.SparesLeases (core : HubCore) (input : ServiceInput) : Prop :=
  ((input.input.event.identifies.all fun (link, identity) =>
    decide (identity ∈ core.klines) ||
      (FiniteMap.bindings core.rooms).all fun entry =>
        !(decide (link ∈ entry.2.members) && (entry.2.rejoinUntil.lookup identity).isSome)) &&
    (core.parting input.input).all fun (_, identity, roomName) =>
      (core.rooms.lookup roomName).all fun room =>
        (room.rejoinUntil.lookup identity).isNone) = true

instance (core : HubCore) (input : ServiceInput) :
    Decidable (core.SparesLeases input) :=
  inferInstanceAs (Decidable (_ = true))

omit [HubCrypto] in
theorem HubCore.SparesLeases.unbound {core : HubCore} {input : ServiceInput}
    (spares : core.SparesLeases input) {link : LinkId} {identity : IdentityHash}
    (event : input.input.event = .linkIdentified link identity)
    (welcome : ¬ identity ∈ core.klines) {roomName : String}
    (member : core.roll.members roomName link) :
    ¬ core.Leased roomName identity := by
  rw [HubCore.SparesLeases, Bool.and_eq_true] at spares
  have identified := spares.1
  simp only [event, HubEvent.identifies, Option.all_some, Bool.or_eq_true,
    decide_eq_true_eq, welcome, false_or] at identified
  obtain ⟨room, held, inside⟩ := member
  rintro ⟨found, foundHeld, lease⟩
  have same : found = room := Option.some.inj (foundHeld.symm.trans held)
  subst same
  have each := List.all_eq_true.mp identified (roomName, found)
    ((FiniteMap.mem_bindings_iff _ _ _).mpr held)
  rw [HubRoom.Leases] at lease
  simp [inside, lease] at each

omit [HubCrypto] in
theorem HubCore.SparesLeases.parting {core : HubCore} {input : ServiceInput}
    (spares : core.SparesLeases input) {link : LinkId}
    {identity : IdentityHash} {roomName : String}
    (parts : core.parting input.input = some (link, identity, roomName)) :
    ¬ core.Leased roomName identity := by
  rw [HubCore.SparesLeases, Bool.and_eq_true] at spares
  have parted := spares.2
  rintro ⟨room, held, lease⟩
  simp only [parts, Option.all_some, held, Option.isNone_iff_eq_none] at parted
  rw [HubRoom.Leases, parted] at lease
  cases lease

/-- An event keeps leases sound, and a lease that it makes goes to a member
whose link it loses. -/
theorem leases_step {core : HubCore} {input : ServiceInput}
    (sound : core.LeasesSound) (unlisted : core.Unlisted)
    (seated : core.roll.Seated) (spares : core.SparesLeases input) :
    (core.step input.input).LeasesSound ∧
    ∀ roomName identity, (core.step input.input).Leased roomName identity →
      core.Leased roomName identity ∨
        core.LosesMember input.input roomName identity := by
  have quiet {after : HubCore}
      (descends : HubCore.Descends (LeasedFrom fun _ _ => False) core after)
      (klines : after.klines = core.klines)
      (banned : after.roll.banned = core.roll.banned)
      (absent : ∀ roomName identity, after.Leased roomName identity →
        after.roll.present roomName identity → core.roll.present roomName identity) :
      after.LeasesSound ∧
      ∀ roomName identity, after.Leased roomName identity →
        core.Leased roomName identity ∨ core.LosesMember input.input roomName identity :=
    ⟨sound.after descends.leasesFrom (fun _ _ _ => by rw [banned]; exact id)
      (fun _ _ _ => by rw [klines]; exact id) absent,
      fun _ _ leased => Or.inl (descends.leasesFrom.earlier leased)⟩
  have reseated : ∀ link identity,
      input.input.event = .linkIdentified link identity →
        HubCore.Descends (LeasedFrom fun _ _ => False) core
            (core.step input.input) ∧
          (core.step input.input).klines = core.klines := by
    intro link identity event
    rw [HubCore.step, HubCore.handle, event]
    exact ⟨HubTurn.descends_onLinkIdentified tolerant_leasedFrom
      (core.turn input.input.ambient) link identity,
      (HubTurn.reseats_onLinkIdentified (core.turn input.input.ambient) link
        identity).core.klines⟩
  by_cases established : ∃ link, input.input.event = .linkEstablished link
  · obtain ⟨link, event⟩ := established
    have roll : (core.step input.input).roll =
        core.roll.apply (.establish link) :=
      step_linkEstablished event
    refine quiet ?_ ?_ (by rw [roll]; rfl) fun _ _ _ present => ?_
    · rw [HubCore.step, HubCore.handle, event]
      exact HubTurn.descends_openSession tolerant_leasedFrom
        (core.turn input.input.ambient) link
    · rw [HubCore.step, HubCore.handle, event]
      exact (HubTurn.reseats_openSession (core.turn input.input.ambient) link).core.klines
    · rw [roll] at present
      exact present
  · by_cases identified : ∃ link identity,
        input.input.event = .linkIdentified link identity
    · obtain ⟨link, identity, event⟩ := identified
      obtain ⟨descends, klines⟩ := reseated link identity event
      by_cases klined : identity ∈ core.klines
      · have roll : (core.step input.input).roll =
            core.roll.apply (.refuse link) :=
          step_linkIdentified_refused event klined
        refine quiet descends klines (by rw [roll]; rfl)
          fun roomName other _ present => ?_
        rw [roll] at present
        rcases Roll.present_of_apply (fun _ _ equal => by cases equal)
          present with before | ⟨entered, equal, -⟩
        · exact before
        · cases equal
      · have roll : (core.step input.input).roll =
            core.roll.apply (.bind link identity) :=
          step_linkIdentified_bound event klined
        refine quiet descends klines (by rw [roll]; rfl)
          fun roomName other leased present => ?_
        have earlier : core.Leased roomName other :=
          descends.leasesFrom.earlier leased
        rw [roll] at present
        obtain ⟨member, inside, proved⟩ := present
        by_cases same : member = link
        · subst same
          have equal : identity = other := by
            simpa [Roll.apply] using proved
          subst equal
          exact absurd earlier (spares.unbound event klined inside)
        · refine ⟨member, inside, ?_⟩
          simpa [Roll.apply, same] using proved
    · have moves : Moves (core.limitsOf input.input)
          (core.turn input.input.ambient) (core.handle input.input) :=
        HubTurn.moves_handle (fun link event => established ⟨link, event⟩)
          fun link identity event => identified ⟨link, identity, event⟩
      have start : HubTurn.KeepsLeases core input.input
          (core.turn input.input.ambient) :=
        ⟨traced_start _, unlisted, sound, fun _ _ => Or.inl⟩
      have kept := moves.induct (fun _ _ move keeps =>
        HubTurn.keepsLeases_move seated move keeps) start
      exact ⟨kept.sound, kept.minted⟩

/-! ## Uninvites -/

namespace HubCore

/-- The identity that an accepted `/invite del` uninvites from a room. -/
def uninvitedByCommand (core : HubCore) (identity : IdentityHash)
    (args : List String) : Option (String × IdentityHash) :=
  match args with
  | roomArg :: word :: token :: _ =>
      if toLowercase word = "del" then
        (core.operatedRoom identity roomArg).bind fun roomName =>
          (core.resolveTargetOrHash token).toOption.map fun target =>
            (roomName, target)
      else none
  | _ => none

/-- The identity that a slash text uninvites from a room. -/
def uninvitedBySlash (core : HubCore) (identity : IdentityHash)
    (envelope : Envelope) : Option (String × IdentityHash) :=
  match HubTurn.slashWords envelope with
  | some ("invite", args) => core.uninvitedByCommand identity args
  | _ => none

/-- The room that an accepted owner mutation uninvites an identity from. -/
def uninvitedByOwner (core : HubCore) (actor : IdentityHash)
    (mutation : ChannelHubAdminMutation) :
    Option (String × IdentityHash) :=
  match mutation with
  | .setInvitation room target false =>
      ((core.normRoom room).toOption.filter fun roomName =>
        decide (actor ∈ core.serverOps) &&
          (core.rooms.lookup roomName).any HubRoom.registered).map
        fun roomName => (roomName, target)
  | _ => none

/-- The room that an event uninvites an identity from, and who that is. -/
def uninvitedBy (core : HubCore) (input : HubInput) :
    Option (String × IdentityHash) :=
  match input.event with
  | .adminMutation actor mutation => core.uninvitedByOwner actor mutation
  | _ =>
      (core.commanded input).bind fun (_, identity, envelope) =>
        core.uninvitedBySlash identity envelope

omit [HubCrypto] in
theorem Accounted.uninvitedBySlash {before after : HubCore}
    (accounted : Accounted before after) (identity : IdentityHash) (envelope : Envelope) :
    after.uninvitedBySlash identity envelope =
      before.uninvitedBySlash identity envelope := by
  unfold HubCore.uninvitedBySlash HubCore.uninvitedByCommand
  simp only [accounted.resolveTargetOrHash, accounted.operatedRoom]

end HubCore

namespace HubTurn

omit [UnicodeTables] [HubCrypto] in
private theorem eq_ok_of_toOption {ε α : Type} {result : Except ε α}
    {value : α} (equal : result.toOption = some value) :
    result = .ok value := by
  cases result with
  | error reason => cases equal
  | ok known =>
      cases equal
      rfl

omit [UnicodeTables] [HubCrypto] in
/-- Storing a room after an uninvite brings no lease back. -/
private theorem not_leased_uninvited (turn : HubTurn) (roomName : String)
    (target : IdentityHash) (origin : Option LinkId) :
    ¬ ((turn.modifyRoom roomName fun room =>
      { room with
        invited := room.invited.erase target
        rejoinUntil := room.rejoinUntil.erase target }).persistRoom roomName
        origin).core.Leased roomName target := fun leased =>
  turn.not_leased_modifyRoom roomName (fun _ => rfl)
    ((descends_persistRoom tolerant_leasedFrom _ roomName origin).leasesFrom.earlier leased)

omit [HubCrypto] in
/-- An accepted `/invite del` ends the lease. -/
theorem not_leased_cmdInvite (turn : HubTurn) (linkId : LinkId)
    {identity target : IdentityHash} {args : List String}
    {roomName : String} (rawRoom : Option String)
    (uninvites : turn.core.uninvitedByCommand identity args = some (roomName, target)) :
    ¬ (turn.cmdInvite linkId identity args rawRoom).core.Leased roomName
      target := by
  unfold HubCore.uninvitedByCommand at uninvites
  split at uninvites
  · rename_i roomArg word token rest
    split at uninvites
    · rename_i deletes
      obtain ⟨operated, chosen, resolved⟩ :=
        Option.bind_eq_some_iff.mp uninvites
      obtain ⟨found, known, equal⟩ := Option.map_eq_some_iff.mp resolved
      cases equal
      obtain ⟨named, operator⟩ := Option.filter_eq_some_iff.mp chosen
      obtain ⟨room, held, operates⟩ := (Option.any_eq_true _ _).mp operator
      have normed : turn.core.normRoom roomArg = .ok roomName :=
        eq_ok_of_toOption named
      have hit : turn.core.resolveTargetOrHash token = .ok target :=
        eq_ok_of_toOption known
      have views : turn.core.canViewRoom room identity = true := by
        simp [HubCore.canViewRoom, operates]
      simp only [cmdInvite, withRoomName, normed, withRoomOp,
        withVisibleRoom, held, views, operates, if_true, deletes, hit]
      intro leased
      refine not_leased_uninvited turn roomName target (some linkId) ?_
      exact (descends_mintRoomToken tolerant_leasedFrom _ roomName).leasesFrom.earlier leased
    · cases uninvites
  · cases uninvites

omit [HubCrypto] in
/-- Whom the owner uninvites from a room holds no lease on it. -/
theorem not_leased_adminSetInvitation {turn after : HubTurn} {room : String}
    {target : IdentityHash} {roomName : String}
    (normed : turn.core.normRoom room = .ok roomName)
    (uninvites : turn.adminSetInvitation room target false = .ok after) :
    ¬ after.core.Leased roomName target := by
  obtain ⟨name, named, uninvites⟩ := bind_eq_ok uninvites
  rw [HubCore.adminRoomName, normed] at named
  cases named
  obtain ⟨live, registered, uninvites⟩ := bind_eq_ok uninvites
  simp only [Bool.false_eq_true, if_false] at uninvites
  split at uninvites
  · rename_i neither
    cases uninvites
    rintro ⟨found, held, lease⟩
    have same : live = found := by
      simp only [HubCore.requireRegisteredAdminRoom, held] at registered
      split at registered
      · cases registered
        rfl
      · cases registered
    subst same
    rw [HubRoom.Leases, Option.isNone_iff_eq_none.mp neither.2] at lease
    cases lease
  · cases uninvites
    exact not_leased_uninvited turn roomName target none

/-- The owner may uninvite whoever it likes from a registered room. -/
theorem not_leased_ownerUninvite {turn : HubTurn} {actor : IdentityHash}
    {room : String} {target : IdentityHash} {roomName : String}
    {live : HubRoom} (owner : actor ∈ turn.core.serverOps)
    (normed : turn.core.normRoom room = .ok roomName)
    (held : turn.core.rooms.lookup roomName = some live) (registered : live.registered = true) :
    ¬ (turn.handle
      (.adminMutation actor (.setInvitation room target false))).core.Leased
        roomName target := by
  have named : turn.core.adminRoomName room = .ok roomName := by
    rw [HubCore.adminRoomName, normed]
  have required : turn.core.requireRegisteredAdminRoom roomName =
      .ok live := by
    rw [HubCore.requireRegisteredAdminRoom, held]
    exact if_pos registered
  have accepts : ∃ after,
      turn.adminSetInvitation room target false = .ok after := by
    unfold adminSetInvitation
    rw [named]
    simp only [bind, Except.bind, required, Bool.false_eq_true, if_false]
    split
    · exact ⟨_, rfl⟩
    · exact ⟨_, rfl⟩
  obtain ⟨after, accepted⟩ := accepts
  have mutated : turn.adminMutate actor (.setInvitation room target false) =
      .ok after := by
    rw [adminMutate, if_neg (not_not.mpr owner)]
    exact accepted
  simp only [handle, mutated]
  exact not_leased_adminSetInvitation normed accepted

/-- An accepted `/invite del` that is relayed ends the lease. -/
theorem not_leased_onRelay {turn : HubTurn} {linkId : LinkId}
    {identity target : IdentityHash} {envelope : Envelope} {roomName : String}
    (sender : turn.core.sessionIdentity linkId = some identity)
    (slash : isSlashText envelope = true)
    (uninvites : turn.core.uninvitedBySlash identity envelope = some (roomName, target)) :
    ¬ (turn.onRelay linkId envelope).core.Leased roomName target := by
  unfold HubCore.uninvitedBySlash at uninvites
  split at uninvites
  · rename_i args words
    unfold onRelay
    rw [sender]
    dsimp only
    rw [if_pos (show isSlashText { envelope with
      timestampMs := sanitizeDisplayTimestampMs envelope.timestampMs
        turn.ambient.ms } = true from slash)]
    have handled : turn.handleSlashCommand linkId identity { envelope with
        timestampMs := sanitizeDisplayTimestampMs envelope.timestampMs turn.ambient.ms } =
        some (turn.cmdInvite linkId identity args envelope.room) := by
      unfold handleSlashCommand
      rw [show slashWords { envelope with
        timestampMs := sanitizeDisplayTimestampMs envelope.timestampMs
          turn.ambient.ms } = some ("invite", args) from words]
      rfl
    rw [handled]
    exact turn.not_leased_cmdInvite linkId envelope.room uninvites
  · cases uninvites

/-- Whoever an event uninvites from a room holds no lease on it. -/
theorem not_leased_uninvitedBy {core : HubCore} {input : HubInput}
    {roomName : String} {target : IdentityHash}
    (uninvites : core.uninvitedBy input = some (roomName, target)) :
    ¬ (core.step input).Leased roomName target := by
  unfold HubCore.uninvitedBy at uninvites
  split at uninvites
  · rename_i actor mutation event
    unfold HubCore.uninvitedByOwner at uninvites
    split at uninvites
    · rename_i room other
      obtain ⟨name, chosen, equal⟩ := Option.map_eq_some_iff.mp uninvites
      cases equal
      obtain ⟨named, allowed⟩ := Option.filter_eq_some_iff.mp chosen
      simp only [Bool.and_eq_true, decide_eq_true_eq] at allowed
      obtain ⟨owner, registered⟩ := allowed
      obtain ⟨live, held, known⟩ := (Option.any_eq_true _ _).mp registered
      have normed : core.normRoom room = .ok roomName :=
        eq_ok_of_toOption named
      have removes : ¬ ((core.turn input.ambient).handle
          (.adminMutation actor
            (.setInvitation room target false))).core.Leased roomName target :=
        not_leased_ownerUninvite owner normed held known
      rw [HubCore.step, HubCore.handle, event]
      exact removes
    · cases uninvites
  · obtain ⟨⟨linkId, identity, envelope⟩, commanded, uninvites⟩ :=
      Option.bind_eq_some_iff.mp uninvites
    obtain ⟨delivered, command⟩ := Option.filter_eq_some_iff.mp commanded
    simp only [Bool.and_eq_true, decide_eq_true_eq] at command
    obtain ⟨kind, slash⟩ := command
    have accounted := accounted_received (core.turn input.ambient) linkId envelope
    have reaches : envelope.messageType ≠ .ping ∧
        envelope.messageType ≠ .pong ∧ envelope.messageType ≠ .hello := by
      simp only [List.mem_cons, List.not_mem_nil, or_false] at kind
      rcases kind with kind | kind | kind <;> simp [kind]
    rw [HubCore.step, handle_delivered delivered reaches]
    generalize (core.turn input.ambient).received linkId envelope = turn at accounted
    have sender : turn.core.sessionIdentity linkId = some identity :=
      (accounted.sessionIdentity linkId).trans (HubCore.sessionIdentity_of_delivered delivered)
    have relays : turn.onWelcomedEnvelope linkId envelope =
        turn.onRelay linkId envelope := by
      simp only [List.mem_cons, List.not_mem_nil, or_false] at kind
      rcases kind with kind | kind | kind <;>
        simp [onWelcomedEnvelope, kind]
    have uninvites : turn.core.uninvitedBySlash identity envelope =
        some (roomName, target) :=
      (accounted.uninvitedBySlash identity envelope).trans uninvites
    rw [relays]
    exact not_leased_onRelay sender slash uninvites

end HubTurn

/-! ## Runs -/

/-- What holds of leases, and what it rests on. -/
structure HubCore.LeasesHold (core : HubCore) : Prop where
  sound : core.LeasesSound
  unlisted : core.Unlisted
  seated : core.roll.Seated

/-- What a step does to leases. -/
structure HubCore.LeaseStep (core : HubCore) (input : ServiceInput) :
    Prop where
  /-- Only the loss of a member's last link to a room makes a lease. -/
  minted : ∀ roomName identity, (core.serve input).Leased roomName identity →
    core.Leased roomName identity ∨
      core.LosesMember input.input roomName identity ∧
        ¬ (core.serve input).Present roomName identity
  parted : ∀ link identity roomName,
    core.parting input.input = some (link, identity, roomName) →
      ¬ (core.serve input).Leased roomName identity
  expelled : ∀ roomName target,
    core.expelledBy input.input = some (roomName, target) →
      core.Present roomName target → ¬ (core.serve input).Leased roomName target
  uninvited : ∀ roomName target,
    core.uninvitedBy input.input = some (roomName, target) →
      ¬ (core.serve input).Leased roomName target

theorem serve_leased {core : HubCore} {input : ServiceInput}
    {roomName : String} {identity : IdentityHash}
    (leased : (core.serve input).Leased roomName identity) :
    (core.step input.input).Leased roomName identity :=
  (descends_serve tolerant_leasedFrom core input).leasesFrom.earlier leased

theorem leasesHold_serve {core : HubCore} {input : ServiceInput}
    (holds : core.LeasesHold) (spares : core.SparesLeases input) :
    (core.serve input).LeasesHold := by
  have roll := roll_serve core input
  obtain ⟨sound, -⟩ := leases_step holds.sound holds.unlisted holds.seated spares
  refine ⟨sound.after
    (descends_serve tolerant_leasedFrom core input).leasesFrom
    (fun _ _ _ => by rw [roll]; exact id)
    (fun _ _ _ => by rw [klines_serve]; exact id)
    (fun _ _ _ => by rw [roll]; exact id), ?_, ?_⟩
  · intro link identity proved
    rw [klines_serve]
    refine unlisted_step holds.unlisted input.input link identity ?_
    exact (congrArg (fun known : HubRoll => known.identity link)
      roll).symm.trans proved
  · rw [roll]
    exact roll_step_induct holds.seated
      (fun link _ => Roll.seated_apply holds.seated _)
      (fun link identity _ _ => Roll.seated_apply holds.seated _)
      (fun link identity _ _ => Roll.seated_apply holds.seated _)
      fun roll op seated _ _ => Roll.seated_apply seated op

omit [UnicodeTables] [HubCrypto] in
/-- Only the end of a link, or of the time for an answer, loses a link. -/
private theorem not_loses {core : HubCore} {input : HubInput}
    (closed : ∀ link, input.event ≠ .linkClosed link)
    (quiet : input.event ≠ .pingTick) (link : LinkId) :
    ¬ core.loses input link := by
  rintro (lost | ⟨lost, -⟩)
  · exact closed link lost
  · exact quiet lost

omit [UnicodeTables] [HubCrypto] in
private theorem not_loses_delivered {core : HubCore} {input : HubInput}
    {said : LinkId × IdentityHash × Envelope}
    (delivered : core.delivered input = some said) (link : LinkId) :
    ¬ core.loses input link := by
  have event := ((core.delivered_eq_some_iff _ _ _ _).mp delivered).1
  exact not_loses (fun _ closed => by rw [event] at closed; cases closed)
    (fun quiet => by rw [event] at quiet; cases quiet) link

omit [HubCrypto] in
private theorem not_loses_expelledBy {core : HubCore} {input : HubInput}
    {expulsion : String × IdentityHash}
    (expelled : core.expelledBy input = some expulsion) (link : LinkId) :
    ¬ core.loses input link := by
  unfold HubCore.expelledBy at expelled
  split at expelled
  · rename_i actor mutation event
    exact not_loses (fun _ closed => by rw [event] at closed; cases closed)
      (fun quiet => by rw [event] at quiet; cases quiet) link
  · obtain ⟨_, commanded, -⟩ := Option.bind_eq_some_iff.mp expelled
    exact not_loses_delivered (Option.filter_eq_some_iff.mp commanded).1 link

theorem leaseStep_serve {core : HubCore} {input : ServiceInput}
    (holds : core.LeasesHold) (spares : core.SparesLeases input) :
    core.LeaseStep input := by
  obtain ⟨-, minted⟩ := leases_step holds.sound holds.unlisted holds.seated spares
  have after := leasesHold_serve holds spares
  refine ⟨fun roomName identity leased => ?_,
    fun link identity roomName parts leased => ?_,
    fun roomName target expelled present leased => ?_,
    fun roomName target uninvites leased => ?_⟩
  · rcases minted roomName identity (serve_leased leased) with earlier | lost
    · exact Or.inl earlier
    · exact Or.inr ⟨lost, fun present => after.sound.absent roomName identity
        leased ((present_iff_roll _ _ _).mp present)⟩
  · rcases minted roomName identity (serve_leased leased) with
      earlier | ⟨other, lost, -⟩
    · exact spares.parting parts earlier
    · obtain ⟨_, delivered, -⟩ := Option.bind_eq_some_iff.mp parts
      exact not_loses_delivered delivered other lost
  · rcases minted roomName target (serve_leased leased) with
      earlier | ⟨other, lost, -⟩
    · exact holds.sound.absent roomName target earlier ((present_iff_roll _ _ _).mp present)
    · exact not_loses_expelledBy expelled other lost
  · exact HubTurn.not_leased_uninvitedBy uninvites (serve_leased leased)

/-- The lease goes back to a step that lost the last link of its holder to
the room, and was held ever since. -/
def HubCore.Earned (first : HubCore) (inputs : List ServiceInput)
    (roomName : String) (identity : IdentityHash) : Prop :=
  ∃ before losing rest, inputs = before ++ losing :: rest ∧
    (runFrom HubCore.serve first before).LosesMember losing.input roomName identity ∧
    ¬ (runFrom HubCore.serve first (before ++ [losing])).Present roomName identity ∧
    ∀ later, later <+: rest →
      (runFrom HubCore.serve first (before ++ losing :: later)).Leased roomName identity

/-- Leases are earned where every step makes them so and none stands at the
start. -/
theorem earned_run {first : HubCore} {inputs : List ServiceInput}
    (leaseless : ∀ roomName identity, ¬ first.Leased roomName identity)
    (steps : Along HubCore.serve HubCore.LeaseStep first inputs)
    {roomName : String} {identity : IdentityHash}
    (leased : (runFrom HubCore.serve first inputs).Leased roomName identity) :
    first.Earned inputs roomName identity := by
  induction inputs using List.reverseRecOn with
  | nil => exact absurd leased (leaseless roomName identity)
  | append_singleton inputs input ih =>
      obtain ⟨earlierSteps, step, -⟩ := (along_append _ _ _ _ _).mp steps
      have last : runFrom HubCore.serve first (inputs ++ [input]) =
          (runFrom HubCore.serve first inputs).serve input :=
        runFrom_append _ _ _ _
      rcases step.minted roomName identity (last ▸ leased) with
        earlier | ⟨lost, gone⟩
      · obtain ⟨before, losing, rest, same, lost, gone, since⟩ :=
          ih earlierSteps earlier
        refine ⟨before, losing, rest ++ [input], by simp [same], lost, gone,
          fun later initial => ?_⟩
        rcases List.prefix_concat_iff.mp initial with all | initial
        · rw [all]
          simpa [same] using leased
        · exact since later initial
      · refine ⟨inputs, input, [], rfl, lost, last ▸ gone,
          fun later initial => ?_⟩
        rw [List.prefix_nil.mp initial]
        exact leased

omit [HubCrypto] in
/-- A hub that starts has given no lease. -/
theorem not_leased_new (config : ChannelHubConfig) (hubHash : IdentityHash)
    (klines : FiniteSet IdentityHash) (admission : AdmissionState)
    (pepper : Bytes 32) (restored : List HubRoomRow) (ambient : Ambient)
    (roomName : String) (identity : IdentityHash) :
    ¬ (HubCore.new config hubHash klines admission pepper restored
      ambient).Leased roomName identity := by
  unfold HubCore.new
  refine @HubCore.restore_induct _
    (fun core => ¬ core.Leased roomName identity) ambient.unix
    (fun core row leaseless normed => ?_) _ restored ?_
  · rintro ⟨room, held, lease⟩
    rw [FiniteMap.lookup_insert_ite] at held
    split at held
    · cases held
      rw [restoreRoom] at lease
      obtain ⟨_, _, _, _, isRoom⟩ := restoreGrants_eq ambient.unix _ row.grants
      rw [isRoom] at lease
      exact HubRoom.not_leases rfl identity lease
    · exact leaseless ⟨room, held, lease⟩
  · rintro ⟨room, held, -⟩
    rw [AList.lookup_empty] at held
    cases held

/-- Leases hold in every state of a run in which no link in a room is
identified as the holder of a lease on it and nobody parts from a room in
absence, and every lease there is earned. -/
theorem leasesHold_run (config : ChannelHubConfig) (hubHash : IdentityHash)
    (klines : FiniteSet IdentityHash) (admission : AdmissionState)
    (pepper : Bytes 32) (restored : List HubRoomRow) (ambient : Ambient)
    (inputs : List ServiceInput) (spares : Along HubCore.serve HubCore.SparesLeases
      (HubCore.new config hubHash klines admission pepper restored ambient)
      inputs) :
    (runFrom HubCore.serve
      (HubCore.new config hubHash klines admission pepper restored ambient)
      inputs).LeasesSound ∧
    Along HubCore.serve HubCore.LeaseStep
      (HubCore.new config hubHash klines admission pepper restored ambient)
      inputs ∧
    ∀ roomName identity,
      (runFrom HubCore.serve
        (HubCore.new config hubHash klines admission pepper restored ambient)
        inputs).Leased roomName identity →
      (HubCore.new config hubHash klines admission pepper restored
        ambient).Earned inputs roomName identity := by
  have leaseless := not_leased_new config hubHash klines admission pepper restored ambient
  have unattended := unattended_new config hubHash klines admission pepper restored ambient
  have start : (HubCore.new config hubHash klines admission pepper restored
      ambient).LeasesHold := by
    refine ⟨⟨fun roomName identity leased => ?_,
      fun roomName identity leased _ => leaseless roomName identity leased,
      fun roomName identity leased _ => leaseless roomName identity leased⟩,
      unattended.bansHold.unlisted, ?_⟩
    · exact absurd leased (leaseless roomName identity)
    · exact fun link room joined =>
        (unattended.coherent.mirrored link room).mpr joined
  have steps := along_of_invariant HubCore.LeasesHold
    (fun _ _ => leasesHold_serve) (fun _ _ => leaseStep_serve) start spares
  exact ⟨(invariant_runFrom HubCore.LeasesHold (fun _ _ => leasesHold_serve)
    start spares).sound, steps, fun _ _ => earned_run leaseless steps⟩

end Events

section Samples

attribute [local instance] asciiTables sampleCrypto

/-- A hub that stores the room `r`, for invited guests only, of which Bob is
an operator. -/
def leasingHub : HubCore :=
  HubCore.new { serverOperators := [alice] } (Bytes.replicate 16 9) ∅
    (AdmissionState.new false 0) (Bytes.replicate 32 7)
    [{ bannedRow "r" bob with
        inviteOnly := true
        grants := [("op", hexEncode bob.val, 0)] }] (ambientAt 0)

/-- Alice joins the room, and her link goes away. -/
def losingAlice : List ServiceInput :=
  joining linkOne alice "r" ++ [served (.linkClosed linkOne)]

/-- Alice is back on another link, and is about to part from the room. -/
def returningAlice : List ServiceInput :=
  losingAlice ++
    [served (.linkIdentified linkTwo alice),
      served (.linkPacket linkTwo (some (wireEnvelope 1 .hello alice none)))]

/-- Alice parts from the room in which she is not. -/
def partingAlice : ServiceInput :=
  served (.linkPacket linkTwo (some (wireEnvelope 2 .part alice (some "r"))))

/-- The link of Bob is in the room and then identified as Alice. -/
def reboundBob : List ServiceInput :=
  losingAlice ++ joining linkTwo bob "r" ++ [served (.linkIdentified linkTwo alice)]

private theorem parting_returningAlice :
    (runFrom HubCore.serve leasingHub returningAlice).parting
      partingAlice.input = some (linkTwo, alice, "r") := by
  decide +kernel

private theorem leased_partingAlice :
    ((runFrom HubCore.serve leasingHub
      (returningAlice ++ [partingAlice])).rooms.lookup "r").any
        (fun room => (room.rejoinUntil.lookup alice).isSome) = true := by
  decide +kernel

private theorem leased_reboundBob :
    ((runFrom HubCore.serve leasingHub reboundBob).rooms.lookup "r").any
      (fun room => (room.rejoinUntil.lookup alice).isSome &&
        decide (linkTwo ∈ room.members)) = true := by
  decide +kernel

private theorem alice_reboundBob :
    (runFrom HubCore.serve leasingHub reboundBob).sessionIdentity linkTwo =
      some alice := by
  decide +kernel

/-- A lease outlives the part of its holder, and the holder is in the room
once a member's link is identified as the holder. -/
theorem leases_outlive_parts :
    ((runFrom HubCore.serve leasingHub returningAlice).parting
        partingAlice.input = some (linkTwo, alice, "r") ∧
      (runFrom HubCore.serve leasingHub (returningAlice ++ [partingAlice])).Leased "r" alice) ∧
    ¬ (runFrom HubCore.serve leasingHub reboundBob).LeasesSound := by
  refine ⟨⟨parting_returningAlice, ?_⟩, fun sound => ?_⟩
  · obtain ⟨room, held, lease⟩ :=
      (Option.any_eq_true _ _).mp leased_partingAlice
    exact ⟨room, held, lease⟩
  · obtain ⟨room, held, both⟩ :=
      (Option.any_eq_true _ _).mp leased_reboundBob
    obtain ⟨lease, inside⟩ := (Bool.and_eq_true _ _).mp both
    exact sound.absent "r" alice ⟨room, held, lease⟩
      ⟨linkTwo, ⟨room, held, of_decide_eq_true inside⟩, alice_reboundBob⟩

/-- A run in which Alice comes back with her lease. -/
theorem leasesHold_rejoin :
    (runFrom HubCore.serve leasingHub (losingAlice ++ joining linkTwo alice "r")).LeasesSound ∧
    Along HubCore.serve HubCore.LeaseStep leasingHub
      (losingAlice ++ joining linkTwo alice "r") ∧
    ∀ roomName identity,
      (runFrom HubCore.serve leasingHub
        (losingAlice ++ joining linkTwo alice "r")).Leased roomName identity →
      leasingHub.Earned (losingAlice ++ joining linkTwo alice "r") roomName identity :=
  leasesHold_run _ _ _ _ _ _ _ _ (by decide +kernel)

end Samples

end Ratspeak
